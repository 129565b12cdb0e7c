import Mathlib.Data.List.DropRight
import Mathlib.Tactic
import Std.Data.String.ToNat

/-!
Text that tells what it was made from.

* `digitChar_inj`, `toDigits_inj`: a number is told by its digits in a base up to 16.
* `separated_inj`: a list of pieces is told by its pieces with separators between them.
* `flatMap_inj`: a list is told by pieces of one width put together.
* `zipIdx_filter_inj`: a list is told by its length and its entries but the fillers, with their
  places.
* `rdropWhile_inj`: a list is told by its length and what is left without the padding at its
  end.
-/

namespace Render

/-! ### Numbers -/

section Numbers

variable {base m n : ℕ}

lemma digitChar_inj (hm : m < 16) (hn : n < 16) (h : Nat.digitChar m = Nat.digitChar n) :
    m = n := by
  have hall : ∀ m < 16, ∀ n < 16, Nat.digitChar m = Nat.digitChar n → m = n := by decide
  exact hall m hm n hn h

/-- **A number is told by its digits.** -/
theorem toDigits_inj (hbase : 1 < base) (hle : base ≤ 16)
    (h : Nat.toDigits base m = Nat.toDigits base n) : m = n := by
  have hlong : ∀ k, base ≤ k → 1 < (Nat.toDigits base k).length := by
    intro k hk
    rw [Nat.toDigits_of_base_le hbase hk, List.length_append, List.length_singleton]
    have hpos : 0 < (Nat.toDigits base (k / base)).length := Nat.length_toDigits_pos
    omega
  have hshort : ∀ k, k < base → (Nat.toDigits base k).length = 1 := by
    intro k hk
    rw [Nat.toDigits_of_lt_base hk, List.length_singleton]
  induction m using Nat.strong_induction_on generalizing n with
  | _ m ih =>
    rcases Nat.lt_or_ge m base with hm | hm
    · rcases Nat.lt_or_ge n base with hn | hn
      · rw [Nat.toDigits_of_lt_base hm, Nat.toDigits_of_lt_base hn] at h
        exact digitChar_inj (by omega) (by omega) (List.singleton_inj.mp h)
      · have hlen := congrArg List.length h
        have hone := hshort m hm
        have hmore := hlong n hn
        omega
    · rcases Nat.lt_or_ge n base with hn | hn
      · have hlen := congrArg List.length h
        have hone := hshort n hn
        have hmore := hlong m hm
        omega
      · rw [Nat.toDigits_of_base_le hbase hm, Nat.toDigits_of_base_le hbase hn] at h
        obtain ⟨hfront, hback⟩ := List.append_inj' h rfl
        have hm' := Nat.mod_lt m (by omega : base > 0)
        have hn' := Nat.mod_lt n (by omega : base > 0)
        have hdiv := ih (m / base) (Nat.div_lt_self (by omega) hbase) hfront
        have hmod := digitChar_inj (by omega) (by omega) (List.singleton_inj.mp hback)
        rw [← Nat.div_add_mod m base, hdiv, hmod, Nat.div_add_mod]

end Numbers

/-! ### Lists -/

section Lists

variable {α β : Type} {l m : List α}

/-- **Pieces with separators between them.**  No piece is empty or has a separator in it. -/
theorem separated_inj {c : Char} {l m : List String} (hl : ∀ s ∈ l, s ≠ "" ∧ c ∉ s.toList)
    (hm : ∀ s ∈ m, s ≠ "" ∧ c ∉ s.toList)
    (h : String.intercalate (String.singleton c) l = String.intercalate (String.singleton c) m) :
    l = m := by
  have hsplitL := String.toList_split_intercalate fun s hs => (hl s hs).2
  have hsplitM := String.toList_split_intercalate fun s hs => (hm s hs).2
  rw [h, hsplitM] at hsplitL
  split_ifs at hsplitL with hmnil hlnil hlnil
  · rw [hmnil, hlnil]
  · exact absurd rfl (hl "" (by rw [← hsplitL]; exact List.mem_singleton_self _)).1
  · exact absurd rfl (hm "" (by rw [hsplitL]; exact List.mem_singleton_self _)).1
  · exact hsplitL.symm

/-- Pieces of one width put together. -/
lemma flatMap_inj {f : α → List β} {k : ℕ} (hk : 0 < k) (hlen : ∀ x, (f x).length = k)
    (hf : Function.Injective f) (h : l.flatMap f = m.flatMap f) : l = m := by
  have hempty : ∀ x, f x ≠ [] := fun x hx => by
    have hx' := hlen x
    rw [hx, List.length_nil] at hx'
    omega
  induction l generalizing m with
  | nil =>
      cases m with
      | nil => rfl
      | cons y ys =>
          rw [List.flatMap_nil, List.flatMap_cons] at h
          exact absurd (List.append_eq_nil_iff.mp h.symm).1 (hempty y)
  | cons x xs ih =>
      cases m with
      | nil =>
          rw [List.flatMap_nil, List.flatMap_cons] at h
          exact absurd (List.append_eq_nil_iff.mp h).1 (hempty x)
      | cons y ys =>
          rw [List.flatMap_cons, List.flatMap_cons] at h
          obtain ⟨hxy, hrest⟩ := List.append_inj h (by rw [hlen, hlen])
          rw [hf hxy, ih hrest]

/-- Padding at the end of lists of one length. -/
lemma rdropWhile_inj [BEq α] [LawfulBEq α] {z : α} (hlen : l.length = m.length)
    (h : l.rdropWhile (· == z) = m.rdropWhile (· == z)) : l = m := by
  have hpad : ∀ l : List α, l.rtakeWhile (· == z) =
      List.replicate (l.rtakeWhile (· == z)).length z := fun l =>
    List.eq_replicate_of_mem fun x hx => by simpa using List.mem_rtakeWhile_imp hx
  have hl : l.rdropWhile (· == z) ++ l.rtakeWhile (· == z) = l :=
    List.rdropWhile_append_rtakeWhile
  have hm : m.rdropWhile (· == z) ++ m.rtakeWhile (· == z) = m :=
    List.rdropWhile_append_rtakeWhile
  have hlenL := congrArg List.length hl
  have hlenM := congrArg List.length hm
  rw [List.length_append] at hlenL hlenM
  have hsame : (l.rtakeWhile (· == z)).length = (m.rtakeWhile (· == z)).length := by
    rw [h] at hlenL
    omega
  rw [← hl, ← hm, h, hpad l, hpad m, hsame]

/-- What is left of a list without its fillers, each with its place. -/
lemma zipIdx_filter_inj [DecidableEq α] {z : α} (hlen : l.length = m.length)
    (h : (l.zipIdx.filter fun r => r.1 ≠ z) = m.zipIdx.filter fun r => r.1 ≠ z) : l = m := by
  have hmem : ∀ {l m : List α}, ((l.zipIdx.filter fun r => r.1 ≠ z) =
      m.zipIdx.filter fun r => r.1 ≠ z) → ∀ {i : ℕ} {x : α}, l[i]? = some x → x ≠ z →
        m[i]? = some x := by
    intro l m h i x hx hne
    have hin : (x, i) ∈ l.zipIdx.filter fun r => r.1 ≠ z :=
      List.mem_filter.mpr ⟨List.mk_mem_zipIdx_iff_getElem?.mpr hx, by simpa using hne⟩
    rw [h] at hin
    exact List.mk_mem_zipIdx_iff_getElem?.mp (List.mem_filter.mp hin).1
  refine List.ext_getElem hlen fun i hl hm => ?_
  have hgetL := List.getElem?_eq_getElem hl
  have hgetM := List.getElem?_eq_getElem hm
  by_cases hz : l[i] = z
  · by_contra hne
    have hother : m[i] ≠ z := fun hmz => hne (hz.trans hmz.symm)
    have hsame := hmem h.symm hgetM hother
    rw [hgetL] at hsame
    exact hne (Option.some.inj hsame)
  · have hsame := hmem h hgetL hz
    rw [hgetM] at hsame
    exact (Option.some.inj hsame).symm

end Lists

end Render
