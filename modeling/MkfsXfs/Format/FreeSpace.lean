import Mathlib.Data.List.TakeWhile
import MkfsXfs.Format.Plan
import MkfsXfs.Lib.Extents

/-!
`take` and `rmapInsert` as operations on lists of extents.

* `take_eq_ok`: `take` succeeds exactly when one extent holds all that is taken, and puts
  in its place what is left of it.
* `take_runs`, `take_cover`: the order is kept, and exactly the blocks taken are gone.
* `rmapInsert_spec`: inserting a record disjoint from those there succeeds, keeps the
  records in order and merged, and adds exactly the blocks of the record to its owner's.
-/

namespace MkfsXfs

open Checked Extents Extents.Extent

instance : Extent AllocRec := ⟨fun r => r.start, fun r => r.start + r.count⟩

instance : Extent RmapRec := ⟨fun r => r.start, fun r => r.start + r.count⟩

lemma AllocRec.first_eq (r : AllocRec) : first r = r.start := rfl

lemma AllocRec.past_eq (r : AllocRec) : past r = r.start + r.count := rfl

lemma RmapRec.first_eq (r : RmapRec) : first r = r.start := rfl

lemma RmapRec.past_eq (r : RmapRec) : past r = r.start + r.count := rfl

/-- Free extents in order that `gap` apart: touching ones have been merged when `gap` is
set. -/
abbrev FreeRuns (gap : Prop) : List AllocRec → Prop := Runs fun _ _ => gap

/-- Reverse mappings in order, contiguous ones of an owner merged. -/
abbrev RmapRuns : List RmapRec → Prop := Runs fun a b => a.owner = b.owner

/-- All extents end by the block `n`. -/
def Within {E : Type*} [Extent E] (n : ℕ) (l : List E) : Prop := ∀ e ∈ l, past e ≤ n

lemma toU32_of_lt {n : ℕ} (h : n < 2 ^ 32) : toU32 n = n := Nat.mod_eq_of_lt h

/-! ### Taking blocks out of the free extents -/

/-- What is left of a free extent before the blocks taken. -/
def AllocRec.before (r : AllocRec) (start : ℕ) : List AllocRec :=
  if start > r.start then [⟨r.start, start - r.start⟩] else []

/-- What is left of a free extent after the blocks taken. -/
def AllocRec.after (r : AllocRec) (past : ℕ) : List AllocRec :=
  if past < r.start + r.count then [⟨past, r.start + r.count - past⟩] else []

/-- `take` at the first extent that holds all the blocks. -/
lemma take_of_split {l₁ l₂ : List AllocRec} {r : AllocRec} {start len : ℕ}
    (hw : Within (2 ^ 32 - 1) (l₁ ++ r :: l₂)) (hs : r.start ≤ start)
    (he : start + len ≤ r.start + r.count)
    (hno : ∀ a ∈ l₁, ¬ (a.start ≤ start ∧ start + len ≤ a.start + a.count)) :
    take (l₁ ++ r :: l₂) start len
      = .ok (l₁ ++ ((r.before start ++ r.after (start + len)) ++ l₂)) := by
  have hr : r.start + r.count ≤ 2 ^ 32 - 1 := hw r (by simp)
  have hidx : (l₁ ++ r :: l₂).findIdx?
      (fun a => a.start ≤ start ∧ start + len ≤ a.start + a.count) = some l₁.length := by
    have h1 : l₁.findIdx? (fun a => a.start ≤ start ∧ start + len ≤ a.start + a.count)
        = none := by
      rw [List.findIdx?_eq_none_iff]
      intro a ha
      exact decide_eq_false (hno a ha)
    rw [List.findIdx?_append, h1, List.findIdx?_cons, if_pos (decide_eq_true ⟨hs, he⟩)]
    simp
  have hget : (l₁ ++ r :: l₂)[l₁.length]? = some r := by simp
  have herase : (l₁ ++ r :: l₂).eraseIdx l₁.length = l₁ ++ l₂ := by
    rw [List.eraseIdx_append_of_length_le (le_refl _), Nat.sub_self, List.eraseIdx_cons_zero]
  simp only [take, hidx, hget, herase, List.take_left', List.drop_left']
  rw [AllocRec.before, AllocRec.after, toU32_of_lt (n := r.start) (by omega),
    toU32_of_lt (n := start - r.start) (by omega), toU32_of_lt (n := start + len) (by omega),
    toU32_of_lt (n := r.start + r.count - start - len) (by omega), Nat.sub_sub]
  simp only [List.append_assoc]

/-- **`take` replaces the first extent that holds all the blocks by what is left of it.** -/
lemma take_eq_ok {free free' : List AllocRec} {start len : ℕ} (hw : Within (2 ^ 32 - 1) free) :
    take free start len = .ok free' ↔ ∃ l₁ r l₂, free = l₁ ++ r :: l₂ ∧
      r.start ≤ start ∧ start + len ≤ r.start + r.count ∧
      (∀ a ∈ l₁, ¬ (a.start ≤ start ∧ start + len ≤ a.start + a.count)) ∧
      free' = l₁ ++ ((r.before start ++ r.after (start + len)) ++ l₂) := by
  refine ⟨fun h => ?_, ?_⟩
  · cases hidx : free.findIdx? (fun a => a.start ≤ start ∧ start + len ≤ a.start + a.count) with
    | none =>
        simp only [take, hidx] at h
        cases h
    | some i =>
        obtain ⟨hi, hp, hno⟩ := List.findIdx?_eq_some_iff_getElem.mp hidx
        obtain ⟨hs, he⟩ := of_decide_eq_true hp
        have hsplit : free = free.take i ++ free[i] :: free.drop (i + 1) := by
          rw [List.cons_getElem_drop_succ, List.take_append_drop]
        have hbefore : ∀ a ∈ free.take i,
            ¬ (a.start ≤ start ∧ start + len ≤ a.start + a.count) := by
          intro a ha
          obtain ⟨j, hj, rfl⟩ := List.getElem_of_mem ha
          rw [List.length_take] at hj
          have := hno j (by omega)
          rw [List.getElem_take]
          exact of_decide_eq_false (Bool.not_eq_true _ ▸ this)
        rw [hsplit] at hw h
        rw [take_of_split hw hs he hbefore] at h
        exact ⟨_, _, _, hsplit, hs, he, hbefore, (Except.ok.inj h).symm⟩
  · rintro ⟨l₁, r, l₂, rfl, hs, he, hno, rfl⟩
    exact take_of_split hw hs he hno

/-- `take` succeeds when some extent holds all the blocks. -/
lemma take_isOk {free : List AllocRec} {start len : ℕ} {r : AllocRec} (hr : r ∈ free)
    (hs : r.start ≤ start) (he : start + len ≤ r.start + r.count) :
    ∃ free', take free start len = .ok free' := by
  cases hidx : free.findIdx? (fun a => a.start ≤ start ∧ start + len ≤ a.start + a.count) with
  | none =>
      have hno := List.findIdx?_eq_none_iff.mp hidx r hr
      exact absurd ⟨hs, he⟩ (of_decide_eq_false hno)
  | some i =>
      obtain ⟨hi, -, -⟩ := List.findIdx?_eq_some_iff_getElem.mp hidx
      simp only [take, hidx, List.getElem?_eq_getElem hi]
      exact ⟨_, rfl⟩

section Take

variable {free free' : List AllocRec} {start len : ℕ}

/-- What is left of an extent ends where the extent did. -/
lemma AllocRec.past_rest {r a : AllocRec} (hs : r.start ≤ start)
    (he : start + len ≤ r.start + r.count)
    (ha : a ∈ r.before start ++ r.after (start + len)) :
    r.start ≤ a.start ∧ a.start + a.count ≤ r.start + r.count := by
  rw [before, after] at ha
  split_ifs at ha <;> simp only [List.append_nil, List.nil_append, List.cons_append,
    List.mem_cons, List.not_mem_nil, or_false] at ha
  · rcases ha with rfl | rfl <;> constructor <;> dsimp only <;> omega
  · subst ha; dsimp only; omega
  · subst ha; dsimp only; omega

/-- `take` keeps the extents within their bound. -/
lemma take_within {n : ℕ} (hn : n < 2 ^ 32) (hw : Within n free)
    (h : take free start len = .ok free') : Within n free' := by
  have hw32 : Within (2 ^ 32 - 1) free := fun a ha => (hw a ha).trans (by omega)
  obtain ⟨l₁, r, l₂, rfl, hs, he, -, rfl⟩ := (take_eq_ok hw32).mp h
  intro a ha
  rcases List.mem_append.mp ha with ha | ha
  · exact hw a (by simp [ha])
  · rcases List.mem_append.mp ha with ha | ha
    · have h1 := (AllocRec.past_rest hs he ha).2
      have h2 : past r ≤ n := hw r (by simp)
      rw [AllocRec.past_eq] at h2 ⊢
      omega
    · exact hw a (by simp [ha])

/-- **`take` keeps the extents in order**, and apart when they were. -/
lemma take_runs {gap : Prop} (hw : Within (2 ^ 32 - 1) free) (hr : FreeRuns gap free)
    (hlen : 0 < len) (h : take free start len = .ok free') : FreeRuns gap free' := by
  obtain ⟨l₁, r, l₂, rfl, hs, he, -, rfl⟩ := (take_eq_ok hw).mp h
  refine Runs.replace (m := [r]) hr ?_ ?_ ?_
  · rw [AllocRec.before, AllocRec.after]
    split_ifs with h1 h2
    · simp only [List.cons_append, List.nil_append, runs_cons, List.mem_singleton, forall_eq,
        Apart, AllocRec.first_eq, AllocRec.past_eq, Runs.nil, List.not_mem_nil,
        IsEmpty.forall_iff, implies_true, and_true]
      omega
    · simp only [List.append_nil, runs_singleton, AllocRec.first_eq, AllocRec.past_eq]
      omega
    · simp only [List.nil_append, runs_singleton, AllocRec.first_eq, AllocRec.past_eq]
      omega
    · exact Runs.nil
  · intro a _ hap c hc
    have hc := (AllocRec.past_rest hs he hc).1
    obtain ⟨h1, h2⟩ := hap r (by simp)
    simp only [Apart, AllocRec.first_eq, AllocRec.past_eq] at h1 h2 ⊢
    exact ⟨by omega, fun hg => by have := h2 hg; omega⟩
  · intro a _ hap c hc
    have hc := (AllocRec.past_rest hs he hc).2
    obtain ⟨h1, h2⟩ := hap r (by simp)
    simp only [Apart, AllocRec.first_eq, AllocRec.past_eq] at h1 h2 ⊢
    exact ⟨by omega, fun hg => by have := h2 hg; omega⟩

/-- **`take` takes the blocks out and no others.** -/
lemma take_cover (hw : Within (2 ^ 32 - 1) free) (h : take free start len = .ok free') (b : ℕ) :
    cover free b = cover free' b + if start ≤ b ∧ b < start + len then 1 else 0 := by
  obtain ⟨l₁, r, l₂, rfl, hs, he, -, rfl⟩ := (take_eq_ok hw).mp h
  have hrest : cover (r.before start ++ r.after (start + len)) b
      + (if start ≤ b ∧ b < start + len then 1 else 0)
      = if r.start ≤ b ∧ b < r.start + r.count then 1 else 0 := by
    have hbefore : cover (r.before start) b = if r.start ≤ b ∧ b < start then 1 else 0 := by
      rw [AllocRec.before]
      by_cases h : start > r.start
      · rw [if_pos h]
        simp only [cover, tally_cons, tally_nil, AllocRec.first_eq, AllocRec.past_eq, true_and]
        split_ifs <;> omega
      · rw [if_neg h, if_neg (by omega)]
        rfl
    have hafter : cover (r.after (start + len)) b
        = if start + len ≤ b ∧ b < r.start + r.count then 1 else 0 := by
      rw [AllocRec.after]
      by_cases h : start + len < r.start + r.count
      · rw [if_pos h]
        simp only [cover, tally_cons, tally_nil, AllocRec.first_eq, AllocRec.past_eq, true_and]
        split_ifs <;> omega
      · rw [if_neg h, if_neg (by omega)]
        rfl
    rw [cover, tally_append]
    rw [cover] at hbefore hafter
    rw [hbefore, hafter]
    split_ifs <;> omega
  simp only [cover, tally_append, tally_cons, true_and, AllocRec.first_eq, AllocRec.past_eq]
    at hrest ⊢
  omega

end Take

/-! ### Inserting a reverse mapping -/

/-- The second record starts where the first ends, and both have the same owner. -/
def RmapRec.Touches (a b : RmapRec) : Prop := a.owner = b.owner ∧ a.start + a.count = b.start

instance (a b : RmapRec) : Decidable (a.Touches b) := inferInstanceAs (Decidable (_ ∧ _))

lemma RmapRec.contiguous_eq {a b : RmapRec} (h : a.start + a.count < 2 ^ 32) :
    a.contiguous b = .ok (decide (a.Touches b)) := by
  by_cases ho : a.owner = b.owner
  · rw [contiguous, if_pos ho, fit_of_lt h, ok_bind]
    simp [Touches, ho]
  · rw [contiguous, if_neg ho]
    simp [Touches, ho]

lemma keepIf_none {c : RmapRec → Exec Bool} : keepIf none c = .ok none := rfl

lemma keepIf_left {a rec : RmapRec} (h : a.start + a.count < 2 ^ 32) :
    keepIf (some a) (·.contiguous rec) = .ok (if a.Touches rec then some a else none) := by
  rw [keepIf, RmapRec.contiguous_eq h, ok_bind]
  simp

lemma keepIf_right {a rec : RmapRec} (h : rec.start + rec.count < 2 ^ 32) :
    keepIf (some a) rec.contiguous = .ok (if rec.Touches a then some a else none) := by
  rw [keepIf, RmapRec.contiguous_eq h, ok_bind]
  simp

/-- The record `z` is what `rec` and the neighbours `m` merged with it become, between `l`
and `r`. -/
structure Merged (rec : RmapRec) (l m r : List RmapRec) (z : RmapRec) : Prop where
  owner : z.owner = rec.owner
  owners : ∀ a ∈ m, a.owner = rec.owner
  nonempty : first z < past z
  holds : ∀ b, (if z.start ≤ b ∧ b < z.start + z.count then 1 else 0)
    = cover m b + if rec.start ≤ b ∧ b < rec.start + rec.count then 1 else 0
  left : ∀ a ∈ l, Apart (fun a b => a.owner = b.owner) a z
  right : ∀ a ∈ r, Apart (fun a b => a.owner = b.owner) z a

section Insert

variable {rec : RmapRec} {l₁ l₂ : List RmapRec}

/-- Of records that end before `rec`, only the last can touch it. -/
lemma apart_left {a : List RmapRec} {x : RmapRec} (hr : RmapRuns (a ++ [x]))
    (hend : ∀ r ∈ a ++ [x], past r ≤ rec.start) (hx : ¬ x.Touches rec) :
    ∀ r ∈ a ++ [x], Apart (fun a b : RmapRec => a.owner = b.owner) r rec := by
  intro r hmem
  refine ⟨hend r hmem, fun ho => ?_⟩
  obtain ⟨-, -, hax⟩ := runs_append.mp hr
  have hxne := hr.nonempty x (by simp)
  have hxend := hend x (by simp)
  simp only [RmapRec.first_eq, RmapRec.past_eq] at hxne hxend ⊢
  rcases List.mem_append.mp hmem with ha | ha
  · have h1 := (hax r ha x (by simp)).1
    rw [RmapRec.past_eq, RmapRec.first_eq] at h1
    omega
  · rw [List.mem_singleton] at ha
    subst ha
    by_contra hge
    exact hx ⟨ho, by omega⟩

/-- Of records that start after `rec`, only the first can touch it. -/
lemma apart_right {c : List RmapRec} {y : RmapRec} (hr : RmapRuns (y :: c))
    (hstart : ∀ r ∈ y :: c, past rec ≤ r.start) (hy : ¬ rec.Touches y) :
    ∀ r ∈ y :: c, Apart (fun a b : RmapRec => a.owner = b.owner) rec r := by
  intro r hmem
  refine ⟨hstart r hmem, fun ho => ?_⟩
  obtain ⟨hyne, hyc, -⟩ := runs_cons.mp hr
  have hyst := hstart y List.mem_cons_self
  simp only [RmapRec.first_eq, RmapRec.past_eq] at hyne hyst ⊢
  rcases List.mem_cons.mp hmem with rfl | hc
  · by_contra hge
    exact hy ⟨ho, by omega⟩
  · have h1 := (hyc r hc).1
    rw [RmapRec.past_eq, RmapRec.first_eq] at h1
    omega

/-- The position of `rec` among records in order. -/
lemma takeWhile_length (h₁ : ∀ a ∈ l₁, a.start < rec.start) (h₂ : ∀ a ∈ l₂, rec.start ≤ a.start) :
    ((l₁ ++ l₂).takeWhile fun r => r.start < rec.start).length = l₁.length := by
  have hl₂ : l₂.takeWhile (fun r => r.start < rec.start) = [] := by
    cases l₂ with
    | nil => rfl
    | cons y c =>
        have := h₂ y List.mem_cons_self
        exact List.takeWhile_cons_of_neg (by simpa using this)
  rw [List.takeWhile_append_of_pos (by simpa using h₁), hl₂, List.append_nil]

lemma insertIdx_length_append {α : Type*} {a : α} : ∀ {l r : List α},
    (l ++ r).insertIdx l.length a = l ++ a :: r
  | [], r => by simp
  | b :: l, r => by
      rw [List.cons_append, List.length_cons, List.insertIdx_succ_cons, insertIdx_length_append,
        List.cons_append]

/-- The left neighbour: none that touches, or the last record before. -/
lemma left_neighbour (l₂ : List RmapRec) (hr : RmapRuns l₁) (hw : Within (2 ^ 32 - 1) l₁)
    (h₁ : ∀ a ∈ l₁, past a ≤ rec.start) :
    ∃ left, keepIf (if l₁.length = 0 then none else (l₁ ++ l₂)[l₁.length - 1]?)
        (·.contiguous rec) = .ok left ∧
      ((left = none ∧ ∀ a ∈ l₁, Apart (fun a b => a.owner = b.owner) a rec) ∨
        ∃ a x, left = some x ∧ l₁ = a ++ [x] ∧ x.Touches rec ∧
          ∀ r ∈ a, Apart (fun a b => a.owner = b.owner) r x) := by
  rcases List.eq_nil_or_concat l₁ with rfl | ⟨a, x, rfl⟩
  · exact ⟨none, rfl, .inl ⟨rfl, by simp⟩⟩
  · have hx : x.start + x.count ≤ 2 ^ 32 - 1 := hw x (by simp)
    have hget : (a.concat x ++ l₂)[(a.concat x).length - 1]? = some x := by simp
    rw [hget, if_neg (by simp), keepIf_left (by omega)]
    rw [List.concat_eq_append] at hr h₁ ⊢
    by_cases ht : x.Touches rec
    · exact ⟨some x, by rw [if_pos ht],
        .inr ⟨a, x, rfl, rfl, ht, fun r hra => (runs_append.mp hr).2.2 r hra x (by simp)⟩⟩
    · exact ⟨none, by rw [if_neg ht], .inl ⟨rfl, apart_left hr h₁ ht⟩⟩

/-- The right neighbour: none that touches, or the first record after. -/
lemma right_neighbour (l₁ : List RmapRec) (hr : RmapRuns l₂) (hrecn : rec.start + rec.count < 2 ^ 32)
    (h₂ : ∀ a ∈ l₂, past rec ≤ a.start) :
    ∃ right, keepIf (l₁ ++ l₂)[l₁.length]? rec.contiguous = .ok right ∧
      ((right = none ∧ ∀ a ∈ l₂, Apart (fun a b => a.owner = b.owner) rec a) ∨
        ∃ y c, right = some y ∧ l₂ = y :: c ∧ rec.Touches y ∧
          ∀ r ∈ c, Apart (fun a b => a.owner = b.owner) y r) := by
  rcases l₂ with - | ⟨y, c⟩
  · exact ⟨none, by simp [keepIf_none], .inl ⟨rfl, by simp⟩⟩
  · have hget : (l₁ ++ y :: c)[l₁.length]? = some y := by simp
    rw [hget, keepIf_right hrecn]
    by_cases ht : rec.Touches y
    · exact ⟨some y, by rw [if_pos ht], .inr ⟨y, c, rfl, rfl, ht, (runs_cons.mp hr).2.1⟩⟩
    · exact ⟨none, by rw [if_neg ht], .inl ⟨rfl, apart_right hr h₂ ht⟩⟩

/-- Nothing touches the record: it stands alone. -/
lemma merged_alone (hrec : 0 < rec.count)
    (h₁ : ∀ a ∈ l₁, Apart (fun a b => a.owner = b.owner) a rec)
    (h₂ : ∀ b ∈ l₂, Apart (fun a b => a.owner = b.owner) rec b) : Merged rec l₁ [] l₂ rec := by
  refine ⟨rfl, by simp, ?_, fun b => ?_, h₁, h₂⟩
  · simp only [RmapRec.first_eq, RmapRec.past_eq]
    omega
  · rw [cover, tally_nil, Nat.zero_add]

/-- The record is put before the record it touches. -/
lemma merged_right {y : RmapRec} (hrec : 0 < rec.count) (ht : rec.Touches y)
    (h₁ : ∀ a ∈ l₁, Apart (fun a b => a.owner = b.owner) a rec)
    (h₂ : ∀ b ∈ l₂, Apart (fun a b => a.owner = b.owner) y b) :
    Merged rec l₁ [y] l₂ { y with start := rec.start, count := y.count + rec.count } := by
  obtain ⟨hyo, hye⟩ := ht
  refine ⟨hyo.symm, by simpa using hyo.symm, ?_, fun b => ?_, fun a ha => ?_, fun b hb => ?_⟩
  · simp only [RmapRec.first_eq, RmapRec.past_eq]
    omega
  · simp only [cover, tally_cons, tally_nil, RmapRec.first_eq, RmapRec.past_eq, true_and]
    split_ifs <;> omega
  · obtain ⟨hend, hne⟩ := h₁ a ha
    exact ⟨hend, fun ho => hne (ho.trans hyo.symm)⟩
  · obtain ⟨hstart, hne⟩ := h₂ b hb
    simp only [Apart, RmapRec.first_eq, RmapRec.past_eq] at hstart hne ⊢
    exact ⟨by omega, fun ho => by have := hne ho; omega⟩

/-- The record is put after the record it touches. -/
lemma merged_left {x : RmapRec} (hrec : 0 < rec.count) (ht : x.Touches rec)
    (h₁ : ∀ a ∈ l₁, Apart (fun a b => a.owner = b.owner) a x)
    (h₂ : ∀ b ∈ l₂, Apart (fun a b => a.owner = b.owner) rec b) :
    Merged rec l₁ [x] l₂ { x with count := x.count + rec.count } := by
  obtain ⟨hxo, hxe⟩ := ht
  refine ⟨hxo, by simpa using hxo, ?_, fun b => ?_, h₁, fun b hb => ?_⟩
  · simp only [RmapRec.first_eq, RmapRec.past_eq]
    omega
  · simp only [cover, tally_cons, tally_nil, RmapRec.first_eq, RmapRec.past_eq, true_and]
    split_ifs <;> omega
  · obtain ⟨hstart, hne⟩ := h₂ b hb
    simp only [Apart, RmapRec.first_eq, RmapRec.past_eq] at hstart hne ⊢
    exact ⟨by omega, fun ho => by have := hne (hxo.symm.trans ho); omega⟩

/-- The record closes the gap between the two records it touches. -/
lemma merged_both {x y : RmapRec} (hrec : 0 < rec.count) (hx : x.Touches rec) (hy : rec.Touches y)
    (h₁ : ∀ a ∈ l₁, Apart (fun a b => a.owner = b.owner) a x)
    (h₂ : ∀ b ∈ l₂, Apart (fun a b => a.owner = b.owner) y b) :
    Merged rec l₁ [x, y] l₂ { x with count := x.count + (rec.count + y.count) } := by
  obtain ⟨hxo, hxe⟩ := hx
  obtain ⟨hyo, hye⟩ := hy
  refine ⟨hxo, by simpa using ⟨hxo, hyo.symm⟩, ?_, fun b => ?_, h₁, fun b hb => ?_⟩
  · simp only [RmapRec.first_eq, RmapRec.past_eq]
    omega
  · simp only [cover, tally_cons, tally_nil, RmapRec.first_eq, RmapRec.past_eq, true_and]
    split_ifs <;> omega
  · obtain ⟨hstart, hne⟩ := h₂ b hb
    simp only [Apart, RmapRec.first_eq, RmapRec.past_eq] at hstart hne ⊢
    exact ⟨by omega, fun ho => by have := hne (hyo.symm.trans (hxo.symm.trans ho)); omega⟩

/-- The position of `rec` between the records that end before it and those that start after. -/
lemma takeWhile_between (hr : RmapRuns (l₁ ++ l₂)) (h₁ : ∀ a ∈ l₁, past a ≤ rec.start)
    (h₂ : ∀ a ∈ l₂, past rec ≤ a.start) :
    ((l₁ ++ l₂).takeWhile fun r => r.start < rec.start).length = l₁.length := by
  refine takeWhile_length (fun a ha => ?_) fun a ha => ?_
  · have hne := hr.nonempty a (List.mem_append_left l₂ ha)
    have hend := h₁ a ha
    rw [RmapRec.first_eq, RmapRec.past_eq] at hne
    rw [RmapRec.past_eq] at hend
    omega
  · have hst := h₂ a ha
    rw [RmapRec.past_eq] at hst
    omega

/-- The last record before the position is replaced. -/
lemma set_last (a : List RmapRec) (x z : RmapRec) (l₂ : List RmapRec) :
    ((a ++ [x]) ++ l₂).set ((a ++ [x]).length - 1) z = a ++ z :: l₂ := by
  have hlen : (a ++ [x]).length - 1 = a.length := by simp
  rw [hlen, List.append_assoc, List.set_append_right _ _ (le_refl _), Nat.sub_self]
  rfl

/-- **Between the records before it and those after it, a record is inserted and merged with
the neighbours it touches.** -/
lemma rmapInsert_merged (hr : RmapRuns (l₁ ++ l₂)) (hw : Within (2 ^ 32 - 1) (l₁ ++ l₂))
    (hrec : 0 < rec.count) (hrecn : rec.start + rec.count < 2 ^ 32)
    (h₁ : ∀ a ∈ l₁, past a ≤ rec.start) (h₂ : ∀ a ∈ l₂, past rec ≤ a.start) :
    ∃ l m r z, l₁ ++ l₂ = l ++ (m ++ r) ∧ rmapInsert (l₁ ++ l₂) rec = .ok (l ++ ([z] ++ r)) ∧
      Merged rec l m r z := by
  obtain ⟨hr₁, hr₂, -⟩ := runs_append.mp hr
  have hwl : Within (2 ^ 32 - 1) l₁ := fun a ha => hw a (List.mem_append_left l₂ ha)
  have hwr : Within (2 ^ 32 - 1) l₂ := fun a ha => hw a (List.mem_append_right l₁ ha)
  obtain ⟨left, hleft, hl⟩ := left_neighbour l₂ hr₁ hwl h₁
  obtain ⟨right, hright, hri⟩ := right_neighbour l₁ hr₂ hrecn h₂
  simp only [rmapInsert, takeWhile_between hr h₁ h₂, hleft, hright, ok_bind]
  rcases hl with ⟨rfl, hl⟩ | ⟨a, x, rfl, rfl, hx, hax⟩
  · rcases hri with ⟨rfl, hri⟩ | ⟨y, c, rfl, rfl, hy, hyc⟩
    · refine ⟨l₁, [], l₂, rec, rfl, ?_, merged_alone hrec hl hri⟩
      rw [pure_eq_ok, insertIdx_length_append]
      rfl
    · have hend := hwr y List.mem_cons_self
      have htouch := hy.2
      rw [RmapRec.past_eq] at hend
      refine ⟨l₁, [y], c, _, rfl, ?_, merged_right hrec hy hl hyc⟩
      dsimp only
      rw [fit_of_lt (by omega), ok_bind, pure_eq_ok, List.set_append_right _ _ (le_refl _),
        Nat.sub_self, List.set_cons_zero]
      rfl
  · have hend := hwl x (by simp)
    have htouch := hx.2
    rw [RmapRec.past_eq] at hend
    rcases hri with ⟨rfl, hri⟩ | ⟨y, c, rfl, rfl, hy, hyc⟩
    · refine ⟨a, [x], l₂, _, by simp, ?_, merged_left hrec hx hax hri⟩
      dsimp only
      rw [fit_of_lt (by omega), ok_bind, pure_eq_ok, set_last]
      rfl
    · have hend' := hwr y List.mem_cons_self
      have htouch' := hy.2
      rw [RmapRec.past_eq] at hend'
      refine ⟨a, [x, y], c, _, by simp, ?_, merged_both hrec hx hy hax hyc⟩
      dsimp only
      rw [fit_of_lt (by omega), ok_bind, fit_of_lt (by omega), ok_bind, pure_eq_ok, set_last,
        List.length_append, List.length_singleton,
        List.eraseIdx_append_of_length_le (by omega), Nat.add_sub_cancel_left]
      rfl

/-- The merged record ends where one of the records merged into it does. -/
lemma Merged.past_le {l m r : List RmapRec} {z : RmapRec} {n : ℕ} (h : Merged rec l m r z)
    (hm : Within n m) (hrecn : rec.start + rec.count ≤ n) : z.start + z.count ≤ n := by
  have hne := h.nonempty
  rw [RmapRec.first_eq, RmapRec.past_eq] at hne
  -- the last block of the merged record belongs to one of them
  have hlast := h.holds (z.start + z.count - 1)
  rw [if_pos (by omega)] at hlast
  by_cases hrec : rec.start ≤ z.start + z.count - 1 ∧ z.start + z.count - 1 < rec.start + rec.count
  · omega
  · rw [if_neg hrec, Nat.add_zero] at hlast
    obtain ⟨e, he, -, hb⟩ := exists_holds_of_cover (l := m) (b := z.start + z.count - 1) (by omega)
    have := hm e he
    omega

/-- The records merged all have the owner of the inserted one. -/
lemma Merged.tally_eq {l m r : List RmapRec} {z : RmapRec} (h : Merged rec l m r z)
    (p : ℕ → Bool) (b : ℕ) : tally (fun a : RmapRec => p a.owner) [z] b
      = tally (fun a : RmapRec => p a.owner) m b
        + if p rec.owner ∧ rec.start ≤ b ∧ b < rec.start + rec.count then 1 else 0 := by
  have hz := h.holds b
  rw [tally_cons, tally_nil, h.owner, RmapRec.first_eq, RmapRec.past_eq]
  have hm : tally (fun a : RmapRec => p a.owner) m b
      = if p rec.owner then cover m b else 0 := by
    by_cases hp : p rec.owner
    · rw [if_pos hp, tally, cover, tally]
      refine List.countP_congr fun a ha => ?_
      rw [h.owners a ha, hp]
    · rw [if_neg hp, tally_eq_zero]
      intro a ha hpa
      rw [h.owners a ha] at hpa
      exact absurd hpa hp
  rw [hm]
  by_cases hp : p rec.owner
  · simp only [hp, true_and, if_true]
    omega
  · simp only [hp, false_and, if_false, Bool.false_eq_true]

/-- **A record disjoint from those there is inserted**: the records stay in order and merged,
within their bound, and exactly the blocks of the record are added to its owner's. -/
theorem rmapInsert_spec {rmap : List RmapRec} {n : ℕ} (hr : RmapRuns rmap) (hn : n < 2 ^ 32)
    (hw : Within n rmap) (hrec : 0 < rec.count) (hrecn : rec.start + rec.count ≤ n)
    (hfree : ∀ b, Holds rec b → cover rmap b = 0) :
    ∃ rmap', rmapInsert rmap rec = .ok rmap' ∧ RmapRuns rmap' ∧ Within n rmap' ∧
      ∀ (p : ℕ → Bool) (b : ℕ), tally (fun a : RmapRec => p a.owner) rmap' b
        = tally (fun a : RmapRec => p a.owner) rmap b
          + if p rec.owner ∧ rec.start ≤ b ∧ b < rec.start + rec.count then 1 else 0 := by
  have hsplit := List.takeWhile_append_dropWhile (p := fun r => r.start < rec.start) (l := rmap)
  have hdisj := disjoint_of_cover_eq_zero (r := rec)
    (by rw [RmapRec.first_eq, RmapRec.past_eq]; omega) hr.nonempty hfree
  have h₁ : ∀ a ∈ rmap.takeWhile fun r => r.start < rec.start, past a ≤ rec.start := by
    intro a ha
    have hlt : a.start < rec.start := by simpa using List.mem_takeWhile_imp ha
    rcases hdisj a ((List.takeWhile_prefix _).subset ha) with h | h
    · exact h
    · rw [RmapRec.past_eq, RmapRec.first_eq] at h
      omega
  have hge : ∀ a ∈ rmap.dropWhile fun r => r.start < rec.start, rec.start ≤ a.start := by
    have hrd : RmapRuns (rmap.dropWhile fun r => r.start < rec.start) := by
      rw [← hsplit] at hr
      exact (runs_append.mp hr).2.1
    cases hd : rmap.dropWhile fun r => r.start < rec.start with
    | nil => simp
    | cons y c =>
        have hy : ¬ y.start < rec.start := by
          have hhead := List.head?_dropWhile_not (fun r : RmapRec => r.start < rec.start) rmap
          rw [hd] at hhead
          simpa using hhead
        rw [hd] at hrd
        intro a ha
        rcases List.mem_cons.mp ha with rfl | ha
        · omega
        · have := ((runs_cons.mp hrd).2.1 a ha).1
          rw [RmapRec.past_eq, RmapRec.first_eq] at this
          omega
  have h₂ : ∀ a ∈ rmap.dropWhile fun r => r.start < rec.start, past rec ≤ a.start := by
    intro a ha
    have hst := hge a ha
    have hne := hr.nonempty a ((List.dropWhile_suffix _).subset ha)
    rcases hdisj a ((List.dropWhile_suffix _).subset ha) with h | h
    · rw [RmapRec.first_eq] at h
      rw [RmapRec.first_eq] at hne
      omega
    · exact h
  have hmerged := rmapInsert_merged (by rw [hsplit]; exact hr)
    (by rw [hsplit]; exact fun a ha => (hw a ha).trans (by omega)) hrec (by omega) h₁ h₂
  rw [hsplit] at hmerged
  obtain ⟨l, m, r, z, hlmr, hins, hz⟩ := hmerged
  rw [hlmr] at hr hw
  have hwm : Within n m := fun a ha => hw a (by simp [ha])
  refine ⟨_, hins, ?_, ?_, fun p b => ?_⟩
  · exact Runs.replace hr (runs_singleton.mpr hz.nonempty)
      (fun a ha _ c hc => by rw [List.mem_singleton] at hc; subst hc; exact hz.left a ha)
      (fun a ha _ c hc => by rw [List.mem_singleton] at hc; subst hc; exact hz.right a ha)
  · intro a ha
    rcases List.mem_append.mp ha with ha | ha
    · exact hw a (by simp [ha])
    · rcases List.mem_append.mp ha with ha | ha
      · rw [List.mem_singleton] at ha
        subst ha
        exact hz.past_le hwm hrecn
      · exact hw a (by simp [ha])
  · rw [hlmr]
    simp only [tally_append]
    rw [hz.tally_eq p b]
    omega

end Insert

end MkfsXfs
