import Mathlib.Tactic

/-!
Lists of extents: runs of consecutive positions, in order.

* `Extent`: what an extent is, the positions from `first` up to `past`.
* `tally`, `cover`: how many extents of a list hold a position, all of them or those with a
  given property.  Two lists that cut up the same positions are compared through it.
* `Apart same`, `Runs same`: extents in order, nonempty, and with a gap between any two
  that are the `same`.  With nothing the same the extents are only disjoint, with
  everything the same they are maximal, and in between contiguous extents are merged
  exactly when they are the same.
-/

namespace Extents

/-- A type of extents. -/
class Extent (E : Type*) where
  first : E → ℕ
  /-- the position after the last -/
  past : E → ℕ

open Extent

variable {E : Type*} [Extent E]

/-- The extent holds the position. -/
abbrev Holds (e : E) (b : ℕ) : Prop := first e ≤ b ∧ b < past e

/-! ### How often a position is held -/

/-- How many extents with the property `p` hold the position. -/
def tally (p : E → Bool) (l : List E) (b : ℕ) : ℕ := l.countP fun e => p e && decide (Holds e b)

/-- How many extents hold the position. -/
def cover (l : List E) (b : ℕ) : ℕ := tally (fun _ => true) l b

variable {p : E → Bool} {l l₁ l₂ : List E} {e : E} {b : ℕ}

@[simp] lemma tally_nil : tally p ([] : List E) b = 0 := rfl

@[simp] lemma tally_cons :
    tally p (e :: l) b = tally p l b + if p e ∧ first e ≤ b ∧ b < past e then 1 else 0 := by
  simp [tally, List.countP_cons]

@[simp] lemma tally_append : tally p (l₁ ++ l₂) b = tally p l₁ b + tally p l₂ b :=
  List.countP_append

/-- A position that no extent with the property holds. -/
lemma tally_eq_zero : tally p l b = 0 ↔ ∀ e ∈ l, p e → ¬ Holds e b := by
  simp [tally, List.countP_eq_zero]

lemma tally_le_cover : tally p l b ≤ cover l b := by
  refine List.countP_mono_left fun e _ h => ?_
  simpa using (Bool.and_eq_true_iff.mp h).2

/-- The positions of an interval, counted. -/
lemma sum_interval {n s e : ℕ} (he : e ≤ n) :
    ∑ b ∈ Finset.range n, (if s ≤ b ∧ b < e then 1 else 0) = e - s := by
  have hset : {b ∈ Finset.range n | s ≤ b ∧ b < e} = Finset.Ico s e := by
    ext b
    simp only [Finset.mem_filter, Finset.mem_range, Finset.mem_Ico]
    omega
  rw [Finset.sum_boole, hset, Nat.card_Ico, Nat.cast_id]

/-- The positions held are as many as the extents are long. -/
lemma sum_cover {n : ℕ} (h : ∀ e ∈ l, past e ≤ n) :
    ∑ b ∈ Finset.range n, cover l b = (l.map fun e => past e - first e).sum := by
  induction l with
  | nil => simp [cover]
  | cons e l ih =>
      have hl := ih fun e' he' => h e' (List.mem_cons_of_mem e he')
      simp only [cover, tally_cons, true_and] at hl ⊢
      rw [Finset.sum_add_distrib, hl, sum_interval (h e List.mem_cons_self), List.map_cons,
        List.sum_cons, Nat.add_comm]

/-- A held position belongs to some extent. -/
lemma exists_holds_of_cover (h : cover l b ≠ 0) : ∃ e ∈ l, Holds e b := by
  by_contra hno
  push Not at hno
  exact h (tally_eq_zero.mpr fun e he _ => hno e he)

/-- An extent shares no position with a list that holds none of its positions. -/
lemma disjoint_of_cover_eq_zero {r : E} (hr : first r < past r) (hl : ∀ e ∈ l, first e < past e)
    (h : ∀ b, Holds r b → cover l b = 0) : ∀ e ∈ l, past e ≤ first r ∨ past r ≤ first e := by
  intro e he
  by_contra hover
  push Not at hover
  have hne := hl e he
  -- the later of the two first positions is held by both
  have hb : Holds r (max (first e) (first r)) := ⟨le_max_right _ _, by omega⟩
  exact tally_eq_zero.mp (h _ hb) e he rfl ⟨le_max_left _ _, by omega⟩

/-! ### Extents in order -/

/-- The first extent ends before the second starts, with a gap when they are the same. -/
def Apart (same : E → E → Prop) (a b : E) : Prop :=
  past a ≤ first b ∧ (same a b → past a < first b)

/-- Nonempty extents in order, with a gap between any two that are the same. -/
structure Runs (same : E → E → Prop) (l : List E) : Prop where
  nonempty : ∀ e ∈ l, first e < past e
  sorted : l.Pairwise (Apart same)

variable {same : E → E → Prop}

@[simp] lemma Runs.nil : Runs same ([] : List E) := ⟨by simp, List.Pairwise.nil⟩

lemma runs_cons : Runs same (e :: l) ↔
    first e < past e ∧ (∀ a ∈ l, Apart same e a) ∧ Runs same l := by
  constructor
  · rintro ⟨hne, hs⟩
    rw [List.pairwise_cons] at hs
    exact ⟨hne e List.mem_cons_self, hs.1,
      fun a ha => hne a (List.mem_cons_of_mem e ha), hs.2⟩
  · rintro ⟨he, hs, hr⟩
    refine ⟨?_, List.pairwise_cons.mpr ⟨hs, hr.sorted⟩⟩
    intro a ha
    rcases List.mem_cons.mp ha with rfl | ha
    · exact he
    · exact hr.nonempty a ha

lemma runs_singleton : Runs same [e] ↔ first e < past e := by simp [runs_cons]

lemma runs_append : Runs same (l₁ ++ l₂) ↔
    Runs same l₁ ∧ Runs same l₂ ∧ ∀ a ∈ l₁, ∀ b ∈ l₂, Apart same a b := by
  constructor
  · rintro ⟨hne, hs⟩
    rw [List.pairwise_append] at hs
    exact ⟨⟨fun a ha => hne a (List.mem_append_left l₂ ha), hs.1⟩,
      ⟨fun a ha => hne a (List.mem_append_right l₁ ha), hs.2.1⟩, hs.2.2⟩
  · rintro ⟨h1, h2, hs⟩
    refine ⟨?_, List.pairwise_append.mpr ⟨h1.sorted, h2.sorted, hs⟩⟩
    intro a ha
    rcases List.mem_append.mp ha with ha | ha
    · exact h1.nonempty a ha
    · exact h2.nonempty a ha

/-- Extents in order hold a position at most once. -/
lemma Runs.cover_le_one (h : Runs same l) (b : ℕ) : cover l b ≤ 1 := by
  induction l with
  | nil => simp [cover]
  | cons e l ih =>
      obtain ⟨-, hs, hr⟩ := runs_cons.mp h
      have ih := ih hr
      rw [cover, tally_cons]
      by_cases hb : Holds e b
      · have h0 : tally (fun _ => true) l b = 0 := by
          rw [tally_eq_zero]
          rintro a ha - ⟨hle, -⟩
          have := (hs a ha).1
          have := hb.2
          omega
        rw [h0]
        split_ifs <;> omega
      · rw [if_neg (by simpa using hb)]
        exact ih

/-- An extent of a list in order is the only one to hold its positions. -/
lemma Runs.eq_of_holds (h : Runs same l) {a c : E} (ha : a ∈ l) (hc : c ∈ l)
    (hab : Holds a b) (hcb : Holds c b) : a = c := by
  by_contra hne
  obtain ⟨l₁, l₂, rfl⟩ := List.append_of_mem ha
  obtain ⟨-, h2, h12⟩ := runs_append.mp h
  obtain ⟨-, ha2, -⟩ := runs_cons.mp h2
  rcases List.mem_append.mp hc with hc | hc
  · have := (h12 c hc a List.mem_cons_self).1
    have := hcb.2
    have := hab.1
    omega
  · rcases List.mem_cons.mp hc with rfl | hc
    · exact hne rfl
    · have := (ha2 c hc).1
      have := hcb.1
      have := hab.2
      omega

/-- A held position is counted once, for the extent that holds it. -/
lemma Runs.tally_eq_of_mem (h : Runs same l) (he : e ∈ l) (hb : Holds e b) :
    tally p l b = if p e then 1 else 0 := by
  by_cases hp : p e
  · have hpos : tally p l b ≠ 0 := fun h0 => tally_eq_zero.mp h0 e he hp hb
    have hle := (tally_le_cover (p := p)).trans (h.cover_le_one b)
    rw [if_pos hp]
    omega
  · rw [if_neg hp, tally_eq_zero]
    intro a ha hpa hab
    rw [h.eq_of_holds ha he hab hb] at hpa
    exact hp hpa

/-- Putting extents `m'` in the place of `m` keeps the order when they keep within it: every
extent of `m'` is apart from what was apart from `m`. -/
lemma Runs.replace {m m' : List E} (h : Runs same (l₁ ++ (m ++ l₂))) (hm : Runs same m')
    (hleft : ∀ a ∈ l₁, (∀ c ∈ m, Apart same a c) → ∀ c ∈ m', Apart same a c)
    (hright : ∀ a ∈ l₂, (∀ c ∈ m, Apart same c a) → ∀ c ∈ m', Apart same c a) :
    Runs same (l₁ ++ (m' ++ l₂)) := by
  obtain ⟨h1, h2, h12⟩ := runs_append.mp h
  obtain ⟨-, h3, h23⟩ := runs_append.mp h2
  refine runs_append.mpr ⟨h1, runs_append.mpr ⟨hm, h3, fun c hc a ha => ?_⟩, ?_⟩
  · exact hright a ha (fun c hc => h23 c hc a ha) c hc
  · intro a ha c hc
    rcases List.mem_append.mp hc with hc | hc
    · exact hleft a ha (fun c hc => h12 a ha c (List.mem_append_left _ hc)) c hc
    · exact h12 a ha c (List.mem_append_right _ hc)

end Extents
