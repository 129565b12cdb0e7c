import MkfsXfs.Format.FreeSpace

/-!
`take` and `rmap_insert` on the lists they change (`src/format.rs`).

* `takeMut`: `take` step by step, with the list it leaves when it fails; `takeMut_eq` connects it
  to `take`.
* `takeMut_exact`: it is set subtraction.
* `ownerAt`: the owner of a block.
* `rmapInsert_exact`: an insertion sets the owner of the record's blocks, and the records stay in
  order and merged.
-/

namespace MkfsXfs

open Checked Extents Extents.Extent

/-! ### Taking blocks, step by step -/

/-- `iter().position`: the first extent that holds `[start, start + len)`; the end is summed up
for the extents that do not start after it. -/
def position (start len : ℕ) : List AllocRec → Exec (Option ℕ)
  | [] => .ok none
  | r :: free =>
      if r.start ≤ start then do
        let past ← fit 64 (start + len)
        if past ≤ r.start + r.count then return some 0
        else do
          let i ← position start len free
          return i.map (· + 1)
      else do
        let i ← position start len free
        return i.map (· + 1)

/-- `take`: its result, and the list it leaves. -/
def takeMut (free : List AllocRec) (start len : ℕ) :
    Except (Fault Error) Unit × List AllocRec :=
  match position start len free with
  | .error e => (.error e, free)
  | .ok none => (.error (.error (.invalidParams s!"blocks {start}+{len} are not free")), free)
  | .ok (some i) =>
      match free[i]? with
      | none => (.error .panic, free)
      | some r =>
          let rs := r.start
          let re := r.start + r.count
          let free := free.eraseIdx i
          let (free, pos) :=
            if start > rs then (free.insertIdx i ⟨toU32 rs, toU32 (start - rs)⟩, i + 1)
            else (free, i)
          if start + len < re then
            (.ok (), free.insertIdx pos ⟨toU32 (start + len), toU32 (re - start - len)⟩)
          else (.ok (), free)

section Take

variable {free : List AllocRec} {start len b : ℕ}

/-- An extent holds all the blocks to be taken. -/
def AllocRec.HoldsRange (r : AllocRec) (start len : ℕ) : Prop :=
  r.start ≤ start ∧ start + len ≤ r.start + r.count

instance (r : AllocRec) : Decidable (r.HoldsRange start len) :=
  inferInstanceAs (Decidable (_ ∧ _))

/-- Where the end of the blocks is a 64-bit number, the position is the one `take` finds. -/
lemma position_eq (h : start + len < 2 ^ 64) : position start len free =
    .ok (free.findIdx? fun r => r.start ≤ start ∧ start + len ≤ r.start + r.count) := by
  induction free with
  | nil => rfl
  | cons r free ih =>
      rw [position, ih, fit_of_lt h, List.findIdx?_cons]
      by_cases hs : r.start ≤ start
      · rw [if_pos hs, ok_bind]
        by_cases he : start + len ≤ r.start + r.count
        · rw [if_pos he, if_pos (decide_eq_true ⟨hs, he⟩)]
          rfl
        · rw [if_neg he, if_neg (by simp [he])]
          rfl
      · rw [if_neg hs, if_neg (by simp [hs])]
        rfl

/-- Where it is not, no position is found. -/
lemma position_ne_some (h : 2 ^ 64 ≤ start + len) {i : ℕ} :
    position start len free ≠ .ok (some i) := by
  induction free generalizing i with
  | nil => exact fun h => (by cases h)
  | cons r free ih =>
      have hrest : (position start len free >>= fun i => pure (i.map (· + 1))) ≠ .ok (some i) := by
        intro hpos
        obtain ⟨j, hj, hmap⟩ := bind_eq_ok.mp hpos
        cases j with
        | none => cases hmap
        | some j => exact ih hj
      rw [position]
      split_ifs
      · rw [fit, if_neg (by omega)]
        exact fun h => (by cases h)
      · exact hrest

/-- An insertion into a list cut in two. -/
lemma insertIdx_eq {α : Type*} {l : List α} {i : ℕ} {a : α} (h : i ≤ l.length) :
    l.insertIdx i a = l.take i ++ a :: l.drop i := by
  have hcut : (l.take i ++ l.drop i).insertIdx (l.take i).length a = l.take i ++ a :: l.drop i :=
    insertIdx_length_append
  rwa [List.take_append_drop, List.length_take, min_eq_left h] at hcut

/-- **Step by step `take` leaves the list it returns**, and the old one when it fails. -/
lemma takeMut_eq (h : start + len < 2 ^ 64) : takeMut free start len =
    match take free start len with
    | .ok free' => (.ok (), free')
    | .error e => (.error e, free) := by
  rw [takeMut, position_eq h, take]
  cases hidx : free.findIdx? (fun r => r.start ≤ start ∧ start + len ≤ r.start + r.count) with
  | none => rfl
  | some i =>
      obtain ⟨hi, -, -⟩ := List.findIdx?_eq_some_iff_getElem.mp hidx
      have hlen : i ≤ (free.eraseIdx i).length := by
        rw [List.length_eraseIdx_of_lt hi]
        omega
      dsimp only
      rw [List.getElem?_eq_getElem hi]
      dsimp only
      generalize free[i] = r
      generalize free.eraseIdx i = rest at hlen ⊢
      split_ifs
      · -- Both ends are left: the second goes in behind the first.
        generalize (⟨toU32 r.start, toU32 (start - r.start)⟩ : AllocRec) = x
        have hx : (rest.take i ++ [x]).length = i + 1 := by
          rw [List.length_append, List.length_take, min_eq_left hlen, List.length_singleton]
        rw [insertIdx_eq hlen, List.append_cons, ← hx, insertIdx_length_append]
        simp
      · rw [insertIdx_eq hlen]
        simp
      · rw [insertIdx_eq hlen]
        simp
      · simp

/-- The blocks a list of extents covers. -/
def Covers {E : Type*} [Extent E] (l : List E) (b : ℕ) : Prop := ∃ e ∈ l, Holds e b

lemma covers_iff {E : Type*} [Extent E] {l : List E} : Covers l b ↔ cover l b ≠ 0 := by
  refine ⟨?_, exists_holds_of_cover⟩
  rintro ⟨e, he, hb⟩ hzero
  exact tally_eq_zero.mp hzero e he rfl hb

/-- In order, no block is covered twice. -/
lemma cover_le_one {E : Type*} [Extent E] {same : E → E → Prop} {l : List E} (h : Runs same l) :
    cover l b ≤ 1 := by
  induction l with
  | nil => exact Nat.zero_le 1
  | cons e l ih =>
      obtain ⟨-, hapart, hl⟩ := runs_cons.mp h
      have hrest := ih hl
      rw [cover] at hrest ⊢
      rw [tally_cons]
      split_ifs with hb
      · have hzero : tally (fun _ => true) l b = 0 := tally_eq_zero.mpr fun a ha _ hab => by
          have := (hapart a ha).1
          omega
        omega
      · omega

/-- **`take` is set subtraction**: it succeeds exactly when one extent holds all the blocks, and
then the extents stay in order and cover the others; when it fails they are as they were. -/
theorem takeMut_exact (hr : FreeRuns False free) (hw : Within (2 ^ 32 - 1) free) (hlen : 1 ≤ len) :
    ((takeMut free start len).1 = .ok () ↔ ∃ r ∈ free, r.HoldsRange start len) ∧
    ((takeMut free start len).1 = .ok () → FreeRuns False (takeMut free start len).2 ∧
      Within (2 ^ 32 - 1) (takeMut free start len).2 ∧
      ∀ b, Covers (takeMut free start len).2 b ↔
        Covers free b ∧ ¬ (start ≤ b ∧ b < start + len)) ∧
    ((takeMut free start len).1 ≠ .ok () → (takeMut free start len).2 = free) := by
  rcases Nat.lt_or_ge (start + len) (2 ^ 64) with hend | hover
  · rw [takeMut_eq hend]
    cases htake : take free start len with
    | ok free' =>
        have hexists : ∃ r ∈ free, r.HoldsRange start len := by
          obtain ⟨l₁, r, l₂, rfl, hs, he, -⟩ := (take_eq_ok hw).mp htake
          exact ⟨r, by simp, hs, he⟩
        refine ⟨⟨fun _ => hexists, fun _ => rfl⟩, fun _ => ⟨take_runs hw hr hlen htake,
          take_within (by norm_num) hw htake, fun b => ?_⟩, fun h => absurd rfl h⟩
        have hcover := take_cover hw htake b
        have hone : cover free b ≤ 1 := cover_le_one hr
        dsimp only
        rw [covers_iff, covers_iff]
        split_ifs at hcover <;> omega
    | error e =>
        refine ⟨⟨fun h => (by cases h), ?_⟩, fun h => (by cases h), fun _ => rfl⟩
        rintro ⟨r, hmem, hs, he⟩
        obtain ⟨free', hok⟩ := take_isOk hmem hs he
        rw [htake] at hok
        cases hok
  · -- No extent ends past the last 64-bit number.
    have hno : ¬ ∃ r ∈ free, r.HoldsRange start len := by
      rintro ⟨r, hmem, -, he⟩
      have hpast := hw r hmem
      rw [AllocRec.past_eq] at hpast
      omega
    have hfail : (takeMut free start len).1 ≠ .ok () ∧ (takeMut free start len).2 = free := by
      rw [takeMut]
      cases hpos : position start len free with
      | error e => exact ⟨fun h => (by cases h), rfl⟩
      | ok i =>
          cases i with
          | none => exact ⟨fun h => (by cases h), rfl⟩
          | some i => exact absurd hpos (position_ne_some hover)
    exact ⟨⟨fun h => absurd h hfail.1, fun h => absurd h hno⟩, fun h => absurd h hfail.1,
      fun _ => hfail.2⟩

/-- Two blocks out of the middle of an extent. -/
theorem takeMut_exact_middle :
    ((takeMut [⟨5, 3⟩, ⟨10, 10⟩] 12 2).1 = .ok () ↔
      ∃ r ∈ ([⟨5, 3⟩, ⟨10, 10⟩] : List AllocRec), r.HoldsRange 12 2) ∧
    ((takeMut [⟨5, 3⟩, ⟨10, 10⟩] 12 2).1 = .ok () →
      FreeRuns False (takeMut [⟨5, 3⟩, ⟨10, 10⟩] 12 2).2 ∧
      Within (2 ^ 32 - 1) (takeMut [⟨5, 3⟩, ⟨10, 10⟩] 12 2).2 ∧
      ∀ b, Covers (takeMut [⟨5, 3⟩, ⟨10, 10⟩] 12 2).2 b ↔
        Covers ([⟨5, 3⟩, ⟨10, 10⟩] : List AllocRec) b ∧ ¬ (12 ≤ b ∧ b < 12 + 2)) ∧
    ((takeMut [⟨5, 3⟩, ⟨10, 10⟩] 12 2).1 ≠ .ok () →
      (takeMut [⟨5, 3⟩, ⟨10, 10⟩] 12 2).2 = [⟨5, 3⟩, ⟨10, 10⟩]) := by
  refine takeMut_exact ?_ ?_ (by norm_num)
  · simp [runs_cons, Apart, AllocRec.first_eq, AllocRec.past_eq]
  · simp [Within, AllocRec.past_eq]

example : takeMut [⟨5, 3⟩, ⟨10, 10⟩] 12 2 = (.ok (), [⟨5, 3⟩, ⟨10, 2⟩, ⟨14, 6⟩]) := by decide

end Take

/-! ### The owner of a block -/

/-- The owner of the first record that holds the block. -/
def ownerAt (rmap : List RmapRec) (b : ℕ) : Option ℕ :=
  (rmap.find? fun r => r.start ≤ b ∧ b < r.start + r.count).map (·.owner)

section Owner

variable {rmap : List RmapRec} {rec : RmapRec} {b o : ℕ}

/-- In order, the owner of a block is that of every record that holds it. -/
lemma ownerAt_eq_some (h : RmapRuns rmap) :
    ownerAt rmap b = some o ↔ tally (fun r : RmapRec => decide (r.owner = o)) rmap b ≠ 0 := by
  induction rmap with
  | nil => simp [ownerAt]
  | cons r rmap ih =>
      obtain ⟨-, hapart, hrest⟩ := runs_cons.mp h
      rw [tally_cons, ownerAt, List.find?_cons]
      by_cases hb : r.start ≤ b ∧ b < r.start + r.count
      · -- The records after it start behind the block.
        have hzero : tally (fun r : RmapRec => decide (r.owner = o)) rmap b = 0 :=
          tally_eq_zero.mpr fun a ha _ hab => by
            have hfirst := (hapart a ha).1
            rw [RmapRec.past_eq] at hfirst
            omega
        have hfirst : first r ≤ b ∧ b < past r := hb
        rw [decide_eq_true hb, hzero]
        by_cases ho : r.owner = o <;> simp [ho, hfirst]
      · have hmiss : ¬ (decide (r.owner = o) = true ∧ first r ≤ b ∧ b < past r) :=
          fun hand => hb hand.2
        rw [decide_eq_false hb, if_neg hmiss, Nat.add_zero, ← ih hrest]
        rfl

/-- **An insertion sets the owner of the record's blocks**, and the records stay in order and
merged. -/
theorem rmapInsert_exact (hr : RmapRuns rmap) (hw : Within (2 ^ 32 - 1) rmap) (hrec : 0 < rec.count)
    (hrecw : rec.start + rec.count ≤ 2 ^ 32 - 1)
    (hdisj : ∀ a ∈ rmap, past a ≤ rec.start ∨ rec.start + rec.count ≤ a.start) :
    ∃ rmap', rmapInsert rmap rec = .ok rmap' ∧ RmapRuns rmap' ∧ Within (2 ^ 32 - 1) rmap' ∧
      ∀ b, ownerAt rmap' b =
        if rec.start ≤ b ∧ b < rec.start + rec.count then some rec.owner else ownerAt rmap b := by
  have hfree : ∀ b, Holds rec b → cover rmap b = 0 := fun b hb =>
    tally_eq_zero.mpr fun a ha _ hab => by
      have hsplit := hdisj a ha
      rw [RmapRec.past_eq] at hsplit
      have hin : rec.start ≤ b ∧ b < rec.start + rec.count := hb
      have hab' : a.start ≤ b ∧ b < a.start + a.count := hab
      omega
  obtain ⟨rmap', hins, hruns, hwithin, htally⟩ :=
    rmapInsert_spec hr (by norm_num) hw hrec hrecw hfree
  refine ⟨rmap', hins, hruns, hwithin, fun b => Option.ext fun o => ?_⟩
  have hadd := htally (fun p => decide (p = o)) b
  rw [ownerAt_eq_some hruns, hadd]
  by_cases hb : rec.start ≤ b ∧ b < rec.start + rec.count
  · have hzero : tally (fun r : RmapRec => decide (r.owner = o)) rmap b = 0 := by
      have hle : tally (fun r : RmapRec => decide (r.owner = o)) rmap b ≤ cover rmap b :=
        tally_le_cover
      rw [hfree b hb] at hle
      omega
    rw [hzero, if_pos hb, Option.some.injEq]
    by_cases ho : rec.owner = o <;> simp [ho, hb]
  · have hmiss : ¬ (decide (rec.owner = o) = true ∧ rec.start ≤ b ∧ b < rec.start + rec.count) :=
      fun hand => hb hand.2
    rw [if_neg hb, if_neg hmiss, Nat.add_zero, ownerAt_eq_some hr]

/-- A record that closes the gap between two of its owner's. -/
theorem rmapInsert_exact_gap : ∃ rmap', rmapInsert [⟨1, 2, 5⟩, ⟨6, 2, 5⟩] ⟨3, 3, 5⟩ = .ok rmap' ∧
    RmapRuns rmap' ∧ Within (2 ^ 32 - 1) rmap' ∧ ∀ b, ownerAt rmap' b =
      if 3 ≤ b ∧ b < 3 + 3 then some 5 else ownerAt [⟨1, 2, 5⟩, ⟨6, 2, 5⟩] b := by
  have hexact := @rmapInsert_exact [⟨1, 2, 5⟩, ⟨6, 2, 5⟩] ⟨3, 3, 5⟩ ?_ ?_ (by norm_num)
    (by norm_num) ?_
  · exact hexact
  · simp [runs_cons, Apart, RmapRec.first_eq, RmapRec.past_eq]
  · simp [Within, RmapRec.past_eq]
  · simp [RmapRec.past_eq]

example : rmapInsert [⟨1, 2, 5⟩, ⟨6, 2, 5⟩] ⟨3, 3, 5⟩ = .ok [⟨1, 7, 5⟩] := by decide

end Owner

end MkfsXfs
