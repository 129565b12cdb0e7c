import MkfsXfs.Log.Reader

/-!
The search for the head and the tail, on a log whose blocks are known.

* `eval_findCycleStart`: the binary search finds the one change of cycle.
* `CycleCut`: from block `h` on the log carries one cycle, before it another;
  `eval_cycleHead_of_cut` is what the cycles tell then.
* `RecordBefore`: the blocks that end at the head are one record, perhaps split round the
  end of the log; `eval_validateHead` accepts the head after it.
* `LogEnd`: a log that ends in a complete record, its cycles one apart at the head.
  `eval_findTail`: the search returns that head, and the tail and cycle the record tells.
-/

namespace MkfsXfs.Log

open Checked

variable {log : ℕ → Buf} {n h L : ℕ}

/-! ### Scans -/

@[simp] lemma eval_bb {i : ℕ} : (bb i).eval log = .ok (log i) := rfl

@[simp] lemma eval_cycle {i : ℕ} : (cycle i).eval log = .ok (cycleOf (log i)) := rfl

@[simp] lemma eval_isHeader {i : ℕ} :
    (isHeader i).eval log = .ok (decide (HeaderBlock (log i))) := rfl

/-- **The binary search finds the change of cycle.** -/
lemma eval_findCycleStart {first last c : ℕ} (hlo : first < h) (hhi : h ≤ last)
    (hcut : ∀ p, first < p → p < last → (cycleOf (log p) = c ↔ h ≤ p)) :
    (findCycleStart first last c).eval log = .ok h := by
  induction first, last using findCycleStart.induct with
  | case1 first last mid hmid ih₁ ih₂ =>
      have hbetween : first < mid ∧ mid < last := by omega
      have hmidcut := hcut mid hbetween.1 hbetween.2
      rw [findCycleStart, if_pos hmid, Prog.eval_bind, eval_cycle, ok_bind]
      by_cases hc : cycleOf (log mid) = c
      · rw [if_pos hc]
        exact ih₁ hlo (hmidcut.1 hc) fun p hl hr => hcut p hl (by omega)
      · rw [if_neg hc]
        refine ih₂ ?_ hhi fun p hl hr => hcut p (by omega) hr
        by_contra hle
        exact hc (hmidcut.2 (by omega))
  | case2 first last mid hmid =>
      rw [findCycleStart, if_neg hmid]
      have : last = h := by omega
      subst this
      rfl

/-- A scan for a cycle that no block has. -/
lemma eval_findVerifyCycle {start k stop : ℕ}
    (hne : ∀ p, start ≤ p → p < start + k → cycleOf (log p) ≠ stop) :
    (findVerifyCycle start k stop).eval log = .ok none := by
  induction k generalizing start with
  | zero => rfl
  | succ k ih =>
      rw [findVerifyCycle, Prog.eval_bind, eval_cycle, ok_bind,
        if_neg (hne start le_rfl (by omega))]
      exact ih fun p hl hr => hne p (by omega) (by omega)

/-- The header found going down, when no block above it is one. -/
lemma eval_previousHeader {start last i : ℕ} (hs : start ≤ i) (hi : i < last)
    (hh : HeaderBlock (log i)) (hrest : ∀ p, i < p → p < last → ¬ HeaderBlock (log p)) :
    (previousHeader start last).eval log = .ok (some i) := by
  induction last with
  | zero => omega
  | succ k ih =>
      rw [previousHeader, if_neg (by omega), Prog.eval_bind, eval_isHeader, ok_bind]
      rcases Nat.lt_or_ge i k with hlt | hge
      · rw [decide_eq_false (hrest k hlt (by omega))]
        exact ih hlt fun p hl hr => hrest p hl (by omega)
      · have : k = i := by omega
        rw [this, decide_eq_true hh]
        rfl

/-- No header is found down to block 0 when there is none. -/
lemma eval_previousHeader_none {last : ℕ} (hrest : ∀ p < last, ¬ HeaderBlock (log p)) :
    (previousHeader 0 last).eval log = .ok none := by
  induction last with
  | zero => rfl
  | succ k ih =>
      rw [previousHeader, if_neg (by omega), Prog.eval_bind, eval_isHeader, ok_bind,
        decide_eq_false (hrest k (by omega))]
      exact ih fun p hp => hrest p (by omega)

lemma eval_lastHeader {lo k i : ℕ} (hs : lo ≤ i) (hi : i < lo + k)
    (hh : HeaderBlock (log i)) (hrest : ∀ p, i < p → p < lo + k → ¬ HeaderBlock (log p)) :
    (lastHeader lo k).eval log = .ok (some i) := by
  induction k with
  | zero => omega
  | succ k ih =>
      rw [lastHeader, Prog.eval_bind, eval_isHeader, ok_bind]
      rcases Nat.lt_or_ge i (lo + k) with hlt | hge
      · rw [decide_eq_false (hrest (lo + k) hlt (by omega))]
        exact ih hlt fun p hl hr => hrest p hl (by omega)
      · have : lo + k = i := by omega
        rw [this, decide_eq_true hh]
        rfl

lemma eval_lastHeader_none {lo k : ℕ}
    (hrest : ∀ p, lo ≤ p → p < lo + k → ¬ HeaderBlock (log p)) :
    (lastHeader lo k).eval log = .ok none := by
  induction k with
  | zero => rfl
  | succ k ih =>
      rw [lastHeader, Prog.eval_bind, eval_isHeader, ok_bind,
        decide_eq_false (hrest (lo + k) (by omega) (by omega))]
      exact ih fun p hl hr => hrest p hl (by omega)

/-- The length of a record, as its header tells it. -/
def toldLength (b : Buf) : ℕ :=
  divCeil (be32 b Off.size) headerCycleSize + divCeil (be32 b Off.len) bbsize

/-- The blocks up to `last` are a whole record, or the head backs up to its header. -/
lemma eval_findVerifyLogRecord {start last extra i : ℕ} (hs : start ≤ i) (hi : i < last)
    (hh : HeaderBlock (log i)) (hrest : ∀ p, i < p → p < last → ¬ HeaderBlock (log p)) :
    (findVerifyLogRecord start last extra).eval log =
      .ok (some (if last - i + extra = toldLength (log i) then last else i)) := by
  rw [findVerifyLogRecord, Prog.eval_bind, eval_previousHeader hs hi hh hrest, ok_bind]
  dsimp only
  rw [Prog.eval_bind, eval_bb, ok_bind, toldLength,
    Nat.add_comm (divCeil (be32 (log i) Off.size) headerCycleSize)]
  split_ifs <;> first | rfl | contradiction

lemma eval_findVerifyLogRecord_none {last extra : ℕ}
    (hrest : ∀ p < last, ¬ HeaderBlock (log p)) :
    (findVerifyLogRecord 0 last extra).eval log = .ok none := by
  rw [findVerifyLogRecord, Prog.eval_bind, eval_previousHeader_none hrest, ok_bind]
  rfl

/-! ### What the cycles tell -/

/-- Of the `n` blocks, those from `h` on carry the cycle `c`, and those before another. -/
def CycleCut (log : ℕ → Buf) (n h c : ℕ) : Prop := ∀ p < n, (cycleOf (log p) = c ↔ h ≤ p)

lemma pred32_ne (c : ℕ) : pred32 c ≠ c := by
  rw [pred32]
  omega

/-- The head where the cycle changes. -/
lemma eval_cycleHead_of_cut {c : ℕ} (hn : totalRecBbs ≤ n) (h0 : 0 < h) (hh : h < n)
    (hcut : CycleCut log n h c) : (cycleHead n).eval log = .ok h := by
  have ht := totalRecBbs_eq
  have hlast : cycleOf (log (n - 1)) = c := (hcut (n - 1) (by omega)).2 (by omega)
  have hfirst : cycleOf (log 0) ≠ c := fun he => by
    have := (hcut 0 (by omega)).1 he
    omega
  have hbelow : ∀ p < h, cycleOf (log p) ≠ c := fun p hp he => by
    have := (hcut p (by omega)).1 he
    omega
  have hchange : (changeOfCycle n (cycleOf (log 0)) c).eval log = .ok (h, c) := by
    rw [changeOfCycle, if_neg hfirst, Prog.eval_bind,
      eval_findCycleStart h0 (by omega) fun p _ hp => hcut p (by omega)]
    rfl
  rw [cycleHead, Prog.eval_bind, eval_cycle, ok_bind, Prog.eval_bind, eval_cycle, ok_bind,
    hlast, Prog.eval_bind, hchange, ok_bind]
  dsimp only
  split_ifs with hbig
  · rw [Prog.eval_bind, eval_findVerifyCycle fun p _ hp => hbelow p (by omega)]
    rfl
  · have hupper : (findVerifyCycle (n - (totalRecBbs - h)) (totalRecBbs - h) (pred32 c)).eval log =
        .ok none := eval_findVerifyCycle fun p hl hr => by
      rw [(hcut p (by omega)).2 (by omega)]
      exact (pred32_ne c).symm
    rw [Prog.eval_bind, hupper, ok_bind]
    dsimp only
    rw [Prog.eval_bind, eval_findVerifyCycle fun p _ hp => hbelow p (by omega)]
    rfl

/-- A log with one cycle throughout has its head at the end. -/
lemma eval_cycleHead_whole {c : ℕ} (hn : totalRecBbs ≤ n)
    (hcut : ∀ p < n, cycleOf (log p) = c) : (cycleHead n).eval log = .ok n := by
  have ht := totalRecBbs_eq
  rw [cycleHead, Prog.eval_bind, eval_cycle, ok_bind, Prog.eval_bind, eval_cycle, ok_bind,
    hcut 0 (by omega), hcut (n - 1) (by omega), changeOfCycle, if_pos rfl, Prog.pure_eq,
    Prog.pure_bind']
  dsimp only
  rw [if_pos hn, Prog.eval_bind, eval_findVerifyCycle fun p _ hp => by
    rw [hcut p (by omega)]
    exact (pred32_ne c).symm]
  rfl

/-! ### The record before the head -/

/-- Where the record of `L` blocks that ends at the head `h` starts. -/
def recordStart (n h L : ℕ) : ℕ := if L ≤ h then h - L else h + n - L

/-- The `L` blocks that end at the head `h`, counted back round the end of the log, are one
record: its header tells its length, and no other block of it is a header. -/
structure RecordBefore (log : ℕ → Buf) (n h L : ℕ) : Prop where
  two_le : 2 ≤ L
  le_recBbs : L ≤ recBbs
  header : HeaderBlock (log (recordStart n h L))
  told : toldLength (log (recordStart n h L)) = L
  rest_up : ∀ p, recordStart n h L < p → p < n → (L ≤ h → p < h) → ¬ HeaderBlock (log p)
  rest_down : h < L → ∀ p < h, ¬ HeaderBlock (log p)

lemma recordStart_wrapped (hle : h < L) : recordStart n h L = h + n - L := by
  rw [recordStart, if_neg (by omega)]

lemma recordStart_flat (hle : L ≤ h) : recordStart n h L = h - L := by
  rw [recordStart, if_pos hle]

/-- A head at the physical end is accepted after a whole record. -/
lemma eval_validateHead_end (hn : totalRecBbs ≤ n) (hr : RecordBefore log n 0 L) :
    (validateHead n n).eval log = .ok n := by
  have ht := totalRecBbs_eq
  have hb := recBbs_eq
  have hL := hr.le_recBbs
  have htwo := hr.two_le
  have hstart : recordStart n 0 L = n - L := by rw [recordStart_wrapped (by omega), Nat.zero_add]
  have htold := hr.told
  have hheader := hr.header
  rw [hstart] at hheader htold
  have hfind : (findVerifyLogRecord (n - recBbs) n 0).eval log = .ok (some n) := by
    rw [eval_findVerifyLogRecord (i := n - L) (by omega) (by omega) hheader
      fun p hl hp => hr.rest_up p (by omega) hp (by omega), htold, if_pos (by omega)]
  have hbig : recBbs ≤ n := by omega
  rw [validateHead, if_pos hbig, Prog.eval_bind, hfind]
  rfl

/-- A head inside the log is accepted after a whole record. -/
lemma eval_validateHead (hn : totalRecBbs ≤ n) (hpos : 0 < h) (hh : h < n)
    (hr : RecordBefore log n h L) : (validateHead n h).eval log = .ok h := by
  have ht := totalRecBbs_eq
  have hb := recBbs_eq
  have hL := hr.le_recBbs
  have htwo := hr.two_le
  have htold := hr.told
  have hheader := hr.header
  rcases Nat.lt_or_ge h L with hwrap | hflat
  · -- The record is split round the end: no header below the head, the rest at the end.
    have hstart : recordStart n h L = h + n - L := recordStart_wrapped hwrap
    rw [hstart] at hheader htold
    have hfind : (findVerifyLogRecord (n - (recBbs - h)) n h).eval log = .ok (some n) := by
      rw [eval_findVerifyLogRecord (i := h + n - L) (by omega) (by omega) hheader
        fun p hl hp => hr.rest_up p (by omega) hp (by omega), htold, if_pos (by omega)]
    have hsmall : ¬ recBbs ≤ h := by omega
    rw [validateHead, if_neg hsmall, Prog.eval_bind,
      eval_findVerifyLogRecord_none (hr.rest_down hwrap), ok_bind]
    dsimp only
    rw [Prog.eval_bind, hfind, ok_bind]
    dsimp only
    rw [if_neg (by simp)]
    rfl
  · have hstart : recordStart n h L = h - L := recordStart_flat hflat
    rw [hstart] at hheader htold
    have hfind : ∀ start ≤ h - L, (findVerifyLogRecord start h 0).eval log = .ok (some h) := by
      intro start hle
      rw [eval_findVerifyLogRecord (i := h - L) hle (by omega) hheader
        fun p hl hp => hr.rest_up p (by omega) (by omega) fun _ => hp, htold, if_pos (by omega)]
    rw [validateHead]
    split_ifs with hbig
    · rw [Prog.eval_bind, hfind _ (by omega)]
      rfl
    · rw [Prog.eval_bind, hfind _ (by omega)]
      rfl

/-- The last record is the one before the head. -/
lemma eval_lastRecord (hh : h < n) (hle : L ≤ n) (hr : RecordBefore log n h L) :
    (lastRecord n h).eval log = .ok (recordStart n h L, decide (h < L)) := by
  have htwo := hr.two_le
  have hheader := hr.header
  rw [lastRecord]
  rcases Nat.lt_or_ge h L with hwrap | hflat
  · have hstart : recordStart n h L = h + n - L := recordStart_wrapped hwrap
    rw [hstart] at hheader
    rw [Prog.eval_bind, eval_lastHeader_none fun p _ hp => hr.rest_down hwrap p (by omega), ok_bind]
    dsimp only
    rw [Prog.eval_bind, eval_lastHeader (by omega) (by omega) hheader
      fun p hl hp => hr.rest_up p (by omega) (by omega) (by omega), ok_bind, hstart,
      decide_eq_true hwrap]
    rfl
  · have hstart : recordStart n h L = h - L := recordStart_flat hflat
    rw [hstart] at hheader
    rw [Prog.eval_bind, eval_lastHeader (by omega) (by omega) hheader
      fun p hl hp => hr.rest_up p (by omega) (by omega) (by omega), ok_bind, hstart,
      decide_eq_false (by omega)]
    rfl

/-! ### A log that ends in a complete record -/

/-- The tail told by the record at `i` when the head is `h`: the head after an unmount
record, and otherwise the block of the record's tail. -/
def tailAt (log : ℕ → Buf) (n h i : ℕ) : ℕ :=
  if be32 (log i) Off.numLogops = 1 ∧
      byteAt (log ((i + headerBlks (log i)) % n)) 9 &&& unmountTrans ≠ 0 then h
  else be64 (log i) Off.tailLsn % 2 ^ 32

/-- The log ends at the head `h`: the blocks below it are in the cycle after `c`, the blocks
from it on in cycle `c` (0 for blocks never written), and a complete record ends there. -/
structure LogEnd (log : ℕ → Buf) (n c h L : ℕ) : Prop where
  head_lt : h < n
  cycles : ∀ p < n, cycleOf (log p) = if p < h then c + 1 else c
  record : RecordBefore log n h L
  /-- in the first cycle no record comes round the end -/
  first_lap : c = 0 → L ≤ h
  cycle_lt : c + 1 < 2 ^ 32
  version : be32 (log (recordStart n h L)) Off.version &&& xlogVersion2 ≠ 0
  size_pos : 0 < be32 (log (recordStart n h L)) Off.size

/-- With a version 2 header both counts of the header blocks agree. -/
lemma headerBlks_eq {b : Buf} (hv : be32 b Off.version &&& xlogVersion2 ≠ 0)
    (hs : 0 < be32 b Off.size) : headerBlks b = divCeil (be32 b Off.size) headerCycleSize := by
  rw [headerBlks]
  split_ifs with hbig
  · rfl
  · have hle : be32 b Off.size ≤ headerCycleSize := by
      by_contra hlt
      exact hbig ⟨hv, by omega⟩
    rw [divCeil, headerCycleSize] at *
    omega

/-- What the last record, at `i`, tells when it ends at the head. -/
lemma eval_stateAt {i c' : ℕ} {wrapped : Bool}
    (hv : be32 (log i) Off.version &&& xlogVersion2 ≠ 0) (hs : 0 < be32 (log i) Off.size)
    (hend : (i + toldLength (log i)) % n = h)
    (hc : (headCycle wrapped (be32 (log i) Off.cycle)) = .ok c') :
    (stateAt n h i wrapped).eval log =
      .ok { head := h, tail := tailAt log n h i, cycle := c' } := by
  have hafter : (i + headerBlks (log i) + divCeil (be32 (log i) Off.len) bbsize) % n = h := by
    rw [headerBlks_eq hv hs, Nat.add_assoc]
    exact hend
  rw [stateAt, Prog.eval_bind, eval_bb, ok_bind]
  dsimp only
  rw [Prog.eval_bind, Prog.eval_ofExcept, hc, ok_bind, hafter, tailAt]
  by_cases hops : be32 (log i) Off.numLogops = 1
  · rw [if_pos ⟨rfl, hops⟩, Prog.eval_bind, eval_bb, ok_bind]
    simp only [hops, true_and]
    rfl
  · rw [if_neg fun hand => hops hand.2, if_neg fun hand => hops hand.1]
    rfl

/-- The head of a log not written all the way round, or none when it is. -/
lemma LogEnd.eval_findZeroed {c : ℕ} (hn : totalRecBbs ≤ n) (he : LogEnd log n c h L) :
    (findZeroed n).eval log = .ok (if c = 0 then some h else none) := by
  have ht := totalRecBbs_eq
  have hb := recBbs_eq
  have hh := he.head_lt
  have hL := he.record.le_recBbs
  have htwo := he.record.two_le
  have hlap := he.first_lap
  have hfirst : cycleOf (log 0) ≠ 0 := by
    rw [he.cycles 0 (by omega)]
    split_ifs <;> omega
  have hlast : cycleOf (log (n - 1)) = c := by
    rw [he.cycles (n - 1) (by omega), if_neg (by omega)]
  rw [findZeroed, Prog.eval_bind, eval_cycle, ok_bind, if_neg hfirst, Prog.eval_bind, eval_cycle,
    ok_bind, hlast]
  by_cases hc : c = 0
  · have hLh := hlap hc
    have hone : cycleOf (log 0) = 1 := by rw [he.cycles 0 (by omega), if_pos (by omega), hc]
    have hcut : ∀ p < n, (cycleOf (log p) = 0 ↔ h ≤ p) := fun p hp => by
      rw [he.cycles p hp]
      split_ifs with hlt
      · exact ⟨False.elim, fun hle => absurd hlt (by omega)⟩
      · exact ⟨fun _ => by omega, fun _ => hc⟩
    have hstart : recordStart n h L = h - L := recordStart_flat hLh
    have hheader := he.record.header
    have htold := he.record.told
    rw [hstart] at hheader htold
    have hscan : ∀ p, h - min totalRecBbs h ≤ p → p < h - min totalRecBbs h + min totalRecBbs h →
        cycleOf (log p) ≠ 0 := fun p _ hp he => by
      have := (hcut p (by omega)).1 he
      omega
    rw [if_neg (by simpa using hc), if_neg (by simpa using hone), Prog.eval_bind,
      eval_findCycleStart (by omega) (by omega) fun p _ hp => hcut p (by omega), ok_bind]
    dsimp only
    rw [Prog.eval_bind, eval_findVerifyCycle hscan, ok_bind, Option.getD_none, Prog.eval_bind,
      eval_findVerifyLogRecord (i := h - L) (by omega) (by omega) hheader
        fun p hl hp => he.record.rest_up p (by omega) (by omega) fun _ => hp,
      ok_bind, htold, if_pos (by omega), if_pos hc]
    rfl
  · rw [if_pos hc, if_neg hc]
    rfl

/-- **The head is found after the last record.** -/
theorem LogEnd.eval_findHead {c : ℕ} (hn : totalRecBbs ≤ n) (he : LogEnd log n c h L) :
    (findHead n).eval log = .ok h := by
  have hh := he.head_lt
  have hcut : ∀ p < n, (cycleOf (log p) = c ↔ h ≤ p) := fun p hp => by
    rw [he.cycles p hp]
    split_ifs <;> omega
  have hlt := he.cycle_lt
  rw [findHead, Prog.eval_bind, he.eval_findZeroed hn, ok_bind]
  by_cases hc : c = 0
  · rw [if_pos hc]
    rfl
  rw [if_neg hc]
  dsimp only
  have hcycle : (cycleHead n).eval log = .ok (if h = 0 then n else h) := by
    by_cases h0 : h = 0
    · rw [if_pos h0]
      exact eval_cycleHead_whole hn fun p hp => (hcut p hp).2 (by omega)
    · rw [if_neg h0]
      exact eval_cycleHead_of_cut hn (by omega) hh hcut
  have hvalid : (validateHead n (if h = 0 then n else h)).eval log =
      .ok (if h = 0 then n else h) := by
    by_cases h0 : h = 0
    · rw [if_pos h0]
      exact eval_validateHead_end hn (h0 ▸ he.record)
    · rw [if_neg h0]
      exact eval_validateHead hn (by omega) hh he.record
  rw [Prog.eval_bind, hcycle, ok_bind, Prog.eval_bind, hvalid, ok_bind]
  by_cases h0 : h = 0
  · rw [if_pos h0, if_pos rfl, h0]
    rfl
  · rw [if_neg h0, if_neg (by omega)]
    rfl

/-- **The search on a log that ends in a complete record**: the head after the record, the
cycle the next record would be written in, and the tail the record tells. -/
theorem LogEnd.eval_findTail {c : ℕ} (hn : totalRecBbs ≤ n) (he : LogEnd log n c h L) :
    (findTail n).eval log =
      .ok { head := h, tail := tailAt log n h (recordStart n h L), cycle := c + 1 } := by
  have ht := totalRecBbs_eq
  have hb := recBbs_eq
  have hh := he.head_lt
  have hL := he.record.le_recBbs
  have htwo := he.record.two_le
  have hlap := he.first_lap
  have hi : recordStart n h L < n := by
    rw [recordStart]
    split_ifs <;> omega
  have hzero : (zeroedAt h).eval log = .ok false := by
    rw [zeroedAt]
    split_ifs with h0
    · have hne : cycleOf (log 0) ≠ 0 := by
        rw [he.cycles 0 (by omega)]
        split_ifs <;> omega
      rw [Prog.eval_bind, eval_cycle, ok_bind, decide_eq_false hne]
      rfl
    · rfl
  have hcycle : be32 (log (recordStart n h L)) Off.cycle =
      if recordStart n h L < h then c + 1 else c := by
    have hheader : be32 (log (recordStart n h L)) 0 = headerMagic := he.record.header
    rw [← he.cycles _ hi, cycleOf, if_pos hheader]
  have hhead : headCycle (decide (h < L)) (be32 (log (recordStart n h L)) Off.cycle) =
      .ok (c + 1) := by
    rw [hcycle, headCycle]
    rcases Nat.lt_or_ge h L with hwrap | hflat
    · have hnot : ¬ recordStart n h L < h := by rw [recordStart_wrapped hwrap]; omega
      rw [decide_eq_true hwrap, if_pos rfl, if_neg hnot, fit_of_lt he.cycle_lt]
    · have hlt : recordStart n h L < h := by rw [recordStart_flat hflat]; omega
      rw [decide_eq_false (by omega), if_neg (by decide), if_pos hlt]
  have hend : (recordStart n h L + toldLength (log (recordStart n h L))) % n = h := by
    rw [he.record.told, recordStart]
    split_ifs with hflat
    · rw [Nat.sub_add_cancel hflat, Nat.mod_eq_of_lt hh]
    · rw [Nat.sub_add_cancel (by omega), Nat.add_mod_right, Nat.mod_eq_of_lt hh]
  rw [findTail, Prog.eval_bind, he.eval_findHead hn, ok_bind, Prog.eval_bind, hzero, ok_bind]
  dsimp only
  rw [if_neg (by decide), Prog.eval_bind, eval_lastRecord hh (by omega) he.record, ok_bind]
  exact eval_stateAt he.version he.size_pos hend hhead

end MkfsXfs.Log
