import MkfsXfs.Log.Search

/-!
A log as the log clear leaves it past the first cycle: one record in the new cycle at block
0, zeroes up to block 512, and from there records of the cycle before, back to back to the
end of the log.

* `RecordAt`: a complete record that holds an unmount record; `RecordAt.ofRecord`: the record
  this crate writes is one.
* `ClearedLog.eval_findHead`: the head is at block 512 when the first record reaches it, and
  otherwise at block 0, the reader backing up over what it takes for a partial record.
* `ClearedLog.eval_findTail`: the log is clean, and in the new cycle.
-/

namespace MkfsXfs.Log

open Checked

variable {log : ℕ → Buf} {n c len i j : ℕ}

/-! ### A record in its place -/

/-- A complete record of `len` blocks in cycle `c` starts at block `i`, and holds an unmount
record. -/
structure RecordAt (log : ℕ → Buf) (i c len : ℕ) : Prop where
  two_le : 2 ≤ len
  le_recBbs : len ≤ recBbs
  header : HeaderBlock (log i)
  cycle : be32 (log i) Off.cycle = c
  version : be32 (log i) Off.version &&& xlogVersion2 ≠ 0
  size_pos : 0 < be32 (log i) Off.size
  told : toldLength (log i) = len
  ops : be32 (log i) Off.numLogops = 1
  hdrs_lt : headerBlks (log i) < len
  unmount : byteAt (log (i + headerBlks (log i))) 9 &&& unmountTrans ≠ 0
  body : ∀ j, 0 < j → j < len → be32 (log (i + j)) 0 = c

namespace RecordAt

/-- Its first block is its only header. -/
lemma not_header (h : RecordAt log i c len) (hc : c < headerMagic) (h0 : 0 < j) (hj : j < len) :
    ¬ HeaderBlock (log (i + j)) := fun he => by
  rw [HeaderBlock, h.body j h0 hj] at he
  omega

/-- All its blocks carry its cycle. -/
lemma cycleOf_block (h : RecordAt log i c len) (hc : c < headerMagic) (hj : j < len) :
    cycleOf (log (i + j)) = c := by
  rw [cycleOf]
  cases j with
  | zero =>
      have hm : be32 (log i) 0 = headerMagic := h.header
      rw [Nat.add_zero, if_pos hm, h.cycle]
  | succ j =>
      have hm : ¬ be32 (log (i + (j + 1))) 0 = headerMagic :=
        h.not_header hc (Nat.succ_pos j) hj
      rw [if_neg hm, h.body _ (Nat.succ_pos j) hj]

/-- The record this crate writes, in its place. -/
lemma ofRecord {uuid : Uuid} {sunit blk tail : ℕ} (hs : sunit ≤ 262144) (hc : c < 2 ^ 32)
    (hb : blk < 2 ^ 32) (ht : tail < 2 ^ 64)
    (h : ∀ j < recordLen sunit, log (i + j) = blockOf (record uuid sunit (lsn c blk) tail) j) :
    RecordAt log i c (recordLen sunit) := by
  have hl : lsn c blk < 2 ^ 64 := lsn_lt hc hb
  have hfields := record_fields uuid (by omega : sunit < 2 ^ 32) hl ht
  have htwo := two_le_recordLen sunit
  have hfirst : log i = blockOf (record uuid sunit (lsn c blk) tail) 0 := h 0 (by omega)
  have hhdr : ∀ o, o + 4 ≤ bbsize → be32 (log i) o =
      be32 (record uuid sunit (lsn c blk) tail) o := fun o ho => by
    rw [hfirst, be32_blockOf ho, Nat.zero_mul, Nat.zero_add]
  have hbig : 0 < max sunit bigRecordBsize := lt_max_of_lt_right (by decide)
  have hversion : be32 (log i) Off.version &&& xlogVersion2 ≠ 0 := by
    rw [hhdr _ (by decide), hfields.2.2.1]
    decide
  have hsize : be32 (log i) Off.size = max sunit bigRecordBsize := by
    rw [hhdr _ (by decide), hfields.2.2.2.2.2.2]
  have hhdrs : headerBlks (log i) = recordHdrs sunit := by
    rw [headerBlks_eq hversion (by rw [hsize]; exact hbig), hsize, recordHdrs_eq]
  exact {
    two_le := htwo
    le_recBbs := recordLen_le hs
    header := by rw [HeaderBlock, hhdr 0 (by decide)]; exact hfields.1
    cycle := by rw [hhdr _ (by decide), hfields.2.1, lsn_cycle hb]
    version := hversion
    size_pos := by rw [hsize]; exact hbig
    told := by
      rw [toldLength, hsize, hhdr _ (by decide), hfields.2.2.2.1, recordHdrs_eq, recordLen_eq]
    ops := by rw [hhdr _ (by decide), hfields.2.2.2.2.2.1]
    hdrs_lt := by
      rw [hhdrs]
      exact recordHdrs_lt_recordLen sunit
    unmount := by
      rw [hhdrs, h _ (recordHdrs_lt_recordLen sunit), byteAt_blockOf (by decide), record_unmount]
      decide
    body := fun j h0 hj => by
      rw [h j hj, be32_blockOf (by decide), Nat.add_zero (j * bbsize), record_stamped hl h0 hj,
        lsn_cycle hb] }

end RecordAt

/-! ### The cleared log -/

/-- The log of `n` blocks after it was cleared at cycle `c + 1`, the first record having
`len` blocks. -/
structure ClearedLog (log : ℕ → Buf) (n c len : ℕ) : Prop where
  cycle_pos : 0 < c
  cycle_lt : c + 1 < headerMagic
  first : RecordAt log 0 (c + 1) len
  gap : ∀ p, len ≤ p → p < 512 → cycleOf (log p) = 0 ∧ ¬ HeaderBlock (log p)
  chain : ∀ s, 512 ∣ s → 512 ≤ s → s < n → RecordAt log s c (min (n - s) 512)

namespace ClearedLog

variable (h : ClearedLog log n c len)

include h

/-- The blocks from 512 on, and only they, carry the old cycle. -/
lemma cycleCut : CycleCut log n 512 c := by
  intro p hp
  have hlt := h.cycle_lt
  have hpos := h.cycle_pos
  have hb := recBbs_eq
  have hlen := h.first.le_recBbs
  rcases Nat.lt_or_ge p 512 with hlow | hhigh
  · have hne : cycleOf (log p) ≠ c := by
      rcases Nat.lt_or_ge p len with hin | hout
      · have hp0 := h.first.cycleOf_block hlt hin
        rw [Nat.zero_add] at hp0
        omega
      · have := (h.gap p hout hlow).1
        omega
    exact ⟨fun he => absurd he hne, fun hle => by omega⟩
  · have hs : RecordAt log (p / 512 * 512) c (min (n - p / 512 * 512) 512) :=
      h.chain _ (Nat.dvd_mul_left 512 _) (by omega) (by omega)
    have hcycle := hs.cycleOf_block (j := p - p / 512 * 512) (by omega) (by omega)
    rw [Nat.add_sub_cancel' (by omega)] at hcycle
    exact ⟨fun _ => hhigh, fun _ => hcycle⟩

/-- The last record ends with the log. -/
lemma last (hn : totalRecBbs ≤ n) : RecordAt log ((n - 1) / 512 * 512) c
    (n - (n - 1) / 512 * 512) := by
  have ht := totalRecBbs_eq
  have hs := h.chain ((n - 1) / 512 * 512) (Nat.dvd_mul_left 512 _) (by omega) (by omega)
  have hmin : min (n - (n - 1) / 512 * 512) 512 = n - (n - 1) / 512 * 512 := by omega
  rwa [hmin] at hs

/-- Seen from block 0, the last record is the one before the head. -/
lemma recordBefore_zero (hn : totalRecBbs ≤ n) :
    RecordBefore log n 0 (n - (n - 1) / 512 * 512) := by
  have ht := totalRecBbs_eq
  have hlt := h.cycle_lt
  have hs := h.last hn
  have htwo := hs.two_le
  have hstart : recordStart n 0 (n - (n - 1) / 512 * 512) = (n - 1) / 512 * 512 := by
    rw [recordStart_wrapped (by omega)]
    omega
  exact {
    two_le := htwo
    le_recBbs := hs.le_recBbs
    header := by
      rw [hstart]
      exact hs.header
    told := by
      rw [hstart]
      exact hs.told
    rest_up := by
      rw [hstart]
      intro p hl hp _
      have hnot := hs.not_header (j := p - (n - 1) / 512 * 512) (by omega) (by omega) (by omega)
      rwa [Nat.add_sub_cancel' (by omega)] at hnot
    rest_down := fun _ p hp => absurd hp (Nat.not_lt_zero p) }

/-- A first record of 512 blocks is the one before block 512. -/
lemma recordBefore_full (hfull : len = 512) : RecordBefore log n 512 512 := by
  have hlt := h.cycle_lt
  have hfirst := h.first
  rw [hfull] at hfirst
  have hstart : recordStart n 512 512 = 0 := by rw [recordStart_flat le_rfl, Nat.sub_self]
  exact {
    two_le := by decide
    le_recBbs := by decide
    header := by
      rw [hstart]
      exact hfirst.header
    told := by
      rw [hstart]
      exact hfirst.told
    rest_up := by
      rw [hstart]
      intro p hl _ hp
      have hnot := hfirst.not_header (j := p) hlt hl (hp le_rfl)
      rwa [Nat.zero_add] at hnot
    rest_down := fun hlt' => absurd hlt' (lt_irrefl 512) }

/-- Where the head is found. -/
lemma eval_validateHead (hn : totalRecBbs ≤ n) :
    (validateHead n 512).eval log = .ok (if len = 512 then 512 else 0) := by
  have ht := totalRecBbs_eq
  have hlt := h.cycle_lt
  have hb := recBbs_eq
  have hlen := h.first.le_recBbs
  have htwo := h.first.two_le
  by_cases hfull : len = 512
  · rw [if_pos hfull]
    exact Log.eval_validateHead hn (by decide) (by omega) (h.recordBefore_full hfull)
  · -- The first record ends before block 512: it is taken for a partial one.
    have hrest : ∀ p, 0 < p → p < 512 → ¬ HeaderBlock (log p) := by
      intro p h0 hp
      rcases Nat.lt_or_ge p len with hin | hout
      · have hnot := h.first.not_header hlt h0 hin
        rwa [Nat.zero_add] at hnot
      · exact (h.gap p hout hp).2
    have hfind : (findVerifyLogRecord (512 - recBbs) 512 0).eval log = .ok (some 0) := by
      rw [eval_findVerifyLogRecord (i := 0) (by omega) (by omega) h.first.header hrest,
        h.first.told, if_neg (by omega)]
    rw [if_neg hfull, validateHead, if_pos (by rw [hb]), Prog.eval_bind, hfind]
    rfl

/-- **The head of a cleared log.** -/
theorem eval_findHead (hn : totalRecBbs ≤ n) :
    (findHead n).eval log = .ok (if len = 512 then 512 else 0) := by
  have ht := totalRecBbs_eq
  have hpos := h.cycle_pos
  have hcut := h.cycleCut
  have hfirst : cycleOf (log 0) = c + 1 := by
    have h0 := h.first.cycleOf_block h.cycle_lt (j := 0) (by have := h.first.two_le; omega)
    rwa [Nat.add_zero] at h0
  have hlast : cycleOf (log (n - 1)) = c := (hcut (n - 1) (by omega)).2 (by omega)
  have hzero : (findZeroed n).eval log = .ok none := by
    rw [findZeroed, Prog.eval_bind, eval_cycle, ok_bind, hfirst, if_neg (by omega),
      Prog.eval_bind, eval_cycle, ok_bind, hlast, if_pos (by omega)]
    rfl
  rw [findHead, Prog.eval_bind, hzero, ok_bind]
  dsimp only
  rw [Prog.eval_bind, eval_cycleHead_of_cut hn (by decide) (by omega) hcut, ok_bind,
    Prog.eval_bind, h.eval_validateHead hn, ok_bind, if_neg (by split_ifs <;> omega)]
  rfl

/-- **A cleared log is clean and in the new cycle.** -/
theorem eval_findTail (hn : totalRecBbs ≤ n) : (findTail n).eval log =
    .ok { head := if len = 512 then 512 else 0, tail := if len = 512 then 512 else 0,
          cycle := c + 1 } := by
  have ht := totalRecBbs_eq
  have hlt := h.cycle_lt
  have hmagic : headerMagic < 2 ^ 32 := by decide
  have hfirst : cycleOf (log 0) = c + 1 := by
    have h0 := h.first.cycleOf_block hlt (j := 0) (by have := h.first.two_le; omega)
    rwa [Nat.add_zero] at h0
  rw [findTail, Prog.eval_bind, h.eval_findHead hn, ok_bind, Prog.eval_bind]
  by_cases hfull : len = 512
  · -- The record before block 512 is the first one.
    have hr := h.recordBefore_full hfull
    have hstart : recordStart n 512 512 = 0 := by rw [recordStart_flat le_rfl, Nat.sub_self]
    have hzero : (zeroedAt 512).eval log = .ok false := rfl
    have hlastRec : (lastRecord n 512).eval log = .ok (0, false) := by
      rw [eval_lastRecord (by omega) (by omega) hr, hstart]
      rfl
    have hfit : headCycle false (be32 (log 0) Off.cycle) = .ok (c + 1) := by
      rw [headCycle, if_neg (by decide), h.first.cycle]
    have hend : (0 + toldLength (log 0)) % n = 512 := by
      rw [h.first.told, hfull, Nat.mod_eq_of_lt (by omega)]
    have htail : tailAt log n 512 0 = 512 := by
      have hun := h.first.unmount
      have hhdrs := h.first.hdrs_lt
      rw [tailAt, if_pos]
      rw [Nat.mod_eq_of_lt (by omega)]
      exact ⟨h.first.ops, hun⟩
    rw [if_pos hfull, hzero, ok_bind]
    dsimp only
    rw [if_neg (by decide), Prog.eval_bind, hlastRec, ok_bind]
    dsimp only
    rw [eval_stateAt h.first.version h.first.size_pos hend hfit, htail]
  · -- From block 0 the last record is the one that ends the log.
    have hs := h.last hn
    have htwo := hs.two_le
    have hr := h.recordBefore_zero hn
    have hstart : recordStart n 0 (n - (n - 1) / 512 * 512) = (n - 1) / 512 * 512 := by
      rw [recordStart_wrapped (by omega)]
      omega
    have hzero : (zeroedAt 0).eval log = .ok false := by
      rw [zeroedAt, if_pos rfl, Prog.eval_bind, eval_cycle, ok_bind, hfirst]
      rfl
    have hlastRec : (lastRecord n 0).eval log = .ok ((n - 1) / 512 * 512, true) := by
      rw [eval_lastRecord (by omega) (by omega) hr, hstart, decide_eq_true (by omega)]
    have hfit : headCycle true (be32 (log ((n - 1) / 512 * 512)) Off.cycle) = .ok (c + 1) := by
      rw [headCycle, if_pos rfl, hs.cycle, fit_of_lt (by omega)]
    have hend : ((n - 1) / 512 * 512 + toldLength (log ((n - 1) / 512 * 512))) % n = 0 := by
      rw [hs.told, Nat.add_sub_cancel' (by omega), Nat.mod_self]
    have htail : tailAt log n 0 ((n - 1) / 512 * 512) = 0 := by
      have hun := hs.unmount
      have hhdrs := hs.hdrs_lt
      rw [tailAt, if_pos]
      rw [Nat.mod_eq_of_lt (by omega)]
      exact ⟨hs.ops, hun⟩
    rw [if_neg hfull, hzero, ok_bind]
    dsimp only
    rw [if_neg (by decide), Prog.eval_bind, hlastRec, ok_bind]
    dsimp only
    rw [eval_stateAt hs.version hs.size_pos hend hfit, htail]

end ClearedLog

end MkfsXfs.Log
