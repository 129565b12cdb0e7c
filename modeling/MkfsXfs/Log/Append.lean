import MkfsXfs.Log.Search

/-!
The log as the kernel writes it: complete records appended back to back, round and round.

* `Entry`: a complete record, written when `A` basic blocks have been written before it.
* `Appended`: the logs that come about from a zeroed one by appending entries.
  `Appended.cycles` is the invariant: the blocks below the next to be written are one cycle
  ahead of the others.
* `Appended.logEnd`: after an entry the log ends in a complete record.
* `findTail_appended`: the reader finds the head behind the last entry, the cycle of the
  next, and the tail the last entry tells.
* `Entry.ofRecord`: the record this crate writes is such an entry.
* `exists_plain`: so is a header with blocks that hold nothing but their cycles.
-/

namespace MkfsXfs

open Checked

namespace Log

/-- A complete record, `A` basic blocks after the log of `n` blocks was zeroed: 2 to 512
basic blocks, of which the first is a version 2 header that tells the record's length, and
each carries the cycle of the lap it lies in. -/
structure Entry (n A : ℕ) where
  /-- its basic blocks -/
  len : ℕ
  block : ℕ → Buf
  two_le : 2 ≤ len
  le_recBbs : len ≤ recBbs
  length_block : ∀ j < len, (block j).length = bbsize
  magic : be32 (block 0) Off.magicno = headerMagic
  cycle : be32 (block 0) Off.cycle = A / n + 1
  version : be32 (block 0) Off.version = xlogVersion2
  size_pos : 1 ≤ be32 (block 0) Off.size
  len_pos : 1 ≤ be32 (block 0) Off.len
  told : divCeil (be32 (block 0) Off.size) headerCycleSize +
    divCeil (be32 (block 0) Off.len) bbsize = len
  stamped : ∀ j, 0 < j → j < len → be32 (block j) 0 = (A + j) / n + 1
  cycle_lt : ∀ j < len, (A + j) / n + 1 < headerMagic

/-- A basic block of zeroes. -/
def zeroBlock : Buf := List.replicate bbsize 0

/-- How far block `p` is behind the next block to be written. -/
def ahead (n A p : ℕ) : ℕ := if A % n ≤ p then p - A % n else p + n - A % n

/-- The log with the entry written over it, from block `A % n` on and round the end. -/
def Entry.over {n A : ℕ} (r : Entry n A) (log : ℕ → Buf) : ℕ → Buf := fun p =>
  if ahead n A p < r.len then r.block (ahead n A p) else log p

/-- The logs of `n` basic blocks that entries have been appended to, `A` blocks in all. -/
inductive Appended (n : ℕ) : ℕ → (ℕ → Buf) → Prop where
  | zeroed : Appended n 0 fun _ => zeroBlock
  | append {A : ℕ} {log : ℕ → Buf} (h : Appended n A log) (r : Entry n A) :
      Appended n (A + r.len) (r.over log)

/-! ### Where the blocks lie -/

section Position

variable {n A j p : ℕ}

/-- Laps and blocks after `j` more blocks, less than a lap. -/
lemma lap_add (hj : j ≤ n) (hn : 0 < n) :
    (A % n + j < n → (A + j) / n = A / n ∧ (A + j) % n = A % n + j) ∧
    (n ≤ A % n + j → (A + j) / n = A / n + 1 ∧ (A + j) % n = A % n + j - n) := by
  have hdm := Nat.div_add_mod A n
  have hmod := Nat.mod_lt A hn
  refine ⟨fun hlt => ?_, fun hge => ?_⟩
  · have hsum : A + j = A % n + j + n * (A / n) := by omega
    rw [hsum, Nat.add_mul_div_left _ _ hn, Nat.div_eq_of_lt hlt, Nat.add_mul_mod_self_left,
      Nat.mod_eq_of_lt hlt]
    exact ⟨Nat.zero_add _, rfl⟩
  · have hsum : A + j = A % n + j - n + n * (A / n + 1) := by
      rw [Nat.mul_add, Nat.mul_one]
      omega
    rw [hsum, Nat.add_mul_div_left _ _ hn, Nat.add_mul_mod_self_left,
      Nat.div_eq_of_lt (by omega), Nat.mod_eq_of_lt (by omega)]
    exact ⟨Nat.zero_add _, rfl⟩

end Position

namespace Entry

variable {n A j p : ℕ} {log : ℕ → Buf} (r : Entry n A)

/-- No block of an entry but the first is a header. -/
lemma not_header (h0 : 0 < j) (hj : j < r.len) : ¬ HeaderBlock (r.block j) := fun h => by
  have hlt := r.cycle_lt j hj
  have hst := r.stamped j h0 hj
  rw [HeaderBlock, hst] at h
  omega

/-- Each block of an entry carries the cycle of its lap. -/
lemma cycleOf_block (hj : j < r.len) : cycleOf (r.block j) = (A + j) / n + 1 := by
  rw [cycleOf]
  cases j with
  | zero =>
      have hm : be32 (r.block 0) 0 = headerMagic := r.magic
      rw [if_pos hm, r.cycle]
      rfl
  | succ j =>
      have hm : ¬ be32 (r.block (j + 1)) 0 = headerMagic := r.not_header (Nat.succ_pos j) hj
      rw [if_neg hm, r.stamped _ (Nat.succ_pos j) hj]

lemma over_of_lt (h : ahead n A p < r.len) : r.over log p = r.block (ahead n A p) := if_pos h

lemma over_of_le (h : r.len ≤ ahead n A p) : r.over log p = log p := if_neg (by omega)

/-- The header says how many of the blocks are headers, and leaves at least one more. -/
lemma hdrs_bounds : 0 < divCeil (be32 (r.block 0) Off.size) headerCycleSize ∧
    divCeil (be32 (r.block 0) Off.size) headerCycleSize < r.len := by
  have hs := divCeil_pos (m := headerCycleSize) r.size_pos (by decide)
  have hl := divCeil_pos (m := bbsize) r.len_pos (by decide)
  have ht := r.told
  omega

end Entry

/-! ### The invariant -/

variable {n A : ℕ} {log : ℕ → Buf}

/-- Appending an entry moves the change of cycle on behind it. -/
lemma Entry.cycles_over (hn : totalRecBbs ≤ n) (r : Entry n A)
    (hlog : ∀ p < n, cycleOf (log p) = if p < A % n then A / n + 1 else A / n) :
    ∀ p < n, cycleOf (r.over log p) =
      if p < (A + r.len) % n then (A + r.len) / n + 1 else (A + r.len) / n := by
  intro p hp
  have ht := totalRecBbs_eq
  have hb := recBbs_eq
  have hL := r.le_recBbs
  have hmod := Nat.mod_lt A (by omega : 0 < n)
  have hend := lap_add (A := A) (by omega : r.len ≤ n) (by omega)
  rcases Nat.lt_or_ge (ahead n A p) r.len with hin | hout
  · -- Block `p` is in the entry.
    have hj : ahead n A p ≤ n := by omega
    have hpos := lap_add (A := A) hj (by omega)
    rw [r.over_of_lt hin, r.cycleOf_block hin]
    rw [ahead] at hin hpos ⊢
    split_ifs at hin hpos ⊢ <;> omega
  · rw [r.over_of_le hout, hlog p hp]
    rw [ahead] at hout
    split_ifs at hout ⊢ <;> omega

/-- **The invariant of an append-only log**: the blocks below the next to be written are one
cycle ahead of the rest, of which a log in its first lap has none written. -/
theorem Appended.cycles (hn : totalRecBbs ≤ n) (h : Appended n A log) :
    ∀ p < n, cycleOf (log p) = if p < A % n then A / n + 1 else A / n := by
  induction h with
  | zeroed =>
      intro p _
      rw [Nat.zero_mod, Nat.zero_div, if_neg (Nat.not_lt_zero p)]
      exact (by decide : cycleOf zeroBlock = 0)
  | append h r ih => exact r.cycles_over hn ih

/-- The entry starts where the log stood before it. -/
lemma Entry.recordStart_eq (hn : totalRecBbs ≤ n) (r : Entry n A) :
    recordStart n ((A + r.len) % n) r.len = A % n := by
  have ht := totalRecBbs_eq
  have hb := recBbs_eq
  have hL := r.le_recBbs
  have hmod := Nat.mod_lt A (by omega : 0 < n)
  have hend := lap_add (A := A) (by omega : r.len ≤ n) (by omega)
  rw [recordStart]
  split_ifs <;> omega

/-- After an entry the log ends in a complete record. -/
theorem Appended.logEnd (hn : totalRecBbs ≤ n) (h : Appended n A log) (r : Entry n A) :
    LogEnd (r.over log) n ((A + r.len) / n) ((A + r.len) % n) r.len := by
  have ht := totalRecBbs_eq
  have hb := recBbs_eq
  have hL := r.le_recBbs
  have htwo := r.two_le
  have hpos : 0 < n := by omega
  have hmod := Nat.mod_lt A hpos
  have hend := lap_add (A := A) (by omega : r.len ≤ n) hpos
  have hstart := r.recordStart_eq hn
  have hfirst : r.over log (A % n) = r.block 0 := by
    have h0 : ahead n A (A % n) = 0 := by rw [ahead, if_pos le_rfl, Nat.sub_self]
    rw [r.over_of_lt (by omega), h0]
  have hinside : ∀ p, 0 < ahead n A p → ahead n A p < r.len →
      ¬ HeaderBlock (r.over log p) := fun p h0 hlt => by
    rw [r.over_of_lt hlt]
    exact r.not_header h0 hlt
  exact {
    head_lt := Nat.mod_lt _ hpos
    cycles := r.cycles_over hn (h.cycles hn)
    record := {
      two_le := htwo
      le_recBbs := hL
      header := by
        rw [hstart, hfirst]
        exact r.magic
      told := by
        rw [hstart, hfirst]
        exact r.told
      rest_up := by
        rw [hstart]
        intro p hl hp hflat
        refine hinside p ?_ ?_ <;> rw [ahead, if_pos hl.le] <;> omega
      rest_down := by
        intro hwrap p hp
        refine hinside p ?_ ?_ <;> rw [ahead, if_neg (by omega)] <;> omega }
    first_lap := by
      intro h0
      by_contra hlt
      have hlap := (hend.2 (by omega)).1
      rw [h0] at hlap
      exact Nat.succ_ne_zero _ hlap.symm
    cycle_lt := by
      have hlt := r.cycle_lt (r.len - 1) (by omega)
      have hlast := lap_add (A := A) (by omega : r.len - 1 ≤ n) hpos
      rw [headerMagic] at hlt
      omega
    version := by
      rw [hstart, hfirst, r.version]
      decide
    size_pos := by
      rw [hstart, hfirst]
      exact r.size_pos }

/-- The tail that the last entry tells: the head after an unmount record, and otherwise the
block of its tail. -/
def Entry.tail (r : Entry n A) : ℕ :=
  if be32 (r.block 0) Off.numLogops = 1 ∧
      byteAt (r.block (divCeil (be32 (r.block 0) Off.size) headerCycleSize)) 9 &&& unmountTrans ≠ 0
  then (A + r.len) % n
  else be64 (r.block 0) Off.tailLsn % 2 ^ 32

/-- The reader's tail is the entry's. -/
lemma Entry.tailAt_eq (hn : totalRecBbs ≤ n) (r : Entry n A) :
    tailAt (r.over log) n ((A + r.len) % n) (A % n) = r.tail := by
  have ht := totalRecBbs_eq
  have hb := recBbs_eq
  have hL := r.le_recBbs
  have hpos : 0 < n := by omega
  have hmod := Nat.mod_lt A hpos
  have hhdrs := r.hdrs_bounds
  have hfirst : r.over log (A % n) = r.block 0 := by
    have h0 : ahead n A (A % n) = 0 := by rw [ahead, if_pos le_rfl, Nat.sub_self]
    rw [r.over_of_lt (by omega), h0]
  have hblks : headerBlks (r.block 0) = divCeil (be32 (r.block 0) Off.size) headerCycleSize :=
    headerBlks_eq (by rw [r.version]; decide) r.size_pos
  rw [tailAt, tail, hfirst, hblks]
  generalize divCeil (be32 (r.block 0) Off.size) headerCycleSize = k at hhdrs
  have hunmount : r.over log ((A % n + k) % n) = r.block k := by
    have hk : ahead n A ((A % n + k) % n) = k := by
      rcases Nat.lt_or_ge (A % n + k) n with hlt | hge
      · rw [Nat.mod_eq_of_lt hlt, ahead, if_pos (by omega)]
        omega
      · rw [Nat.mod_eq_sub_mod hge, Nat.mod_eq_of_lt (by omega), ahead, if_neg (by omega)]
        omega
    rw [r.over_of_lt (by omega), hk]
  rw [hunmount]

/-! ### The record this crate writes -/

/-- `record` writes an entry, where the log has room for it before its end. -/
def Entry.ofRecord (uuid : Uuid) {sunit blk tail : ℕ} (hs : sunit ≤ 262144) (hb : blk < 2 ^ 32)
    (ht : tail < 2 ^ 64) (hfit : A % n + recordLen sunit ≤ n) (hc : A / n + 1 < headerMagic) :
    Entry n A :=
  have hc32 : A / n + 1 < 2 ^ 32 := hc.trans (by decide)
  have hl : lsn (A / n + 1) blk < 2 ^ 64 := lsn_lt hc32 hb
  have hfields := record_fields uuid (by omega : sunit < 2 ^ 32) hl ht
  have htwo := two_le_recordLen sunit
  have hbig : 0 < max sunit bigRecordBsize := lt_max_of_lt_right (by decide)
  have hlap : ∀ j < recordLen sunit, (A + j) / n = A / n := fun j hj =>
    ((lap_add (by omega) (by omega)).1 (by omega)).1
  have hhdr : ∀ o, o + 4 ≤ bbsize → be32 (blockOf (record uuid sunit (lsn (A / n + 1) blk) tail) 0) o =
      be32 (record uuid sunit (lsn (A / n + 1) blk) tail) o := fun o ho => by
    rw [be32_blockOf ho, Nat.zero_mul, Nat.zero_add]
  { len := recordLen sunit
    block := blockOf (record uuid sunit (lsn (A / n + 1) blk) tail)
    two_le := htwo
    le_recBbs := recordLen_le hs
    length_block := fun j hj => length_blockOf (by
      rw [length_record]
      exact Nat.mul_le_mul_right _ hj)
    magic := by rw [hhdr _ (by decide), hfields.1]
    cycle := by rw [hhdr _ (by decide), hfields.2.1, lsn_cycle hb]
    version := by rw [hhdr _ (by decide), hfields.2.2.1, xlogVersion2]
    size_pos := by
      rw [hhdr _ (by decide), hfields.2.2.2.2.2.2]
      exact hbig
    len_pos := by
      have hlen := recordLen_eq sunit
      have hlt := recordHdrs_lt_recordLen sunit
      rw [hhdr _ (by decide), hfields.2.2.2.1]
      by_contra h0
      rw [Nat.lt_one_iff.1 (Nat.not_le.1 h0), (by decide : divCeil 0 bbsize = 0)] at hlen
      omega
    told := by
      rw [hhdr _ (by decide), hhdr _ (by decide), hfields.2.2.2.2.2.2, hfields.2.2.2.1,
        recordHdrs_eq, recordLen_eq]
    stamped := fun j h0 hj => by
      rw [be32_blockOf (by decide), Nat.add_zero (j * bbsize), record_stamped hl h0 hj, lsn_cycle hb,
        hlap j hj]
    cycle_lt := fun j hj => by
      rw [hlap j hj]
      exact hc }

lemma Entry.ofRecord_len {uuid : Uuid} {sunit blk tail : ℕ} (hs : sunit ≤ 262144)
    (hb : blk < 2 ^ 32) (ht : tail < 2 ^ 64) (hfit : A % n + recordLen sunit ≤ n)
    (hc : A / n + 1 < headerMagic) :
    (Entry.ofRecord uuid hs hb ht hfit hc).len = recordLen sunit := rfl

/-- The tail it tells is the head behind it. -/
lemma Entry.ofRecord_tail {uuid : Uuid} {sunit blk tail : ℕ} (hs : sunit ≤ 262144)
    (hb : blk < 2 ^ 32) (ht : tail < 2 ^ 64) (hfit : A % n + recordLen sunit ≤ n)
    (hc : A / n + 1 < headerMagic) :
    (Entry.ofRecord uuid hs hb ht hfit hc).tail = (A + recordLen sunit) % n := by
  have hl : lsn (A / n + 1) blk < 2 ^ 64 := lsn_lt (hc.trans (by decide)) hb
  have hfields := record_fields uuid (by omega : sunit < 2 ^ 32) hl ht
  have hhdr : ∀ o, o + 4 ≤ bbsize → be32 (blockOf (record uuid sunit (lsn (A / n + 1) blk) tail) 0) o =
      be32 (record uuid sunit (lsn (A / n + 1) blk) tail) o := fun o ho => by
    rw [be32_blockOf ho, Nat.zero_mul, Nat.zero_add]
  change (if be32 (blockOf (record uuid sunit (lsn (A / n + 1) blk) tail) 0) Off.numLogops = 1 ∧
    byteAt (blockOf (record uuid sunit (lsn (A / n + 1) blk) tail)
      (divCeil (be32 (blockOf (record uuid sunit (lsn (A / n + 1) blk) tail) 0) Off.size)
        headerCycleSize)) 9 &&& unmountTrans ≠ 0 then _ else _) = _
  rw [hhdr _ (by decide), hhdr _ (by decide), hfields.2.2.2.2.2.1, hfields.2.2.2.2.2.2,
    recordHdrs_eq, byteAt_blockOf (by decide), record_unmount, if_pos ⟨rfl, by decide⟩]
  rfl

end Log

open Log

/-- **The reader against an append-only log**: on a healthy disk that holds a log to which
complete records were appended, the last of them `r`, the head is found just behind it, the
cycle is that of the next record, and the tail is what the last record tells. -/
theorem findTail_appended {n A : ℕ} {log : ℕ → Buf} (hn : totalRecBbs ≤ n)
    (h : Appended n A log) (r : Entry n A) (dev : Device) {d : Disk} {start : ℕ}
    (hd : d.Healthy) (hsize : start + n * bbsize ≤ dev.size)
    (hdisk : ∀ p < n, d.readBuf (start + p * bbsize) bbsize = r.over log p) :
    dev.run (LogReader.mk start n hn).findTail d =
      (.ok { head := (A + r.len) % n, tail := r.tail, cycle := (A + r.len) / n + 1 }, d) := by
  have htail := (h.logEnd hn r).eval_findTail hn
  rw [r.recordStart_eq hn, r.tailAt_eq hn] at htail
  rw [LogReader.run_findTail hn hd hsize hdisk, htail]

/-! ### A record that wraps -/

namespace Log

/-- The header of a record of `len` basic blocks in cycle `c` that tells the tail `t`. -/
def plainHeader (c len t : ℕ) : Buf :=
  put64 (put32 (put32 (put32 (put32 (put32 zeroBlock Off.magicno headerMagic) Off.cycle c)
    Off.version xlogVersion2) Off.len ((len - 1) * bbsize)) Off.size headerCycleSize) Off.tailLsn t

lemma length_plainHeader (c len t : ℕ) : (plainHeader c len t).length = bbsize := by
  simp [plainHeader, zeroBlock]

/-- What the header tells. -/
lemma plainHeader_fields {c len t : ℕ} (hc : c < 2 ^ 32) (hlen : len ≤ recBbs) (ht : t < 2 ^ 64) :
    be32 (plainHeader c len t) Off.magicno = headerMagic ∧
    be32 (plainHeader c len t) Off.cycle = c ∧
    be32 (plainHeader c len t) Off.version = xlogVersion2 ∧
    be32 (plainHeader c len t) Off.len = (len - 1) * bbsize ∧
    be32 (plainHeader c len t) Off.size = headerCycleSize ∧
    be64 (plainHeader c len t) Off.tailLsn = t ∧
    be32 (plainHeader c len t) Off.numLogops = 0 := by
  have hzero : zeroBlock.length = 512 := List.length_replicate
  have hbytes : (len - 1) * bbsize < 2 ^ 32 := by
    rw [recBbs_eq] at hlen
    rw [bbsize]
    omega
  refine ⟨?_, ?_, ?_, ?_, ?_, ?_, ?_⟩
  · rw [plainHeader, be32_put64_of_disjoint (by decide), be32_put32_of_disjoint (by decide),
      be32_put32_of_disjoint (by decide), be32_put32_of_disjoint (by decide),
      be32_put32_of_disjoint (by decide), be32_put32 (by rw [hzero]; decide) (by decide)]
  · rw [plainHeader, be32_put64_of_disjoint (by decide), be32_put32_of_disjoint (by decide),
      be32_put32_of_disjoint (by decide), be32_put32_of_disjoint (by decide),
      be32_put32 (by simp only [length_put32, hzero]; decide) hc]
  · rw [plainHeader, be32_put64_of_disjoint (by decide), be32_put32_of_disjoint (by decide),
      be32_put32_of_disjoint (by decide),
      be32_put32 (by simp only [length_put32, hzero]; decide) (by decide)]
  · rw [plainHeader, be32_put64_of_disjoint (by decide), be32_put32_of_disjoint (by decide),
      be32_put32 (by simp only [length_put32, hzero]; decide) hbytes]
  · rw [plainHeader, be32_put64_of_disjoint (by decide),
      be32_put32 (by simp only [length_put32, hzero]; decide) (by decide)]
  · exact be64_put64 (by simp only [length_put32, hzero]; decide) ht
  · rw [plainHeader, be32_put64_of_disjoint (by decide), be32_put32_of_disjoint (by decide),
      be32_put32_of_disjoint (by decide), be32_put32_of_disjoint (by decide),
      be32_put32_of_disjoint (by decide), be32_put32_of_disjoint (by decide)]
    decide

/-- The blocks of a record of `len` basic blocks that holds nothing but its header and its
cycles. -/
def plainBlock (n A len t j : ℕ) : Buf :=
  if j = 0 then plainHeader (A / n + 1) len t else put32 zeroBlock 0 ((A + j) / n + 1)

lemma length_plainBlock (n A len t j : ℕ) : (plainBlock n A len t j).length = bbsize := by
  rw [plainBlock]
  split_ifs
  · exact length_plainHeader _ _ _
  · rw [length_put32, zeroBlock, List.length_replicate]

/-- There is such a record, and it tells the tail `t`. -/
lemma exists_plain {n A len t : ℕ} (h2 : 2 ≤ len) (hle : len ≤ recBbs) (ht : t < 2 ^ 64)
    (hc : (A + len) / n + 1 < headerMagic) :
    ∃ r : Entry n A, r.len = len ∧ r.tail = t % 2 ^ 32 := by
  have hlap : ∀ j < len, (A + j) / n + 1 < headerMagic := fun j hj =>
    (Nat.add_le_add_right (Nat.div_le_div_right (Nat.add_le_add_left hj.le A)) 1).trans_lt hc
  have hword : ∀ j < len, (A + j) / n + 1 < 2 ^ 32 := fun j hj => (hlap j hj).trans (by decide)
  have hfirst : A / n + 1 < 2 ^ 32 := hword 0 (by omega)
  obtain ⟨hmagic, hcycle, hversion, hlen, hsize, htail, hops⟩ := plainHeader_fields hfirst hle ht
  have hone : divCeil headerCycleSize headerCycleSize = 1 := by decide
  let r : Entry n A :=
    { len := len
      block := plainBlock n A len t
      two_le := h2
      le_recBbs := hle
      length_block := fun j _ => length_plainBlock n A len t j
      magic := hmagic
      cycle := hcycle
      version := hversion
      size_pos := hsize.ge.trans' (by decide)
      len_pos := hlen.ge.trans' (Nat.mul_pos (by omega) (by decide))
      told := by
        rw [plainBlock, if_pos rfl, hsize, hlen, hone, divCeil, bbsize]
        omega
      stamped := fun j h0 hj => by
        rw [plainBlock, if_neg (by omega)]
        exact be32_put32 (by rw [zeroBlock, List.length_replicate]; decide) (hword j hj)
      cycle_lt := hlap }
  have hblock : r.block 0 = plainHeader (A / n + 1) len t := rfl
  refine ⟨r, rfl, ?_⟩
  rw [Entry.tail, hblock, hops, if_neg (by omega), htail]

/-- The blocks of such a log are whole. -/
lemma Appended.length_block (h : Appended n A log) (p : ℕ) : (log p).length = bbsize := by
  induction h with
  | zeroed => exact List.length_replicate
  | append _ r ih =>
      rw [Entry.over]
      split_ifs with hin
      · exact r.length_block _ hin
      · exact ih

/-- Eight records of 500 blocks, or fewer. -/
lemma exists_appended {k : ℕ} (hk : k ≤ 8) : ∃ log, Appended 4096 (500 * k) log := by
  induction k with
  | zero => exact ⟨_, .zeroed⟩
  | succ k ih =>
      obtain ⟨log, hlog⟩ := ih (by omega)
      have hc : (500 * k + 500) / 4096 + 1 < headerMagic := by
        rw [headerMagic]
        omega
      obtain ⟨r, hlen, -⟩ : ∃ r : Entry 4096 (500 * k), r.len = 500 ∧ r.tail = 0 % 2 ^ 32 :=
        exists_plain (by decide) (by decide) (by decide) hc
      have happ := hlog.append r
      rw [hlen] at happ
      exact ⟨_, happ⟩

end Log

/-- Eight records of 500 blocks, and a ninth that wraps round the end of the log. -/
theorem findTail_appended_wrapped : ∃ log, Appended 4096 4000 log ∧ ∃ r : Entry 4096 4000,
    r.len = 500 ∧ Device.run ⟨4096 * bbsize, 512, by decide⟩
      (LogReader.mk 0 4096 (by decide)).findTail (Disk.ofBlocks (r.over log)) =
        (.ok { head := 404, tail := 4000, cycle := 2 }, Disk.ofBlocks (r.over log)) := by
  obtain ⟨log, hlog⟩ : ∃ log, Appended 4096 (500 * 8) log := exists_appended le_rfl
  have hc : (4000 + 500) / 4096 + 1 < headerMagic := by decide
  obtain ⟨r, hlen, htail⟩ : ∃ r : Entry 4096 4000, r.len = 500 ∧
      r.tail = lsn 1 4000 % 2 ^ 32 :=
    exists_plain (by decide) (by decide) (by decide) hc
  have hhealthy : (Disk.ofBlocks (r.over log)).Healthy := rfl
  have hrun := findTail_appended (by decide) hlog r ⟨4096 * bbsize, 512, by decide⟩ hhealthy
    (by decide) fun p _ => Disk.readBuf_ofBlocks ((hlog.append r).length_block p)
  rw [htail, hlen] at hrun
  exact ⟨log, hlog, r, hlen, hrun⟩

end MkfsXfs
