import MkfsXfs.Bytes
import MkfsXfs.Geometry.Steps

/-!
Log records (`src/structs/log.rs`): the record that holds only an unmount record, as
`libxfs_log_header` writes it.

* `record`: the header, any extended headers, the unmount record, and the cycle stamps.
* `recordHdrs`, `recordLen`: its basic blocks of headers, and all its basic blocks.
* `length_record` and the `record_` lemmas: the fields its readers look at.
* `recordHdrs_eq`, `recordLen_eq`: what the header says of the record's length is its length.
-/

namespace MkfsXfs

/-! ### Constants -/

/-- `BBSIZE`: the basic block size. -/
def bbsize : ℕ := 512

namespace Log

/-- `XLOG_HEADER_MAGIC_NUM`. -/
def headerMagic : ℕ := 0xfeedbabe

/-- `XLOG_BIG_RECORD_BSIZE`. -/
def bigRecordBsize : ℕ := 32 * 1024

/-- `XLOG_HEADER_CYCLE_SIZE`. -/
def headerCycleSize : ℕ := 32 * 1024

/-- `XLOG_FMT_LINUX_LE`. -/
def fmtLinuxLe : ℕ := 1

/-- `XLOG_UNMOUNT_TYPE`. -/
def unmountType : ℕ := 0x556e

/-- The unmount record's ticket id. -/
def unmountTid : ℕ := 0xb0c0d0d0

/-- The `XFS_LOG` client id. -/
def clientLog : UInt8 := 0xaa

/-- `XLOG_UNMOUNT_TRANS`. -/
def unmountTrans : UInt8 := 0x20

/-! Field offsets in `struct xlog_rec_header`. -/
namespace Off

def magicno : ℕ := 0
def cycle : ℕ := 4
def version : ℕ := 8
def len : ℕ := 12
def lsn : ℕ := 16
def tailLsn : ℕ := 24
def crc : ℕ := 32
def prevBlock : ℕ := 36
def numLogops : ℕ := 40
def cycleData : ℕ := 44
def fmt : ℕ := 300
def fsUuid : ℕ := 304
def size : ℕ := 320

end Off

end Log

/-- The 16 bytes of a UUID. -/
abbrev Uuid := {b : Buf // b.length = 16}

open Log

/-- Basic block `j` of a buffer. -/
def blockOf (b : Buf) (j : ℕ) : Buf := (b.drop (j * bbsize)).take bbsize

section Block

variable {b : Buf} {i j : ℕ}

lemma byteAt_blockOf (h : i < bbsize) : byteAt (blockOf b j) i = byteAt b (j * bbsize + i) := by
  rw [blockOf, byteAt_take h, byteAt_drop]

lemma be32_blockOf (h : i + 4 ≤ bbsize) : be32 (blockOf b j) i = be32 b (j * bbsize + i) :=
  be32_congr fun k hk => by rw [byteAt_blockOf (by omega), Nat.add_assoc]

lemma length_blockOf (h : (j + 1) * bbsize ≤ b.length) : (blockOf b j).length = bbsize := by
  rw [Nat.succ_mul] at h
  rw [blockOf, List.length_take, List.length_drop]
  omega

end Block

/-! ### The record -/

namespace Log

/-- `xlog_assign_lsn`: a log sequence number, cycle and basic block. -/
def lsn (cycle block : ℕ) : ℕ := cycle <<< 32 ||| block

/-- The record's basic blocks of headers. -/
def recordHdrs (sunit : ℕ) : ℕ :=
  if sunit > headerCycleSize then divCeil sunit headerCycleSize else 1

/-- The record's basic blocks. -/
def recordLen (sunit : ℕ) : ℕ :=
  max (if sunit > 0 then divCeil sunit bbsize else 1) (recordHdrs sunit + 1)

/-- The fields of the record header. -/
def putHeader (rec : Buf) (uuid : Uuid) (sunit lsn tailLsn : ℕ) : Buf :=
  let h := put32 rec Off.magicno headerMagic
  let h := put32 h Off.cycle (lsn >>> 32)
  let h := put32 h Off.version 2
  let h := put32 h Off.crc 0
  let h := put32 h Off.prevBlock 0xffffffff
  let h := put32 h Off.numLogops 1
  let h := put32 h Off.fmt fmtLinuxLe
  let h := put32 h Off.size (max sunit bigRecordBsize)
  let h := put64 h Off.lsn lsn
  let h := put64 h Off.tailLsn tailLsn
  let h := splice h Off.fsUuid uuid.1
  put32 h Off.len (max (bbsize * 2) sunit - recordHdrs sunit * bbsize)

/-- Stamp the cycle on the basic blocks `lo..hi`. -/
def stampBlocks (rec : Buf) (lo hi cycle : ℕ) : Buf :=
  (List.range' lo (hi - lo)).foldl (fun r i => put32 r (i * bbsize) cycle) rec

/-- The unmount record at `u`: an op header, then `struct xfs_unmount_log_format`, whose
magic is host-endian. -/
def putUnmount (rec : Buf) (u : ℕ) : Buf :=
  let r := put32 rec u unmountTid
  let r := put32 r (u + 4) 8
  let r := splice r (u + 8) [clientLog]
  let r := splice r (u + 9) [unmountTrans]
  splice r (u + 12) (toLeBytes 2 unmountType)

/-- One log record holding only an unmount record: every block after the unmount record is
zero but for the cycle stamp. -/
def record (uuid : Uuid) (sunit lsn tailLsn : ℕ) : Buf :=
  let cycle := lsn >>> 32
  let hdrs := recordHdrs sunit
  let lenBb := recordLen sunit
  let rec₀ := List.replicate (lenBb * bbsize) 0
  let rec₁ := putHeader rec₀ uuid sunit lsn tailLsn
  let rec₂ := stampBlocks rec₁ 1 hdrs cycle
  let u := hdrs * bbsize
  let rec₃ := putUnmount rec₂ u
  -- The first word of the unmount record moves into the header's cycle data.
  let rec₄ := put32 rec₃ Off.cycleData (be32 rec₃ u)
  let rec₅ := put32 rec₄ u cycle
  stampBlocks rec₅ (hdrs + 1) lenBb cycle

/-- The stripe unit the log is cleared with: `sb_logsunit`, except that 1 stands for
`sb_logsectsize`. -/
def clearSunit (logsunit logsectsize : ℕ) : ℕ := if logsunit = 1 then logsectsize else logsunit

/-- The first log record, of cycle 1. -/
def firstRecord (uuid : Uuid) (sunit : ℕ) : Buf := record uuid sunit (lsn 1 0) (lsn 1 0)

/-! ### Its stages -/

variable {rec : Buf} {uuid : Uuid} {sunit l t cycle lo hi u o i : ℕ}

/-- The first word of a block ends before the next block. -/
lemma word_le_block {j : ℕ} (h : i < j) : i * bbsize + 4 ≤ j * bbsize := by
  have hle : (i + 1) * bbsize ≤ j * bbsize := Nat.mul_le_mul_right _ h
  rw [Nat.succ_mul] at hle
  exact (Nat.add_le_add_left (by decide) _).trans hle

@[simp] lemma length_putHeader : (putHeader rec uuid sunit l t).length = rec.length := by
  simp [putHeader]

@[simp] lemma length_stampBlocks : (stampBlocks rec lo hi cycle).length = rec.length := by
  rw [stampBlocks]
  induction List.range' lo (hi - lo) generalizing rec with
  | nil => rfl
  | cons i is ih => rw [List.foldl_cons, ih, length_put32]

@[simp] lemma length_putUnmount : (putUnmount rec u).length = rec.length := by
  simp [putUnmount]

/-- Stamps leave the bytes that are not in the first word of a stamped block. -/
lemma byteAt_stampBlocks (h : ∀ j, lo ≤ j → j < hi → o < j * bbsize ∨ j * bbsize + 4 ≤ o) :
    byteAt (stampBlocks rec lo hi cycle) o = byteAt rec o := by
  have hmem : ∀ j ∈ List.range' lo (hi - lo), o < j * bbsize ∨ j * bbsize + 4 ≤ o := by
    intro j hj
    have := List.mem_range'_1.1 hj
    exact h j this.1 (by omega)
  rw [stampBlocks]
  generalize List.range' lo (hi - lo) = js at hmem
  induction js generalizing rec with
  | nil => rfl
  | cons j js ih =>
      rw [List.foldl_cons, ih fun k hk => hmem k (List.mem_cons_of_mem j hk),
        byteAt_put32_of_disjoint (hmem j List.mem_cons_self)]

lemma be32_stampBlocks_of_disjoint
    (h : ∀ j, lo ≤ j → j < hi → o + 4 ≤ j * bbsize ∨ j * bbsize + 4 ≤ o) :
    be32 (stampBlocks rec lo hi cycle) o = be32 rec o :=
  be32_congr fun k hk => byteAt_stampBlocks fun j hl hr => by
    have := h j hl hr
    omega

/-- A stamped block carries the cycle. -/
lemma be32_stampBlocks (hl : lo ≤ i) (hr : i < hi) (hlen : hi * bbsize ≤ rec.length)
    (hc : cycle < 2 ^ 32) : be32 (stampBlocks rec lo hi cycle) (i * bbsize) = cycle := by
  -- The stamps after block `i` are elsewhere; the one on it is the last to write its word.
  have hsplit : stampBlocks rec lo hi cycle =
      stampBlocks (put32 (stampBlocks rec lo i cycle) (i * bbsize) cycle) (i + 1) hi cycle := by
    have hrange : List.range' lo (hi - lo) =
        List.range' lo (i - lo) ++ i :: List.range' (i + 1) (hi - (i + 1)) := by
      have h₁ : hi - lo = (i - lo) + (1 + (hi - (i + 1))) := by omega
      have h₂ : lo + (i - lo) = i := by omega
      rw [h₁, ← List.range'_append_1, h₂, Nat.add_comm 1, List.range'_succ]
    rw [stampBlocks, hrange, List.foldl_append, List.foldl_cons]
    rfl
  have hi' : i * bbsize + 4 ≤ rec.length := (word_le_block hr).trans hlen
  rw [hsplit, be32_stampBlocks_of_disjoint fun j hj _ => .inl (word_le_block hj),
    be32_put32 (by rwa [length_stampBlocks]) hc]

/-! ### Its fields -/

lemma recordHdrs_pos (sunit : ℕ) : 0 < recordHdrs sunit := by
  rw [recordHdrs]
  split_ifs with h
  · exact divCeil_pos (by rw [headerCycleSize] at h; omega) (by decide)
  · exact Nat.one_pos

lemma recordHdrs_lt_recordLen (sunit : ℕ) : recordHdrs sunit < recordLen sunit := by
  rw [recordLen]
  omega

lemma two_le_recordLen (sunit : ℕ) : 2 ≤ recordLen sunit := by
  have h := recordHdrs_pos sunit
  rw [recordLen]
  omega

@[simp] lemma length_record : (record uuid sunit l t).length = recordLen sunit * bbsize := by
  simp [record]

/-- The header fields that the readers look at. -/
lemma putHeader_fields (uuid : Uuid) (h : bbsize ≤ rec.length) (hs : sunit < 2 ^ 32) (hl : l < 2 ^ 64)
    (ht : t < 2 ^ 64) :
    be32 (putHeader rec uuid sunit l t) Off.magicno = headerMagic ∧
    be32 (putHeader rec uuid sunit l t) Off.cycle = l >>> 32 ∧
    be32 (putHeader rec uuid sunit l t) Off.version = 2 ∧
    be32 (putHeader rec uuid sunit l t) Off.len =
      max (bbsize * 2) sunit - recordHdrs sunit * bbsize ∧
    be64 (putHeader rec uuid sunit l t) Off.tailLsn = t ∧
    be32 (putHeader rec uuid sunit l t) Off.numLogops = 1 ∧
    be32 (putHeader rec uuid sunit l t) Off.size = max sunit bigRecordBsize := by
  have hcycle : l >>> 32 < 2 ^ 32 := by rw [Nat.shiftRight_eq_div_pow]; omega
  rw [bbsize] at h
  have hu := uuid.2
  have hmagic : headerMagic < 2 ^ 32 := by decide
  have hsize : max sunit bigRecordBsize < 2 ^ 32 := max_lt hs (by decide)
  have hlen : max (512 * 2) sunit - recordHdrs sunit * 512 < 2 ^ 32 := by omega
  simp only [putHeader, Off.magicno, Off.cycle, Off.version, Off.len, Off.tailLsn,
    Off.numLogops, Off.size, Off.crc, Off.prevBlock, Off.fmt, Off.lsn, Off.fsUuid, bbsize]
  refine ⟨?_, ?_, ?_, ?_, ?_, ?_, ?_⟩ <;>
    simp (disch := first | omega | (simp only [length_put32, length_put64, length_splice]; omega))
      only [be32_put32_of_disjoint, be32_splice_of_disjoint, be32_put64_of_disjoint,
        be64_put32_of_disjoint, be64_splice_of_disjoint, be32_put32, be64_put64]

/-- Where the unmount record starts, past the first block. -/
lemma bbsize_le_unmount (sunit : ℕ) : bbsize ≤ recordHdrs sunit * bbsize :=
  Nat.le_mul_of_pos_left _ (recordHdrs_pos sunit)

/-- The unmount record stays inside its block. -/
lemma byteAt_putUnmount (h : i < u ∨ u + 14 ≤ i) : byteAt (putUnmount rec u) i = byteAt rec i := by
  simp only [putUnmount, put32]
  rw [byteAt_splice_of_not_mem (by simp; omega), byteAt_splice_of_not_mem (by simp; omega),
    byteAt_splice_of_not_mem (by simp; omega), byteAt_splice_of_not_mem (by simp; omega),
    byteAt_splice_of_not_mem (by simp; omega)]

/-- What follows the header in the record leaves the first block but for its cycle data. -/
lemma byteAt_record (h : i < bbsize) (hc : i < Off.cycleData ∨ Off.cycleData + 4 ≤ i) :
    byteAt (record uuid sunit l t) i =
      byteAt (putHeader (List.replicate (recordLen sunit * bbsize) 0) uuid sunit l t) i := by
  have hu := bbsize_le_unmount sunit
  have hstamp : ∀ j, 1 ≤ j → i < j * bbsize := fun j hj =>
    h.trans_le (Nat.le_mul_of_pos_left _ hj)
  rw [record, byteAt_stampBlocks fun j hj _ => .inl (hstamp j (by omega)),
    byteAt_put32_of_disjoint (by omega), byteAt_put32_of_disjoint hc,
    byteAt_putUnmount (by omega), byteAt_stampBlocks fun j hj _ => .inl (hstamp j hj)]

/-- **The header of a record**, as its readers look at it. -/
theorem record_fields (uuid : Uuid) (hs : sunit < 2 ^ 32) (hl : l < 2 ^ 64) (ht : t < 2 ^ 64) :
    be32 (record uuid sunit l t) Off.magicno = headerMagic ∧
    be32 (record uuid sunit l t) Off.cycle = l >>> 32 ∧
    be32 (record uuid sunit l t) Off.version = 2 ∧
    be32 (record uuid sunit l t) Off.len =
      max (bbsize * 2) sunit - recordHdrs sunit * bbsize ∧
    be64 (record uuid sunit l t) Off.tailLsn = t ∧
    be32 (record uuid sunit l t) Off.numLogops = 1 ∧
    be32 (record uuid sunit l t) Off.size = max sunit bigRecordBsize := by
  have hlen : bbsize ≤ (List.replicate (recordLen sunit * bbsize) (0 : UInt8)).length := by
    rw [List.length_replicate]
    exact Nat.le_mul_of_pos_left _ (by have := two_le_recordLen sunit; omega)
  obtain ⟨h₁, h₂, h₃, h₄, h₅, h₆, h₇⟩ := putHeader_fields uuid hlen hs hl ht
  have h32 : ∀ o, o + 4 ≤ Off.cycleData ∨ Off.cycleData + 4 ≤ o ∧ o + 4 ≤ bbsize →
      be32 (record uuid sunit l t) o =
        be32 (putHeader (List.replicate (recordLen sunit * bbsize) 0) uuid sunit l t) o :=
    fun o ho => be32_congr fun k hk => byteAt_record
      (by rw [Off.cycleData, bbsize] at *; omega) (by omega)
  have h64 : be64 (record uuid sunit l t) Off.tailLsn =
      be64 (putHeader (List.replicate (recordLen sunit * bbsize) 0) uuid sunit l t) Off.tailLsn :=
    be64_congr fun k hk => byteAt_record (by rw [Off.tailLsn, bbsize]; omega)
      (by rw [Off.tailLsn, Off.cycleData]; omega)
  rw [h32 _ (by decide), h32 _ (by decide), h32 _ (by decide), h32 _ (by decide), h64,
    h32 _ (by decide), h32 _ (by decide)]
  exact ⟨h₁, h₂, h₃, h₄, h₅, h₆, h₇⟩

/-- Every block of the record but the first carries the cycle in its first word. -/
theorem record_stamped (hl : l < 2 ^ 64) (hi : 0 < i) (hlen : i < recordLen sunit) :
    be32 (record uuid sunit l t) (i * bbsize) = l >>> 32 := by
  have hcycle : l >>> 32 < 2 ^ 32 := by rw [Nat.shiftRight_eq_div_pow]; omega
  have hfirst : Off.cycleData + 4 ≤ i * bbsize :=
    (by decide : Off.cycleData + 4 ≤ bbsize).trans (Nat.le_mul_of_pos_left _ hi)
  have hend : i * bbsize + 4 ≤ recordLen sunit * bbsize := word_le_block hlen
  rw [record]
  rcases Nat.lt_trichotomy i (recordHdrs sunit) with hlt | heq | hgt
  · -- An extended header: stamped first, then left alone.
    have hu : i * bbsize + 4 ≤ recordHdrs sunit * bbsize := word_le_block hlt
    have hhdrs : recordHdrs sunit * bbsize ≤ recordLen sunit * bbsize :=
      Nat.mul_le_mul_right _ (recordHdrs_lt_recordLen sunit).le
    rw [be32_stampBlocks_of_disjoint fun j hj _ => .inl (word_le_block (by omega)),
      be32_put32_of_disjoint (.inl hu), be32_put32_of_disjoint (.inr hfirst),
      be32_congr fun k hk => byteAt_putUnmount (.inl (by omega)),
      be32_stampBlocks hi hlt (by simpa using hhdrs) hcycle]
  · subst heq
    rw [be32_stampBlocks_of_disjoint fun j hj _ => .inl (word_le_block hj),
      be32_put32 (by simpa using hend) hcycle]
  · rw [be32_stampBlocks hgt hlen (by simp) hcycle]

/-- The block after the headers is an unmount record. -/
theorem record_unmount :
    byteAt (record uuid sunit l t) (recordHdrs sunit * bbsize + 9) = unmountTrans := by
  have hu := bbsize_le_unmount sunit
  have hend : recordHdrs sunit * bbsize + bbsize ≤ recordLen sunit * bbsize := by
    rw [← Nat.succ_mul]
    exact Nat.mul_le_mul_right _ (recordHdrs_lt_recordLen sunit)
  have hcd : Off.cycleData + 4 ≤ bbsize := by decide
  have hbb : 14 ≤ bbsize := by decide
  rw [record, byteAt_stampBlocks, byteAt_put32_of_disjoint (by omega),
    byteAt_put32_of_disjoint (by omega), putUnmount,
    byteAt_splice_of_not_mem (by omega), byteAt_splice_of_mem (by omega) (by simp)]
  · simp
  · simp
    omega
  · intro j hj _
    left
    have hle : (recordHdrs sunit + 1) * bbsize ≤ j * bbsize := Nat.mul_le_mul_right _ hj
    rw [Nat.succ_mul] at hle
    omega

/-! ### Its length, as its header tells it -/

/-- The header's `h_size` counts the blocks of headers. -/
lemma recordHdrs_eq : divCeil (max sunit bigRecordBsize) headerCycleSize = recordHdrs sunit := by
  rw [recordHdrs]
  split_ifs with h
  · rw [headerCycleSize] at h
    rw [max_eq_left (by rw [bigRecordBsize]; omega)]
  · rw [headerCycleSize] at h
    rw [max_eq_right (by rw [bigRecordBsize]; omega)]
    decide

/-- `h_size` and `h_len` together tell the record's length. -/
lemma recordLen_eq (sunit : ℕ) : recordHdrs sunit +
    divCeil (max (bbsize * 2) sunit - recordHdrs sunit * bbsize) bbsize = recordLen sunit := by
  rw [recordLen, recordHdrs, headerCycleSize, bbsize, divCeil, divCeil, divCeil]
  split_ifs <;> omega

/-- The blocks of a record: the stripe unit rounded up, at least two. -/
lemma recordLen_eq_max (h : 0 < sunit) : recordLen sunit = max (divCeil sunit bbsize) 2 := by
  rw [recordLen, if_pos h, recordHdrs, headerCycleSize, bbsize, divCeil, divCeil]
  split_ifs <;> omega

lemma recordLen_zero : recordLen 0 = 2 := by decide

/-- A stripe unit of at most a full record gives a record no longer than one. -/
lemma recordLen_le (h : sunit ≤ 262144) : recordLen sunit ≤ 512 := by
  rw [recordLen, recordHdrs, headerCycleSize, bbsize, divCeil, divCeil]
  split_ifs <;> omega

lemma lsn_eq {block : ℕ} (h : block < 2 ^ 32) : lsn cycle block = cycle * 2 ^ 32 + block := by
  rw [lsn, ← Nat.shiftLeft_add_eq_or_of_lt h, Nat.shiftLeft_eq]

lemma lsn_cycle {block : ℕ} (h : block < 2 ^ 32) : lsn cycle block >>> 32 = cycle := by
  rw [lsn_eq h, Nat.shiftRight_eq_div_pow]
  omega

lemma lsn_lt {block : ℕ} (hc : cycle < 2 ^ 32) (h : block < 2 ^ 32) :
    lsn cycle block < 2 ^ 64 := by
  rw [lsn_eq h]
  omega

end Log

end MkfsXfs
