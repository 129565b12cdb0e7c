import MkfsXfs.Log.Search

/-!
A log record as its writer and its readers measure it (`record` in `src/structs/log.rs`,
`LogReader::find_verify_log_record` and `LogReader::find_tail` in `src/admin.rs`).

* `Measured`: what a record of `n` blocks tells its readers.
* `record_measured`: every record the crate writes tells its own length, for every stripe unit.
-/

namespace MkfsXfs.Log

open Checked

variable {rec : Buf} {uuid : Uuid} {sunit l t c : ℕ}

/-- The bytes are `n` basic blocks that read as one record of cycle `c`, ended by an unmount
record. -/
structure Measured (rec : Buf) (c n : ℕ) : Prop where
  length : rec.length = n * bbsize
  /-- as `find_verify_log_record` measures it -/
  told : toldLength (blockOf rec 0) = n
  /-- as `find_tail` measures it -/
  counted : headerBlks (blockOf rec 0) + divCeil (be32 (blockOf rec 0) Off.len) bbsize = n
  header : ∀ j < n, HeaderBlock (blockOf rec j) ↔ j = 0
  cycle : ∀ j < n, cycleOf (blockOf rec j) = c
  /-- the flag `find_tail` looks for -/
  unmount : headerBlks (blockOf rec 0) < n ∧
    byteAt (blockOf rec (headerBlks (blockOf rec 0))) 9 &&& unmountTrans ≠ 0

/-- The fields of the header are those of the first block. -/
lemma be32_first {o : ℕ} (ho : o + 4 ≤ bbsize) : be32 (blockOf rec 0) o = be32 rec o := by
  rw [be32_blockOf ho, Nat.zero_mul, Nat.zero_add]

/-- **A record measures the same to its writer and to its readers**, whatever the stripe unit. -/
theorem record_measured (hs : sunit ≤ 2 ^ 31) (hl : l < 2 ^ 64) (ht : t < 2 ^ 64)
    (hc : l >>> 32 = c) (hmagic : c < headerMagic) :
    Measured (record uuid sunit l t) c (recordLen sunit) := by
  obtain ⟨hhead, hcycle, hversion, hlen, -, -, hsize⟩ :=
    record_fields uuid (by omega : sunit < 2 ^ 32) hl ht
  have hhdrs : recordHdrs sunit < recordLen sunit := recordHdrs_lt_recordLen sunit
  have hversion2 : be32 (blockOf (record uuid sunit l t) 0) Off.version &&& xlogVersion2 ≠ 0 := by
    rw [be32_first (by decide), hversion]
    decide
  have hpos : 0 < be32 (blockOf (record uuid sunit l t) 0) Off.size := by
    rw [be32_first (by decide), hsize]
    exact lt_max_of_lt_right (by decide)
  have hblks : headerBlks (blockOf (record uuid sunit l t) 0) = recordHdrs sunit := by
    rw [headerBlks_eq hversion2 hpos, be32_first (by decide), hsize, recordHdrs_eq]
  -- The first word of every block but the first is the cycle.
  have hbody : ∀ j, 0 < j → j < recordLen sunit →
      be32 (blockOf (record uuid sunit l t) j) 0 = c := fun j h0 hj => by
    rw [be32_blockOf (by decide), Nat.add_zero, record_stamped hl h0 hj, hc]
  have hfirst : HeaderBlock (blockOf (record uuid sunit l t) 0) := by
    rw [HeaderBlock, be32_first (by decide)]
    exact hhead
  have hheader : ∀ j < recordLen sunit,
      HeaderBlock (blockOf (record uuid sunit l t) j) ↔ j = 0 := fun j hj => by
    refine ⟨fun h => ?_, fun h => h ▸ hfirst⟩
    by_contra hne
    rw [HeaderBlock, hbody j (Nat.pos_of_ne_zero hne) hj] at h
    omega
  exact {
    length := length_record
    told := by
      rw [toldLength, be32_first (by decide), be32_first (by decide), hsize, hlen, recordHdrs_eq,
        recordLen_eq]
    counted := by rw [hblks, be32_first (by decide), hlen, recordLen_eq]
    header := hheader
    cycle := fun j hj => by
      rcases Nat.eq_zero_or_pos j with rfl | h0
      · have hmagicno : be32 (blockOf (record uuid sunit l t) 0) 0 = headerMagic := hfirst
        rw [cycleOf, if_pos hmagicno, be32_first (by decide), hcycle, hc]
      · have hnot : ¬ be32 (blockOf (record uuid sunit l t) j) 0 = headerMagic := fun h =>
          h0.ne' ((hheader j hj).1 h)
        rw [cycleOf, if_neg hnot, hbody j h0 hj]
    unmount := by
      rw [hblks, byteAt_blockOf (by decide), record_unmount]
      exact ⟨hhdrs, by decide⟩ }

/-- A stripe unit of 33000 bytes: two blocks of headers. -/
theorem record_measured_odd :
    Measured (record ⟨List.replicate 16 1, rfl⟩ 33000 (lsn 7 512) (lsn 6 0)) 7 (recordLen 33000) :=
  record_measured (by norm_num) (lsn_lt (by norm_num) (by norm_num))
    (lsn_lt (by norm_num) (by norm_num)) (lsn_cycle (by norm_num)) (by decide)

end MkfsXfs.Log
