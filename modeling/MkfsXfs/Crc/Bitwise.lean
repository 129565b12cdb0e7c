import MkfsXfs.Crc.Damage
import MkfsXfs.Lib.Lfsr

/-!
The CRC against its definition bit by bit (`src/crc.rs`).

* `bitwise`: CRC-32C as a shift register that takes the message in a bit at a time, low bits of a
  byte first.
* `toNat_tableEntry`: an entry of the table is eight steps of the register.
* `crc32c_bitwise`: the table-driven loop computes it, and the checksum in three pieces is that of
  the buffer with its own field zeroed.
-/

namespace MkfsXfs.Crc

open Lfsr

/-- The reflected polynomial of CRC-32C. -/
def castagnoli : ℕ := 0x82f63b78

/-- The bits of the message, low ones of a byte first. -/
def bitsOf (data : Buf) : List Bool := data.flatMap fun b => (List.range 8).map b.toNat.testBit

/-- CRC-32C bit by bit: the register starts with all ones, and is inverted at the end. -/
def bitwise (data : Buf) : ℕ :=
  (2 ^ 32 - 1) ^^^ (bitsOf data).foldl (feedBit castagnoli) (2 ^ 32 - 1)

variable {data buf : Buf} {off : ℕ} {c : UInt32}

/-- One bit of the table's computation is a step of the register. -/
lemma toNat_tableStep : (tableStep c).toNat = shift castagnoli c.toNat := by
  have hlow : c &&& 1 ≠ 0 ↔ c.toNat.testBit 0 = true := by
    rw [Nat.testBit_zero, decide_eq_true_eq, Ne, ← UInt32.toNat_inj, UInt32.toNat_and]
    change ¬ c.toNat &&& 1 = 0 ↔ _
    rw [Nat.and_one_is_mod]
    omega
  rw [tableStep, shift]
  by_cases h : c &&& 1 ≠ 0
  · rw [if_pos h, hlow.1 h, UInt32.toNat_xor, UInt32.toNat_shiftRight, Nat.xor_comm]
    rfl
  · have hclear : c.toNat.testBit 0 = false := Bool.eq_false_iff.2 fun hset => h (hlow.2 hset)
    rw [if_neg h, hclear, UInt32.toNat_shiftRight, cond_false, Nat.xor_zero]
    rfl

lemma toNat_iterate_tableStep {k : ℕ} :
    (tableStep^[k] c).toNat = (shift castagnoli)^[k] c.toNat := by
  induction k generalizing c with
  | zero => rfl
  | succ k ih => rw [Function.iterate_succ_apply, Function.iterate_succ_apply, ih, toNat_tableStep]

/-- **An entry of the table is eight steps of the register.** -/
lemma toNat_tableEntry {i : ℕ} (h : i < 256) :
    (tableEntry i).toNat = (shift castagnoli)^[8] i := by
  have hi : (UInt32.ofNat i).toNat = i :=
    UInt32.toNat_ofNat_of_lt' (h.trans (by decide))
  rw [tableEntry, toNat_iterate_tableStep, hi]

/-- **The loop over the bytes takes in their bits.** -/
lemma toNat_update_eq : (update c data).toNat =
    (bitsOf data).foldl (feedBit castagnoli) c.toNat := by
  induction data generalizing c with
  | nil => rfl
  | cons b data ih =>
      have hb : b.toNat < 2 ^ 8 := b.toNat_lt
      have hindex : ((c ^^^ b.toUInt32) &&& 0xff).toNat = (c.toNat ^^^ b.toNat) % 2 ^ 8 := by
        rw [UInt32.toNat_and, UInt32.toNat_xor, UInt8.toNat_toUInt32]
        exact Nat.and_two_pow_sub_one_eq_mod _ 8
      have hdown : (c.toNat ^^^ b.toNat) >>> 8 = c.toNat >>> 8 := by
        rw [Nat.shiftRight_xor_distrib, Nat.shiftRight_eq_div_pow b.toNat,
          Nat.div_eq_of_lt hb, Nat.xor_zero]
      have hbyte : ((List.range 8).map b.toNat.testBit).foldl (feedBit castagnoli) c.toNat =
          (shift castagnoli)^[8] (c.toNat ^^^ b.toNat) := by
        rw [foldl_feedBit, number_testBit, Nat.mod_eq_of_lt hb, List.length_map, List.length_range]
      have hstep : (table.getD ((c ^^^ b.toUInt32) &&& 0xff).toNat 0 ^^^ (c >>> 8)).toNat =
          (shift castagnoli)^[8] (c.toNat ^^^ b.toNat) := by
        have hlt : (c.toNat ^^^ b.toNat) % 2 ^ 8 < 256 := Nat.mod_lt _ (by norm_num)
        rw [hindex, table_getD hlt, UInt32.toNat_xor, toNat_tableEntry hlt, UInt32.toNat_shiftRight,
          iterate_shift_eq (c := c.toNat ^^^ b.toNat), hdown]
        rfl
      calc (update c (b :: data)).toNat
          = (bitsOf data).foldl (feedBit castagnoli)
              (table.getD ((c ^^^ b.toUInt32) &&& 0xff).toNat 0 ^^^ (c >>> 8)).toNat := ih
        _ = (bitsOf (b :: data)).foldl (feedBit castagnoli) c.toNat := by
            rw [hstep, ← hbyte, ← List.foldl_append]
            rfl

/-- **The CRC is CRC-32C bit by bit**, and the checksum is that of the buffer with the field's
bytes zeroed. -/
theorem crc32c_bitwise : (∀ data, (crc32c data).toNat = bitwise data) ∧
    ∀ buf off, off + 4 ≤ buf.length →
      cksum buf off = crc32c (splice buf off (List.replicate 4 0)) := by
  constructor
  · intro data
    have hnot : ∀ x : UInt32, (~~~ x).toNat = (2 ^ 32 - 1) ^^^ x.toNat := fun x => by
      change (~~~ x.toBitVec).toNat = _
      rw [BitVec.not_def, BitVec.toNat_xor, BitVec.toNat_allOnes]
      rfl
    rw [crc32c, hnot, toNat_update_eq]
    rfl
  · intro buf off h
    have hcut : splice buf off (List.replicate 4 0) =
        buf.take off ++ List.replicate 4 0 ++ buf.drop (off + 4) := by
      refine Buf.ext (by simp; omega) fun i hi => ?_
      rw [length_splice] at hi
      rcases Nat.lt_or_ge i off with hbefore | hfrom
      · rw [byteAt_splice_of_not_mem (.inl hbefore), List.append_assoc,
          byteAt_append_left (by simp; omega), byteAt_take hbefore]
      rcases Nat.lt_or_ge i (off + 4) with hin | hafter
      · rw [byteAt_splice_of_mem hfrom (by simpa using hin) hi,
          byteAt_append_left (by simp; omega), byteAt_append_right (by simp; omega),
          byteAt_replicate_zero, byteAt_replicate_zero]
      · rw [byteAt_splice_of_not_mem (.inr (by simpa using hafter)),
          byteAt_append_right (by simp; omega), byteAt_drop]
        congr 1
        simp
        omega
    rw [crc32c, hcut, update, List.foldl_append, List.foldl_append]
    rfl

/-- The check message of the CRC, and its checksum around a field inside it. -/
theorem crc32c_bitwise_check :
    (crc32c [0x31, 0x32, 0x33, 0x34, 0x35, 0x36, 0x37, 0x38, 0x39]).toNat =
      bitwise [0x31, 0x32, 0x33, 0x34, 0x35, 0x36, 0x37, 0x38, 0x39] ∧
    cksum [0x31, 0x32, 0x33, 0x34, 0x35, 0x36, 0x37, 0x38, 0x39] 2 =
      crc32c (splice [0x31, 0x32, 0x33, 0x34, 0x35, 0x36, 0x37, 0x38, 0x39] 2
        (List.replicate 4 0)) :=
  ⟨crc32c_bitwise.1 _, crc32c_bitwise.2 _ 2 (by decide)⟩

example : crc32c [0x31, 0x32, 0x33, 0x34, 0x35, 0x36, 0x37, 0x38, 0x39] = 0xe3069283 := by
  decide +kernel

end MkfsXfs.Crc
