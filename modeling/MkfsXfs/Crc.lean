import MkfsXfs.Bytes

/-!
CRC32C, the checksum on every v5 metadata structure (`src/crc.rs`).

* `cksum`, `stamp`, `verify`: the checksum of a structure with its own field read as zero,
  stored little-endian in that field.
* `cksum_splice`: the checksum does not depend on the field it is stored in, so
  `verify_stamp`: what is stamped verifies.
-/

namespace MkfsXfs.Crc

/-- One bit of the table's computation. -/
def tableStep (c : UInt32) : UInt32 :=
  if c &&& 1 ≠ 0 then (0x82f63b78 : UInt32) ^^^ (c >>> 1) else c >>> 1

/-- The table's entry `i`. -/
def tableEntry (i : ℕ) : UInt32 := tableStep^[8] (UInt32.ofNat i)

/-- The table of the CRC of one byte. -/
def table : List UInt32 := (List.range 256).map tableEntry

/-- The running checksum `c` carried over `data`. -/
def update (c : UInt32) (data : Buf) : UInt32 :=
  data.foldl (fun c b => table.getD ((c ^^^ b.toUInt32) &&& 0xff).toNat 0 ^^^ (c >>> 8)) c

/-- CRC32C of `data`. -/
def crc32c (data : Buf) : UInt32 := ~~~ update 0xffffffff data

/-- The checksum of `buf` as XFS computes it: the four bytes at `off` (the structure's own
CRC field) read as zero. -/
def cksum (buf : Buf) (off : ℕ) : UInt32 :=
  let c := update 0xffffffff (buf.take off)
  let c := update c (List.replicate 4 0)
  ~~~ update c (buf.drop (off + 4))

/-- Compute and store the checksum of `buf` at `off`. -/
def stamp (buf : Buf) (off : ℕ) : Buf := splice buf off (toLeBytes 4 (cksum buf off).toNat)

/-- Whether the checksum stored at `off` matches the rest of `buf`. -/
def verify (buf : Buf) (off : ℕ) : Bool :=
  decide (off + 4 ≤ buf.length) && decide (le32 buf off = (cksum buf off).toNat)

variable {buf data : Buf} {off : ℕ}

lemma stamp_eq_splice :
    stamp buf off = splice buf off (toLeBytes 4 (cksum buf off).toNat) := rfl

@[simp] lemma length_stamp : (stamp buf off).length = buf.length := length_splice

/-- The checksum depends on the bytes outside its own field. -/
lemma cksum_congr {c : Buf} (hlen : buf.length = c.length)
    (h : ∀ i, i < off ∨ off + 4 ≤ i → byteAt buf i = byteAt c i) : cksum buf off = cksum c off := by
  have htake : buf.take off = c.take off := by
    refine Buf.ext (by simp [hlen]) fun i hi => ?_
    have hi' : i < off := by simp at hi; omega
    rw [byteAt_take hi', byteAt_take hi', h i (.inl hi')]
  have hdrop : buf.drop (off + 4) = c.drop (off + 4) := by
    refine Buf.ext (by simp [hlen]) fun i _ => ?_
    rw [byteAt_drop, byteAt_drop, h _ (.inr (by omega))]
  rw [cksum, cksum, htake, hdrop]

/-- The checksum does not read its own field. -/
lemma cksum_splice (hd : data.length = 4) : cksum (splice buf off data) off = cksum buf off :=
  cksum_congr length_splice fun _ hi => byteAt_splice_of_not_mem (by omega)

/-- What is stamped depends on the bytes outside the checksum. -/
lemma stamp_congr {c : Buf} (hlen : buf.length = c.length)
    (h : ∀ i, i < off ∨ off + 4 ≤ i → byteAt buf i = byteAt c i) : stamp buf off = stamp c off := by
  rw [stamp, stamp, cksum_congr hlen h]
  refine Buf.ext (by simp [hlen]) fun i hi => ?_
  rw [length_splice] at hi
  by_cases hin : off ≤ i ∧ i < off + 4
  · rw [byteAt_splice_of_mem hin.1 (by simpa using hin.2) hi,
      byteAt_splice_of_mem hin.1 (by simpa using hin.2) (by omega)]
  · exact byteAt_splice_congr hlen (h i (by omega))

/-- What is stamped verifies. -/
lemma verify_stamp (h : off + 4 ≤ buf.length) : verify (stamp buf off) off = true := by
  have hck : cksum (stamp buf off) off = cksum buf off := cksum_splice (by simp)
  have hread : le32 (stamp buf off) off = le32 (toLeBytes 4 (cksum buf off).toNat) 0 :=
    le32_congr fun k hk => by
      rw [stamp_eq_splice, byteAt_splice_of_mem (by omega) (by simpa using hk) (by omega)]
      congr 1
      omega
  have hle : le32 (stamp buf off) off = (cksum buf off).toNat := by
    rw [hread, le32_toLeBytes (cksum buf off).toNat_lt]
  simp [verify, h, hck, hle]

end MkfsXfs.Crc
