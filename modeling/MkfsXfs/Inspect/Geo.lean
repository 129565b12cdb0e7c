import MkfsXfs.Device
import MkfsXfs.Structs.Sb

/-!
The primary superblock's geometry, as a reader takes it from the device (`Geo` in
`src/inspect.rs`).

* `Geo.parse`: the fields, refused when they do not describe a filesystem.
* `Geo.Valid`, `Geo.parse_valid`: what a geometry that was accepted satisfies.
* `geometry`: the one read that is not a whole block, and the parse of what it read.
-/

namespace MkfsXfs

open Checked Sb

/-! ### The geometry -/

/-- The geometry in the primary superblock. -/
structure Geo where
  /-- block size -/
  blocksize : ℕ
  /-- log2 block size -/
  blocklog : ℕ
  /-- sector size -/
  sectsize : ℕ
  /-- blocks per AG -/
  agblocks : ℕ
  /-- AG count -/
  agcount : ℕ
  /-- data blocks -/
  dblocks : ℕ
  /-- log2 of agblocks, rounded up -/
  agblklog : ℕ
  /-- inode size -/
  inodesize : ℕ
  /-- log2 inodes per block -/
  inopblog : ℕ
  /-- log start (encoded fsb) and length -/
  logstart : ℕ
  logblocks : ℕ
  /-- log sector size (0 for 512) -/
  logsectsize : ℕ
  /-- log stripe unit in bytes (1 for none) -/
  logsunit : ℕ
  /-- ro-compat and incompat features -/
  roCompat : ℕ
  incompat : ℕ
  deriving DecidableEq, Repr

namespace Geo

/-- The fields of the superblock in `b`. -/
def ofBytes (b : Buf) : Geo where
  blocksize := be32 b Off.blocksize
  blocklog := (byteAt b Off.blocklog).toNat
  sectsize := be16 b Off.sectsize
  agblocks := be32 b Off.agblocks
  agcount := be32 b Off.agcount
  dblocks := be64 b Off.dblocks
  agblklog := (byteAt b Off.agblklog).toNat
  inodesize := be16 b Off.inodesize
  inopblog := (byteAt b Off.inopblog).toNat
  logstart := be64 b Off.logstart
  logblocks := be32 b Off.logblocks
  logsectsize := be16 b Off.logsectsize
  logsunit := be32 b Off.logsunit
  roCompat := be32 b Off.featuresRoCompat
  incompat := be32 b Off.featuresIncompat

/-- `1u64 << k`, a panic from 64 on. -/
def shl64 (k : ℕ) : Exec ℕ := if k < 64 then .ok (2 ^ k) else .error .panic

/-- Whether the fields describe a filesystem, each condition only looked at when those before
it hold. -/
def check (g : Geo) : Exec Bool :=
  if ¬ (g.blocksize.isPowerOfTwo ∧ 512 ≤ g.blocksize ∧ g.blocksize ≤ 65536) then .ok false
  else do
    let bytes ← shl64 g.blocklog
    if ¬ (bytes = g.blocksize ∧
        g.sectsize.isPowerOfTwo ∧ 512 ≤ g.sectsize ∧ g.sectsize ≤ 32768 ∧
        g.sectsize ≤ g.blocksize ∧
        g.inodesize.isPowerOfTwo ∧ 256 ≤ g.inodesize ∧ g.inodesize ≤ 2048 ∧
        0 < g.agcount ∧ 0 < g.agblocks) then .ok false
    else do
      let room ← shl64 g.agblklog
      if ¬ (g.agblocks ≤ room ∧ g.agblklog < 32) then .ok false
      else do
        let blocks ← fit 64 (g.agcount * g.agblocks)
        .ok (decide (g.dblocks ≤ blocks))

/-- The buffer reaches to `n`; an index past its end is a panic. -/
def reaches (b : Buf) (n : ℕ) : Exec Unit := if n ≤ b.length then .ok () else .error .panic

/-- The geometry of the superblock in `b`. -/
def parse (b : Buf) : Exec Geo := do
  reaches b (Off.magicnum + 4)
  refuseIf (be32 b Off.magicnum ≠ magic) (.notXfs "no XFSB magic at byte 0")
  reaches b (Off.versionnum + 2)
  refuseIf (be16 b Off.versionnum &&& 0xf ≠ 5) (.notXfs "not a v5 (CRC) superblock")
  reaches b (Off.featuresIncompat + 4)
  let g := ofBytes b
  let ok ← g.check
  refuseIf (ok = false) (.corrupt "superblock geometry")
  return g

/-! ### What an accepted geometry satisfies -/

/-- The facts that hold of every geometry a reader works with. -/
structure Valid (g : Geo) : Prop where
  dvd_blocksize : bbsize ∣ g.blocksize
  blocksize_dvd : g.blocksize ∣ 65536
  blocksize_ge : 512 ≤ g.blocksize
  blocksize_le : g.blocksize ≤ 65536
  sectsize_ge : 512 ≤ g.sectsize
  sectsize_le : g.sectsize ≤ g.blocksize
  agcount_pos : 0 < g.agcount
  agblocks_pos : 0 < g.agblocks
  agblocks_le : g.agblocks ≤ 2 ^ g.agblklog
  agblklog_lt : g.agblklog < 32
  dblocks_le : g.dblocks ≤ g.agcount * g.agblocks
  agcount_lt : g.agcount < 2 ^ 32
  logblocks_lt : g.logblocks < 2 ^ 32
  logsunit_lt : g.logsunit < 2 ^ 32

lemma check_eq_true {g : Geo} (h : g.check = .ok true) :
    (g.blocksize.isPowerOfTwo ∧ 512 ≤ g.blocksize ∧ g.blocksize ≤ 65536) ∧
    (512 ≤ g.sectsize ∧ g.sectsize ≤ g.blocksize) ∧ (0 < g.agcount ∧ 0 < g.agblocks) ∧
    (g.agblocks ≤ 2 ^ g.agblklog ∧ g.agblklog < 32) ∧ g.dblocks ≤ g.agcount * g.agblocks := by
  rw [check] at h
  split at h
  · simp at h
  rename_i hbs
  obtain ⟨bytes, _, h⟩ := bind_eq_ok.1 h
  split at h
  · simp at h
  rename_i hss
  obtain ⟨room, hroom, h⟩ := bind_eq_ok.1 h
  split at h
  · simp at h
  rename_i hag
  obtain ⟨blocks, hblocks, h⟩ := bind_eq_ok.1 h
  have hroom' : room = 2 ^ g.agblklog := by
    rw [shl64] at hroom
    split at hroom
    · exact (Except.ok.inj hroom).symm
    · cases hroom
  rw [fit_eq_ok] at hblocks
  have hdb : g.dblocks ≤ blocks := of_decide_eq_true (Except.ok.inj h)
  rw [not_not] at hbs hss hag
  rw [hroom'] at hag
  rw [hblocks.2] at hdb
  exact ⟨hbs, ⟨hss.2.2.1, hss.2.2.2.2.1⟩, hss.2.2.2.2.2.2.2.2, hag, hdb⟩

/-- **An accepted geometry is valid.** -/
theorem parse_valid {b : Buf} {g : Geo} (h : parse b = .ok g) : g.Valid := by
  rw [parse] at h
  obtain ⟨_, _, h⟩ := bind_eq_ok.1 h
  obtain ⟨_, _, h⟩ := bind_eq_ok.1 h
  obtain ⟨_, _, h⟩ := bind_eq_ok.1 h
  obtain ⟨_, _, h⟩ := bind_eq_ok.1 h
  obtain ⟨_, _, h⟩ := bind_eq_ok.1 h
  obtain ⟨ok, hcheck, h⟩ := bind_eq_ok.1 h
  rw [refuseIf_bind_eq_ok] at h
  obtain ⟨hok, hg⟩ := h
  have hg' : ofBytes b = g := Except.ok.inj hg
  subst hg'
  rw [Bool.not_eq_false] at hok
  rw [hok] at hcheck
  obtain ⟨hbs, hss, hag, hlog, hdb⟩ := check_eq_true hcheck
  obtain ⟨k, hk, hk', hpow⟩ := exists_pow_between.1
    (⟨hbs.1, hbs.2.1, hbs.2.2⟩ : Nat.isPowerOfTwo _ ∧ 2 ^ 9 ≤ _ ∧ _ ≤ 2 ^ 16)
  exact {
    dvd_blocksize := by
      rw [hpow]
      exact Nat.pow_dvd_pow 2 hk
    blocksize_dvd := by
      rw [hpow]
      exact Nat.pow_dvd_pow 2 hk'
    blocksize_ge := hbs.2.1
    blocksize_le := hbs.2.2
    sectsize_ge := hss.1
    sectsize_le := hss.2
    agcount_pos := hag.1
    agblocks_pos := hag.2
    agblocks_le := hlog.1
    agblklog_lt := hlog.2
    dblocks_le := hdb
    agcount_lt := be32_lt
    logblocks_lt := be32_lt
    logsunit_lt := be32_lt }

/-- The parse with what it checked. -/
def parseValid (b : Buf) : Exec {g : Geo // g.Valid} :=
  match h : parse b with
  | .ok g => .ok ⟨g, parse_valid h⟩
  | .error e => .error e

lemma parseValid_eq_ok {b : Buf} {g : {g : Geo // g.Valid}} :
    parseValid b = .ok g ↔ parse b = .ok g.1 := by
  rw [parseValid]
  split
  · rename_i g' h
    refine ⟨fun hg => ?_, fun hg => ?_⟩
    · cases hg
      exact h
    · exact congrArg Except.ok (Subtype.ext (Except.ok.inj (h.symm.trans hg)))
  · rename_i e h
    refine ⟨fun hg => (by cases hg), fun hg => ?_⟩
    rw [h] at hg
    cases hg

/-- The parse does not read the checksum. -/
lemma parse_stamp (b : Buf) : parse (Crc.stamp b Off.crc) = parse b := by
  have hbytes : ∀ i, i < Off.crc ∨ Off.crc + 4 ≤ i →
      byteAt (Crc.stamp b Off.crc) i = byteAt b i := fun i hi =>
    byteAt_splice_of_not_mem (by simpa using hi)
  have h16 : ∀ o, o + 2 ≤ Off.crc → be16 (Crc.stamp b Off.crc) o = be16 b o := fun o ho => by
    rw [be16, be16, hbytes _ (by omega), hbytes _ (by omega)]
  have h32 : ∀ o, o + 4 ≤ Off.crc → be32 (Crc.stamp b Off.crc) o = be32 b o := fun o ho =>
    be32_congr fun k hk => hbytes _ (by omega)
  have h64 : ∀ o, o + 8 ≤ Off.crc → be64 (Crc.stamp b Off.crc) o = be64 b o := fun o ho =>
    be64_congr fun k hk => hbytes _ (by omega)
  have hgeo : ofBytes (Crc.stamp b Off.crc) = ofBytes b := by
    rw [ofBytes, ofBytes]
    simp (disch := decide) only [h16, h32, h64, hbytes]
  rw [parse, parse, reaches, reaches, reaches, Crc.length_stamp, h32 _ (by decide),
    h16 _ (by decide), hgeo]
  rfl

end Geo

/-- Read the primary superblock's geometry. -/
def geometry (dev : Device) : DevM {g : Geo // g.Valid} := do
  let first := max dev.logicalSectorSize 512
  let head ← readAt 0 (min first dev.size)
  Prog.ofExcept (Geo.parseValid head)

end MkfsXfs
