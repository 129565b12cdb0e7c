import MkfsXfs.Structs.Btree

/-!
On-disk inodes (`src/structs/inode.rs`).

* `encodeTime`, `decodeTime`: a timestamp as the inode stores it.
* `Dinode`, `Dinode.encode`: an allocated inode.
* `encodeFree`: an inode of a new chunk.
* `emptySfDir`: the data fork of an empty directory.
* `InodeRead`: what a reader checks in an inode; `inodeRead_encode`, `inodeRead_encodeFree`:
  what is encoded passes.
-/

namespace MkfsXfs

open Checked

/-- A time: seconds since the epoch, and nanoseconds. -/
structure Timestamp where
  secs : Int64
  nsecs : UInt32
  deriving DecidableEq

namespace Inode

/-- `XFS_DINODE_MAGIC`, `IN`. -/
def magic : ℕ := 0x494e

/-- Size of the v3 inode core; the data fork starts here. -/
def coreSize : ℕ := 176

/-! Field offsets in `struct xfs_dinode`. -/
namespace Off

def magic : ℕ := 0
def mode : ℕ := 2
def version : ℕ := 4
def format : ℕ := 5
def metatype : ℕ := 6
def uid : ℕ := 8
def gid : ℕ := 12
def nlink : ℕ := 16
def projidLo : ℕ := 20
def projidHi : ℕ := 22
def bigNextents : ℕ := 24
def atime : ℕ := 32
def mtime : ℕ := 40
def ctime : ℕ := 48
def size : ℕ := 56
def nblocks : ℕ := 64
def extsize : ℕ := 72
def nextents : ℕ := 76
def anextents : ℕ := 80
def forkoff : ℕ := 82
def aformat : ℕ := 83
def dmevmask : ℕ := 84
def dmstate : ℕ := 88
def flags : ℕ := 90
def gen : ℕ := 92
def nextUnlinked : ℕ := 96
def crc : ℕ := 100
def changecount : ℕ := 104
def lsn : ℕ := 112
def flags2 : ℕ := 120
def cowextsize : ℕ := 128
def crtime : ℕ := 144
def ino : ℕ := 152
def uuid : ℕ := 160

end Off

/-! `XFS_DINODE_FMT_*`. -/
namespace Format

def loc : ℕ := 1
def extents : ℕ := 2

end Format

/-- `XFS_DIFLAG_NEWRTBM`: the realtime bitmap inode's atime is a counter. -/
def diflagNewrtbm : ℕ := 1 <<< 2

/-- `XFS_DIFLAG2_BIGTIME`. -/
def diflag2Bigtime : ℕ := 1 <<< 3

/-- `XFS_DIFLAG2_NREXT64`. -/
def diflag2Nrext64 : ℕ := 1 <<< 4

/-- `XFS_BIGTIME_EPOCH_OFFSET`: bigtime counts from the minimum 32-bit time. -/
def bigtimeEpochOffset : ℤ := 1 <<< 31

/-! ### Times -/

/-- A signed number as a `w`-bit word. -/
def asWord (w : ℕ) (i : ℤ) : ℕ := (i % 2 ^ w).toNat

/-- A timestamp as the inode stores it. -/
def encodeTime (t : Timestamp) (bigtime : Bool) : Exec ℕ :=
  if bigtime then
    let secs := t.secs.toInt + bigtimeEpochOffset
    if 2 ^ 63 ≤ secs then .error .panic
    else fit 64 (asWord 64 secs * 1000000000 + t.nsecs.toNat)
  else .ok (asWord 32 t.secs.toInt <<< 32 ||| t.nsecs.toNat)

/-- The stored timestamp: bigtime counts nanoseconds, the other format keeps 32-bit signed
seconds above the nanoseconds. -/
def decodeTime (raw : ℕ) (bigtime : Bool) : Timestamp :=
  if bigtime then
    { secs := Int64.ofInt (raw / 1000000000 - bigtimeEpochOffset)
      nsecs := UInt32.ofNat (raw % 1000000000) }
  else
    { secs := Int64.ofInt (Int32.ofNat (raw >>> 32)).toInt
      nsecs := UInt32.ofNat raw }

end Inode

open Inode

/-! ### Inodes -/

/-- An allocated inode, as `mkfs.xfs` creates them. -/
structure Dinode where
  /-- inode number -/
  ino : ℕ
  /-- type and permissions -/
  mode : ℕ
  /-- data fork format -/
  format : ℕ
  /-- link count -/
  nlink : ℕ
  /-- file size in bytes -/
  size : ℕ
  /-- `di_flags` -/
  flags : ℕ
  /-- `di_flags2` -/
  flags2 : ℕ
  /-- generation number -/
  gen : ℕ
  /-- `di_changecount` -/
  changecount : ℕ
  atime : Timestamp
  mtime : Timestamp
  ctime : Timestamp
  crtime : Timestamp
  /-- the data fork's bytes -/
  data : Buf

namespace Dinode

/-- The fields of the inode core, with its times as they are stored. -/
def fields (d : Dinode) (uuid : Uuid) (atime mtime ctime crtime : ℕ) : List Field :=
  [.u16 Off.magic magic,
    .u16 Off.mode d.mode,
    .u8 Off.version 3,
    .u8 Off.format d.format,
    .u32 Off.nlink d.nlink,
    .u64 Off.atime atime,
    .u64 Off.mtime mtime,
    .u64 Off.ctime ctime,
    .u64 Off.size d.size,
    .u8 Off.forkoff 0,
    .u8 Off.aformat Format.extents,
    .u16 Off.flags d.flags,
    .u32 Off.gen d.gen,
    .u32 Off.nextUnlinked null32,
    .u64 Off.changecount d.changecount,
    .u64 Off.flags2 d.flags2,
    .u64 Off.crtime crtime,
    .u64 Off.ino d.ino,
    ⟨Off.uuid, uuid.1⟩]

/-- Encode into `slot` (one inode) and stamp the CRC. -/
def encode (d : Dinode) (uuid : Uuid) (slot : Buf) : Exec Buf := do
  let bigtime := decide (d.flags2 &&& diflag2Bigtime ≠ 0)
  let atime ← encodeTime d.atime bigtime
  let mtime ← encodeTime d.mtime bigtime
  let ctime ← encodeTime d.ctime bigtime
  let crtime ← encodeTime d.crtime bigtime
  let b := putFields slot (d.fields uuid atime mtime ctime crtime)
  let b ← copyInto b coreSize d.data
  return Crc.stamp b Off.crc

/-- The size set from the local data fork. -/
def sizeFromData (d : Dinode) : Dinode := { d with size := d.data.length }

end Dinode

namespace Inode

/-- The fields of a never-allocated inode. -/
def freeFields (ino gen : ℕ) (uuid : Uuid) : List Field :=
  [.u16 Off.magic magic,
    .u8 Off.version 3,
    .u32 Off.gen gen,
    .u32 Off.nextUnlinked null32,
    .u64 Off.ino ino,
    ⟨Off.uuid, uuid.1⟩]

/-- Encode a never-allocated inode into `slot`, as every inode of a new chunk is written. -/
def encodeFree (ino gen : ℕ) (uuid : Uuid) (slot : Buf) : Buf :=
  stampFields slot (freeFields ino gen uuid) Off.crc

/-- The data fork of an empty short-form directory with the parent `parent`: a parent past 32
bits takes eight bytes. -/
def emptySfDir (parent : ℕ) : Buf :=
  if parent > 2 ^ 32 - 1 then
    splice (splice (List.replicate 10 0) 1 [1]) 2 (toBeBytes 8 parent)
  else splice (List.replicate 6 0) 2 (toBeBytes 4 parent)

end Inode

/-! ### Read back -/

/-- What a reader finds in the inode `b` with the number `ino`. -/
structure InodeRead (uuid : Uuid) (ino : ℕ) (b : Buf) : Prop where
  crc : Crc.verify b Off.crc = true
  ino : be64 b Off.ino = ino
  uuid : (b.drop Off.uuid).take 16 = uuid.1

section Read

variable {uuid : Uuid} {slot b : Buf} {ino gen : ℕ} {d : Dinode}

/-- Stamped fields that end with the number and the UUID are read back. -/
lemma inodeRead_stampFields {fs : List Field} (hfs : Ascending fs)
    (hino : Field.u64 Off.ino ino ∈ fs) (huuid : (⟨Off.uuid, uuid.1⟩ : Field) ∈ fs)
    (hn : ino < 2 ^ 64) (hs : coreSize ≤ slot.length) :
    InodeRead uuid ino (stampFields slot fs Off.crc) := by
  have hpast : (⟨Off.uuid, uuid.1⟩ : Field).past = coreSize := by
    rw [Field.past, uuid.2]
    rfl
  have hcrc : Off.crc + 4 ≤ Off.uuid := by decide
  have hread := read_stampFields hfs huuid (by rwa [hpast]) (.inr hcrc)
  rw [uuid.2] at hread
  exact ⟨verify_stampFields (le_trans (by decide) hs),
    be64_stampFields hfs hino hn (le_trans (by decide) hs) (.inr (by decide)), hread⟩

/-- A never-allocated inode passes. -/
lemma inodeRead_encodeFree (hn : ino < 2 ^ 64) (hs : coreSize ≤ slot.length) :
    InodeRead uuid ino (Inode.encodeFree ino gen uuid slot) := by
  refine inodeRead_stampFields ?_ (by simp [Inode.freeFields]) (by simp [Inode.freeFields]) hn hs
  refine ascending_of_places ?_
  have hplaces : (Inode.freeFields ino gen uuid).map Field.place
      = [(0, 2), (4, 1), (92, 4), (96, 4), (152, 8), (160, 16)] := by
    simp only [Inode.freeFields, List.map_cons, List.map_nil, Field.place_u8, Field.place_u16,
      Field.place_u32, Field.place_u64, Field.place_mk, uuid.2]
    rfl
  rw [hplaces]
  decide

/-- An allocated inode takes as many bytes as its slot. -/
lemma Dinode.length_encode (h : d.encode uuid slot = .ok b) : b.length = slot.length := by
  rw [Dinode.encode] at h
  obtain ⟨atime, -, h⟩ := bind_eq_ok.mp h
  obtain ⟨mtime, -, h⟩ := bind_eq_ok.mp h
  obtain ⟨ctime, -, h⟩ := bind_eq_ok.mp h
  obtain ⟨crtime, -, h⟩ := bind_eq_ok.mp h
  obtain ⟨b', hcopy, h⟩ := bind_eq_ok.mp h
  rw [copyInto] at hcopy
  split_ifs at hcopy
  · rw [← Except.ok.inj h, ← Except.ok.inj hcopy, Crc.length_stamp, length_splice,
      length_putFields]

/-- The times of the inode count nanoseconds. -/
def Dinode.bigtime (d : Dinode) : Bool := decide (d.flags2 &&& diflag2Bigtime ≠ 0)

/-- **An allocated inode is its fields**, the data fork one more of them, with its times as they
are stored. -/
lemma Dinode.encode_eq (h : d.encode uuid slot = .ok b) : ∃ atime mtime ctime crtime,
    (encodeTime d.atime d.bigtime = .ok atime ∧ encodeTime d.mtime d.bigtime = .ok mtime ∧
      encodeTime d.ctime d.bigtime = .ok ctime ∧ encodeTime d.crtime d.bigtime = .ok crtime) ∧
    b = stampFields slot (d.fields uuid atime mtime ctime crtime ++ [⟨coreSize, d.data⟩])
      Off.crc := by
  rw [Dinode.encode] at h
  obtain ⟨atime, ha, h⟩ := bind_eq_ok.mp h
  obtain ⟨mtime, hm, h⟩ := bind_eq_ok.mp h
  obtain ⟨ctime, hc, h⟩ := bind_eq_ok.mp h
  obtain ⟨crtime, hcr, h⟩ := bind_eq_ok.mp h
  obtain ⟨b', hcopy, h⟩ := bind_eq_ok.mp h
  rw [copyInto] at hcopy
  split_ifs at hcopy
  refine ⟨atime, mtime, ctime, crtime, ⟨ha, hm, hc, hcr⟩, ?_⟩
  rw [← Except.ok.inj h, ← Except.ok.inj hcopy, stampFields, putFields_append, putFields_cons,
    putFields_nil]

/-- The fields of an allocated inode are in order. -/
lemma Dinode.ascending_fields {atime mtime ctime crtime : ℕ} :
    Ascending (d.fields uuid atime mtime ctime crtime ++ [⟨coreSize, d.data⟩]) := by
  refine ascending_of_places ?_
  have hplaces : (d.fields uuid atime mtime ctime crtime
      ++ [(⟨coreSize, d.data⟩ : Field)]).map Field.place
      = [(0, 2), (2, 2), (4, 1), (5, 1), (16, 4), (32, 8), (40, 8), (48, 8), (56, 8), (82, 1),
        (83, 1), (90, 2), (92, 4), (96, 4), (104, 8), (120, 8), (144, 8), (152, 8), (160, 16),
        (176, d.data.length)] := by
    simp only [Dinode.fields, List.map_append, List.map_cons, List.map_nil, Field.place_u8,
      Field.place_u16, Field.place_u32, Field.place_u64, Field.place_mk, uuid.2]
    rfl
  rw [hplaces]
  simp

/-- **An allocated inode passes.** -/
lemma inodeRead_encode (h : d.encode uuid slot = .ok b) (hn : d.ino < 2 ^ 64)
    (hs : coreSize ≤ slot.length) : InodeRead uuid d.ino b := by
  obtain ⟨atime, mtime, ctime, crtime, htimes, hb⟩ := Dinode.encode_eq h
  rw [hb]
  refine inodeRead_stampFields ?_ (by simp [Dinode.fields]) (by simp [Dinode.fields]) hn hs
  exact Dinode.ascending_fields

end Read

end MkfsXfs
