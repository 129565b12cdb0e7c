import MkfsXfs.Structs.Btree

/-!
The allocation group headers (`src/structs/ag.rs`), one sector each after the superblock.

* `Agf`, `Agi`: what the free space and the inode header hold, and how they are encoded.
* `encodeAgfl`: the free list, a ring of slots after its header.
* `Agf.be32_encode`, `Agi.be32_encode`: a field is read back; `Agf.verify_encode`,
  `Agi.verify_encode`: the checksum verifies.
-/

namespace MkfsXfs

open Checked

/-- `XFS_AGF_VERSION`, `XFS_AGI_VERSION`. -/
def agVersion : ℕ := 1

/-- `XFS_AGI_UNLINKED_BUCKETS`. -/
def unlinkedBuckets : ℕ := 64

/-! ### Free space -/

/-- Everything in an AGF. -/
structure Agf where
  /-- AG number -/
  seqno : ℕ
  /-- blocks in this AG -/
  length : ℕ
  /-- by-block free space btree root and level -/
  bnoRoot : ℕ
  bnoLevel : ℕ
  /-- by-size free space btree root and level -/
  cntRoot : ℕ
  cntLevel : ℕ
  /-- reverse mapping btree root, level and block count, zero without one -/
  rmapRoot : ℕ
  rmapLevel : ℕ
  rmapBlocks : ℕ
  /-- refcount btree root, level and block count, zero without one -/
  refcountRoot : ℕ
  refcountLevel : ℕ
  refcountBlocks : ℕ
  /-- free list: first and last slot used, and how many -/
  flfirst : ℕ
  fllast : ℕ
  flcount : ℕ
  /-- free blocks in the free space btrees -/
  freeblks : ℕ
  /-- longest free extent -/
  longest : ℕ
  /-- free space btree blocks beyond the roots -/
  btreeblks : ℕ
  deriving DecidableEq, Repr

namespace Agf

/-- `XFS_AGF_MAGIC`, `XAGF`. -/
def magic : ℕ := 0x58414746

/-! Field offsets in `struct xfs_agf`. -/
namespace Off

def magicnum : ℕ := 0
def versionnum : ℕ := 4
def seqno : ℕ := 8
def length : ℕ := 12
def bnoRoot : ℕ := 16
def cntRoot : ℕ := 20
def rmapRoot : ℕ := 24
def bnoLevel : ℕ := 28
def cntLevel : ℕ := 32
def rmapLevel : ℕ := 36
def flfirst : ℕ := 40
def fllast : ℕ := 44
def flcount : ℕ := 48
def freeblks : ℕ := 52
def longest : ℕ := 56
def btreeblks : ℕ := 60
def uuid : ℕ := 64
def rmapBlocks : ℕ := 80
def refcountBlocks : ℕ := 84
def refcountRoot : ℕ := 88
def refcountLevel : ℕ := 92
def lsn : ℕ := 208
def crc : ℕ := 216
def past : ℕ := 224

end Off

/-- The fields of an AGF. -/
def fields (a : Agf) (uuid : Uuid) : List Field :=
  [.u32 Off.magicnum magic,
    .u32 Off.versionnum agVersion,
    .u32 Off.seqno a.seqno,
    .u32 Off.length a.length,
    .u32 Off.bnoRoot a.bnoRoot,
    .u32 Off.cntRoot a.cntRoot,
    .u32 Off.rmapRoot a.rmapRoot,
    .u32 Off.bnoLevel a.bnoLevel,
    .u32 Off.cntLevel a.cntLevel,
    .u32 Off.rmapLevel a.rmapLevel,
    .u32 Off.flfirst a.flfirst,
    .u32 Off.fllast a.fllast,
    .u32 Off.flcount a.flcount,
    .u32 Off.freeblks a.freeblks,
    .u32 Off.longest a.longest,
    .u32 Off.btreeblks a.btreeblks,
    ⟨Off.uuid, uuid.1⟩,
    .u32 Off.rmapBlocks a.rmapBlocks,
    .u32 Off.refcountBlocks a.refcountBlocks,
    .u32 Off.refcountRoot a.refcountRoot,
    .u32 Off.refcountLevel a.refcountLevel,
    .u64 Off.lsn 0]

/-- Encode into `sector` (zeroed by the caller) and stamp the CRC. -/
def encode (a : Agf) (uuid : Uuid) (sector : Buf) : Buf :=
  stampFields sector (a.fields uuid) Off.crc

/-- Where the fields of an AGF stand. -/
def places : List (ℕ × ℕ) :=
  [(0, 4), (4, 4), (8, 4), (12, 4), (16, 4), (20, 4), (24, 4), (28, 4), (32, 4), (36, 4),
    (40, 4), (44, 4), (48, 4), (52, 4), (56, 4), (60, 4), (64, 16), (80, 4), (84, 4), (88, 4),
    (92, 4), (208, 8)]

variable {a : Agf} {uuid : Uuid} {sector : Buf} {f : Field} {o v : ℕ}

@[simp] lemma length_encode : (a.encode uuid sector).length = sector.length :=
  length_stampFields

lemma map_place_fields : (a.fields uuid).map Field.place = places := by
  simp only [fields, List.map_cons, List.map_nil, Field.place_u32, Field.place_u64,
    Field.place_mk, uuid.2]
  rfl

lemma ascending : Ascending (a.fields uuid) := by
  refine ascending_of_places ?_
  rw [map_place_fields]
  decide

/-- Every field ends before the checksum. -/
lemma past_le_crc (hf : f ∈ a.fields uuid) : f.past ≤ Off.crc := by
  have hplaces : ∀ p ∈ places, p.1 + p.2 ≤ Off.crc := by decide
  have hmem : f.place ∈ (a.fields uuid).map Field.place := List.mem_map_of_mem hf
  rw [map_place_fields] at hmem
  exact hplaces f.place hmem

/-- The checksum verifies. -/
lemma verify_encode (hs : Off.past ≤ sector.length) :
    Crc.verify (a.encode uuid sector) Off.crc = true :=
  verify_stampFields (le_trans (by decide) hs)

/-- A `u32` is read back. -/
lemma be32_encode (hs : Off.past ≤ sector.length) (hf : Field.u32 o v ∈ a.fields uuid)
    (hv : v < 2 ^ 32) : be32 (a.encode uuid sector) o = v := by
  have hcrc : o + 4 ≤ Off.crc := past_le_crc hf
  have hpast : Off.crc ≤ Off.past := by decide
  exact be32_stampFields ascending hf hv (hcrc.trans (hpast.trans hs)) (.inl hcrc)

/-- The UUID is read back. -/
lemma uuid_encode (hs : Off.past ≤ sector.length) :
    ((a.encode uuid sector).drop Off.uuid).take 16 = uuid.1 := by
  have hf : (⟨Off.uuid, uuid.1⟩ : Field) ∈ a.fields uuid := by simp [fields]
  have hcrc := past_le_crc hf
  have hpast : Off.crc ≤ Off.past := by decide
  have hread := read_stampFields ascending hf (hcrc.trans (hpast.trans hs)) (.inl hcrc)
  rwa [uuid.2] at hread

end Agf

/-! ### Inodes -/

/-- Everything in an AGI. -/
structure Agi where
  /-- AG number -/
  seqno : ℕ
  /-- blocks in this AG -/
  length : ℕ
  /-- allocated inodes -/
  count : ℕ
  /-- inode btree root and level -/
  root : ℕ
  level : ℕ
  /-- free inodes -/
  freecount : ℕ
  /-- the most recently allocated chunk's first inode, or `NULLAGINO` -/
  newino : ℕ
  /-- free inode btree root and level, zero without one -/
  freeRoot : ℕ
  freeLevel : ℕ
  /-- inode and free inode btree block counts, zero when not counted -/
  iblocks : ℕ
  fblocks : ℕ
  deriving DecidableEq, Repr

namespace Agi

/-- `XFS_AGI_MAGIC`, `XAGI`. -/
def magic : ℕ := 0x58414749

/-! Field offsets in `struct xfs_agi`. -/
namespace Off

def magicnum : ℕ := 0
def versionnum : ℕ := 4
def seqno : ℕ := 8
def length : ℕ := 12
def count : ℕ := 16
def root : ℕ := 20
def level : ℕ := 24
def freecount : ℕ := 28
def newino : ℕ := 32
def dirino : ℕ := 36
def unlinked : ℕ := 40
def uuid : ℕ := 296
def crc : ℕ := 312
def lsn : ℕ := 320
def freeRoot : ℕ := 328
def freeLevel : ℕ := 332
def iblocks : ℕ := 336
def fblocks : ℕ := 340
def past : ℕ := 344

end Off

/-- The fields before the unlinked lists. -/
def firstFields (a : Agi) : List Field :=
  [.u32 Off.magicnum magic,
    .u32 Off.versionnum agVersion,
    .u32 Off.seqno a.seqno,
    .u32 Off.length a.length,
    .u32 Off.count a.count,
    .u32 Off.root a.root,
    .u32 Off.level a.level,
    .u32 Off.freecount a.freecount,
    .u32 Off.newino a.newino,
    .u32 Off.dirino null32]

/-- The unlinked lists, all empty. -/
def unlinkedFields : List Field :=
  (List.range unlinkedBuckets).map fun i => .u32 (Off.unlinked + 4 * i) null32

/-- The fields after the unlinked lists. -/
def lastFields (a : Agi) (uuid : Uuid) : List Field :=
  [⟨Off.uuid, uuid.1⟩,
    .u64 Off.lsn 0,
    .u32 Off.freeRoot a.freeRoot,
    .u32 Off.freeLevel a.freeLevel,
    .u32 Off.iblocks a.iblocks,
    .u32 Off.fblocks a.fblocks]

/-- The fields of an AGI. -/
def fields (a : Agi) (uuid : Uuid) : List Field :=
  a.firstFields ++ unlinkedFields ++ a.lastFields uuid

/-- Encode into `sector` (zeroed by the caller) and stamp the CRC. -/
def encode (a : Agi) (uuid : Uuid) (sector : Buf) : Buf :=
  stampFields sector (a.fields uuid) Off.crc

/-- Where the fields of an AGI stand. -/
def places : List (ℕ × ℕ) :=
  [(0, 4), (4, 4), (8, 4), (12, 4), (16, 4), (20, 4), (24, 4), (28, 4), (32, 4), (36, 4)] ++
    (List.range unlinkedBuckets).map (fun i => (Off.unlinked + 4 * i, 4)) ++
    [(296, 16), (320, 8), (328, 4), (332, 4), (336, 4), (340, 4)]

variable {a : Agi} {uuid : Uuid} {sector : Buf} {f : Field} {o v : ℕ}

@[simp] lemma length_encode : (a.encode uuid sector).length = sector.length :=
  length_stampFields

lemma map_place_fields : (a.fields uuid).map Field.place = places := by
  have hunlinked : unlinkedFields.map Field.place
      = (List.range unlinkedBuckets).map fun i => (Off.unlinked + 4 * i, 4) := by
    rw [unlinkedFields, List.map_map]
    rfl
  rw [fields, List.map_append, List.map_append, hunlinked]
  simp only [firstFields, lastFields, List.map_cons, List.map_nil, Field.place_u32,
    Field.place_u64, Field.place_mk, uuid.2]
  rfl

lemma ascending : Ascending (a.fields uuid) := by
  refine ascending_of_places ?_
  rw [map_place_fields]
  decide +kernel

/-- Every field stands clear of the checksum, within the structure. -/
lemma clear_of_crc (hf : f ∈ a.fields uuid) :
    (f.past ≤ Off.crc ∨ Off.crc + 4 ≤ f.off) ∧ f.past ≤ Off.past := by
  have hplaces : ∀ p ∈ places,
      (p.1 + p.2 ≤ Off.crc ∨ Off.crc + 4 ≤ p.1) ∧ p.1 + p.2 ≤ Off.past := by decide
  have hmem : f.place ∈ (a.fields uuid).map Field.place := List.mem_map_of_mem hf
  rw [map_place_fields] at hmem
  exact hplaces f.place hmem

/-- The checksum verifies. -/
lemma verify_encode (hs : Off.past ≤ sector.length) :
    Crc.verify (a.encode uuid sector) Off.crc = true :=
  verify_stampFields (le_trans (by decide) hs)

/-- A `u32` is read back. -/
lemma be32_encode (hs : Off.past ≤ sector.length) (hf : Field.u32 o v ∈ a.fields uuid)
    (hv : v < 2 ^ 32) : be32 (a.encode uuid sector) o = v :=
  be32_stampFields ascending hf hv ((clear_of_crc hf).2.trans hs) (clear_of_crc hf).1

/-- The UUID is read back. -/
lemma uuid_encode (hs : Off.past ≤ sector.length) :
    ((a.encode uuid sector).drop Off.uuid).take 16 = uuid.1 := by
  have hf : (⟨Off.uuid, uuid.1⟩ : Field) ∈ a.fields uuid := by simp [fields, lastFields]
  have hclear := clear_of_crc hf
  have hread := read_stampFields ascending hf (hclear.2.trans hs) hclear.1
  rwa [uuid.2] at hread

end Agi

/-! ### The free list -/

namespace Agfl

/-- `XFS_AGFL_MAGIC`, `XAFL`. -/
def magic : ℕ := 0x5841464c

/-! Field offsets in `struct xfs_agfl`; the free list follows the header. -/
namespace Off

def magicnum : ℕ := 0
def seqno : ℕ := 4
def uuid : ℕ := 8
def lsn : ℕ := 24
def crc : ℕ := 32
def bno : ℕ := 36

end Off

/-- The fields of the header. -/
def headerFields (seqno : ℕ) (uuid : Uuid) : List Field :=
  [.u32 Off.magicnum magic,
    .u32 Off.seqno seqno,
    ⟨Off.uuid, uuid.1⟩,
    .u64 Off.lsn 0]

end Agfl

/-- Encode an AGFL into `sector`: the header, then `list` in the slots from `first` on, every
other slot `NULLAGBLOCK`. -/
def encodeAgfl (seqno : ℕ) (uuid : Uuid) (first : ℕ) (list : List ℕ) (sector : Buf) :
    Exec Buf := do
  let b := putFields sector (Agfl.headerFields seqno uuid)
  let bytes ← sub b.length Agfl.Off.bno
  let slots := bytes / 4
  let b := putFields b ((List.range slots).map fun i => .u32 (Agfl.Off.bno + 4 * i) null32)
  let used ← list.zipIdx.mapM fun r => do
    let slot ← mod (first + r.2) slots
    return Field.u32 (Agfl.Off.bno + 4 * slot) r.1
  return Crc.stamp (putFields b used) Agfl.Off.crc

end MkfsXfs
