import MkfsXfs.Structs.Sb

/-!
The blocks of the per-AG btrees and their records (`src/structs/btree.rs`).

* `AllocRec`, `InobtRec`, `RmapRec`: the records.
* `leafBlock`: a root that is a leaf.
* `allocRecs`, `inobtRecs`, `rmapRecs`: the records as they stand in a block.
-/

namespace MkfsXfs

open Checked

/-- `as u32`. -/
def toU32 (n : ℕ) : ℕ := n % 2 ^ 32

/-- A free extent. -/
structure AllocRec where
  /-- first block -/
  start : ℕ
  /-- length in blocks -/
  count : ℕ
  deriving DecidableEq, Repr

/-- An inode chunk. -/
structure InobtRec where
  /-- first inode, within the AG -/
  startino : ℕ
  /-- which groups of four inodes are holes -/
  holemask : ℕ
  /-- inodes present -/
  count : ℕ
  /-- free inodes -/
  freecount : ℕ
  /-- one bit per inode, set for a free one -/
  free : ℕ
  deriving DecidableEq, Repr

/-- A reverse mapping of a special owner. -/
structure RmapRec where
  /-- first block -/
  start : ℕ
  /-- length in blocks -/
  count : ℕ
  /-- `XFS_RMAP_OWN_*` -/
  owner : ℕ
  deriving DecidableEq, Repr

/-! The special owners of the reverse mapping btree, negative numbers as 64-bit words. -/

namespace owner

def fs : ℕ := 2 ^ 64 - 3
def log : ℕ := 2 ^ 64 - 4
def ag : ℕ := 2 ^ 64 - 5
def inobt : ℕ := 2 ^ 64 - 6
def inodes : ℕ := 2 ^ 64 - 7
def refc : ℕ := 2 ^ 64 - 8

end owner

namespace Btree

/-! Magic numbers of the per-AG btrees. -/
namespace Magic

/-- by-block free space, `AB3B` -/
def bno : ℕ := 0x41423342
/-- by-size free space, `AB3C` -/
def cnt : ℕ := 0x41423343
/-- inodes, `IAB3` -/
def ino : ℕ := 0x49414233
/-- free inodes, `FIB3` -/
def fino : ℕ := 0x46494233
/-- reverse mappings, `RMB3` -/
def rmap : ℕ := 0x524d4233
/-- reference counts, `R3FC` -/
def refc : ℕ := 0x52334643

end Magic

/-! Field offsets in a short-form btree block header. -/
namespace Off

def magic : ℕ := 0
def level : ℕ := 4
def numrecs : ℕ := 6
def leftsib : ℕ := 8
def rightsib : ℕ := 12
def blkno : ℕ := 16
def lsn : ℕ := 24
def uuid : ℕ := 32
def owner : ℕ := 48
def crc : ℕ := 52
/-- records start here -/
def recs : ℕ := 56

end Off

/-- Size of a free space record. -/
def allocRec : ℕ := 8

/-- Size of an inode btree record. -/
def inobtRec : ℕ := 16

/-- Size of a reverse mapping record. -/
def rmapRec : ℕ := 24

/-- Size of a refcount record. -/
def refcRec : ℕ := 12

/-- The header fields of a leaf root. -/
def leafFields (magic daddr agno : ℕ) (uuid : Uuid) (numrecs : ℕ) : List Field :=
  [.u32 Off.magic magic,
    .u16 Off.level 0,
    .u16 Off.numrecs numrecs,
    .u32 Off.leftsib null32,
    .u32 Off.rightsib null32,
    .u64 Off.blkno daddr,
    .u64 Off.lsn 0,
    ⟨Off.uuid, uuid.1⟩,
    .u32 Off.owner agno]

/-- A single-level btree block of `blocksize` bytes at disk address `daddr`, holding `recs`
already encoded, with its CRC. -/
def leafBlock (magic daddr agno : ℕ) (uuid : Uuid) (recs : Buf) (numrecs blocksize : ℕ) :
    Exec Buf := do
  let b := putFields (List.replicate blocksize 0) (leafFields magic daddr agno uuid numrecs)
  let b ← copyInto b Off.recs recs
  return Crc.stamp b Off.crc

/-- The fields of a leaf and its records are in order, clear of the checksum. -/
lemma ascending_leaf {magic daddr agno n : ℕ} {uuid : Uuid} {recs : Buf} :
    Ascending (leafFields magic daddr agno uuid n ++ [⟨Off.recs, recs⟩]) := by
  have hplaces : (leafFields magic daddr agno uuid n ++ [(⟨Off.recs, recs⟩ : Field)]).map Field.place
      = [(0, 4), (4, 2), (6, 2), (8, 4), (12, 4), (16, 8), (24, 8), (32, 16), (48, 4),
        (56, recs.length)] := by
    simp only [leafFields, List.map_append, List.map_cons, List.map_nil, Field.place_u16,
      Field.place_u32, Field.place_u64, Field.place_mk, uuid.2]
    rfl
  refine ascending_of_places ?_
  rw [hplaces]
  simp

/-- Encode free space records. -/
def allocRecs (recs : List AllocRec) : Buf :=
  packRecs allocRec (fun r o => [.u32 o r.start, .u32 (o + 4) r.count]) recs

/-- Encode inode btree records.  Without sparse inodes the free count is a 32-bit field where
the sparse format keeps the hole mask, the count and the free count. -/
def inobtRecs (recs : List InobtRec) (sparse : Bool) : Buf :=
  packRecs inobtRec (fun r o => .u32 o r.startino ::
    (if sparse then
      [.u16 (o + 4) r.holemask, .u8 (o + 6) r.count, .u8 (o + 7) r.freecount,
        .u64 (o + 8) r.free]
    else [.u32 (o + 4) r.freecount, .u64 (o + 8) r.free])) recs

/-- Encode reverse mapping records. -/
def rmapRecs (recs : List RmapRec) : Buf :=
  packRecs rmapRec (fun r o =>
    [.u32 o r.start, .u32 (o + 4) r.count, .u64 (o + 8) r.owner, .u64 (o + 16) 0]) recs

end Btree

end MkfsXfs
