import MkfsXfs.Geometry.Params

/-!
The fixed positions of a geometry (`src/geometry.rs`, the methods of `Geometry`): the AG
lengths, the header blocks, the btree roots, the free list and the root inode chunk.

Sums, products and quotients are read on the natural numbers.  The subtractions are
checked, since the numbers they are given decide whether they stay above zero.
-/

namespace MkfsXfs

open Checked

namespace Geometry

/-- Bytes per filesystem block. -/
def bs (g : Geometry) : ℕ := g.blocksize

/-- Blocks in allocation group `agno`: the last may be short. -/
def agBlocks (g : Geometry) (agno : ℕ) : Exec ℕ := do
  let last ← sub g.agcount 1
  if agno = last then do
    let before ← fit 64 (agno * g.agsize)
    sub g.dblocks before
  else
    .ok g.agsize

/-- `XFS_AGFL_BLOCK`: blocks taken by the four header sectors. -/
def headerBlocks (g : Geometry) : ℕ := divCeil (4 * g.sectsize) g.bs

/-- `XFS_BNO_BLOCK`. -/
def bnoBlock (g : Geometry) : ℕ := g.headerBlocks

/-- `XFS_CNT_BLOCK`. -/
def cntBlock (g : Geometry) : ℕ := g.bnoBlock + 1

/-- `XFS_IBT_BLOCK`. -/
def ibtBlock (g : Geometry) : ℕ := g.cntBlock + 1

/-- `XFS_FIBT_BLOCK`. -/
def fibtBlock (g : Geometry) : ℕ := g.ibtBlock + 1

/-- `XFS_RMAP_BLOCK`. -/
def rmapBlock (g : Geometry) : ℕ :=
  if g.features.finobt then g.fibtBlock + 1 else g.ibtBlock + 1

/-- `xfs_refc_block`. -/
def refcBlock (g : Geometry) : ℕ :=
  if g.features.rmapbt then g.rmapBlock + 1
  else if g.features.finobt then g.fibtBlock + 1
  else g.ibtBlock + 1

/-- `xfs_prealloc_blocks`: the headers and btree roots at the start of every AG. -/
def preallocBlocks (g : Geometry) : ℕ :=
  if g.features.reflink then g.refcBlock + 1
  else if g.features.rmapbt then g.rmapBlock + 1
  else if g.features.finobt then g.fibtBlock + 1
  else g.ibtBlock + 1

/-- `xfs_alloc_ag_max_usable`. -/
def agMaxUsable (g : Geometry) : Exec ℕ :=
  let f := g.features
  let blocks := g.headerBlocks + allocbtAgflReserve + 3
    + f.finobt.toNat + f.rmapbt.toNat + f.reflink.toNat
  sub g.agsize blocks

/-- `xfs_agfl_size`: free list slots in the AGFL sector. -/
def agflSize (g : Geometry) : Exec ℕ := do
  let bytes ← sub g.sectsize agflHeader
  return bytes / 4

/-- `xfs_alloc_min_freelist` for an AG whose btrees are all one level. -/
def minFreelist (g : Geometry) : ℕ := 2 + 2 + if g.features.rmapbt then 2 else 0

/-- Blocks in an inode chunk. -/
def chunkBlocks (g : Geometry) : ℕ := (inodesPerChunk * g.inodesize) >>> g.blocklog

/-- Inode cluster alignment in blocks. -/
def clusterAlign (g : Geometry) : ℕ :=
  (inodeBigClusterSize * (g.inodesize / dinodeMinSize)) >>> g.blocklog

/-- `sb_inoalignmt`. -/
def inoalignmt (g : Geometry) : ℕ :=
  if g.features.sparse then g.chunkBlocks else g.clusterAlign

/-- `sb_rextsize`: 4 KiB or one block, whichever is larger. -/
def rextsize (g : Geometry) : ℕ := if g.blocksize < 4096 then 4096 >>> g.blocklog else 1

/-- The log stripe unit in bytes, 0 for none: one block for a log whose sector is larger than
a log record header. -/
def lsunitBytes (g : Geometry) : ℕ := if g.lsectsize > 512 then g.blocksize else 0

/-- `sb_logsunit`: the stripe unit, or 1 for a log without one. -/
def logsunit (g : Geometry) : ℕ :=
  match g.lsunitBytes with
  | 0 => 1
  | n => n

/-- `sb_spino_align`. -/
def spinoAlign (g : Geometry) : ℕ := if g.features.sparse then g.clusterAlign else 0

/-- `xfs_ialloc_calc_rootino`: where the root inode chunk goes in AG 0. -/
def rootChunkAgbno (g : Geometry) : ℕ :=
  let f := g.features
  let first := g.headerBlocks + 2 + 1 + g.minFreelist
  let first := first + (f.finobt.toNat + f.rmapbt.toNat + f.reflink.toNat)
  let first := if g.logagno = 0 then first + g.logblocks else first
  let align := g.inoalignmt
  if align > 1 then roundup first align else first

/-- Free blocks before the root inode chunk is allocated, as the secondary superblocks record
them. -/
def initialFdblocks (g : Geometry) : Exec ℕ := do
  let heads ← fit 64 (g.agcount * g.preallocBlocks)
  let rest ← sub g.dblocks heads
  sub rest g.logblocks

/-- The roots after the headers: one block for each of the three btrees every AG has, and
one for each feature that adds a btree. -/
lemma preallocBlocks_eq (g : Geometry) :
    g.preallocBlocks = g.headerBlocks + 3
      + (g.features.finobt.toNat + g.features.rmapbt.toNat + g.features.reflink.toNat) := by
  simp only [preallocBlocks, refcBlock, rmapBlock, fibtBlock, ibtBlock, cntBlock, bnoBlock]
  cases g.features.finobt <;> cases g.features.rmapbt <;> cases g.features.reflink <;>
    simp

/-- The header blocks are the first of the preallocated ones. -/
lemma headerBlocks_le (g : Geometry) : g.headerBlocks ≤ g.preallocBlocks := by
  rw [preallocBlocks_eq]
  omega

/-- `xfs_alloc_ag_max_usable` keeps four blocks back beyond the preallocated ones. -/
lemma agMaxUsable_eq (g : Geometry) : g.agMaxUsable = sub g.agsize (g.preallocBlocks + 4) := by
  rw [agMaxUsable, preallocBlocks_eq, allocbtAgflReserve]
  congr 1
  omega

/-- The free list and the root chunk start where the preallocated blocks end. -/
lemma rootChunkAgbno_eq (g : Geometry) (hlog : g.logagno ≠ 0) :
    g.rootChunkAgbno = if g.inoalignmt > 1
      then roundup (g.preallocBlocks + g.minFreelist) g.inoalignmt
      else g.preallocBlocks + g.minFreelist := by
  have h : g.headerBlocks + 2 + 1 + g.minFreelist
      + (g.features.finobt.toNat + g.features.rmapbt.toNat + g.features.reflink.toNat)
      = g.preallocBlocks + g.minFreelist := by
    rw [preallocBlocks_eq]; omega
  simp only [rootChunkAgbno, if_neg hlog, h]

/-- The AGs before the last have the nominal length. -/
lemma agBlocks_of_lt {g : Geometry} {agno : ℕ} (h : agno + 1 < g.agcount) :
    g.agBlocks agno = .ok g.agsize := by
  rw [agBlocks, sub_of_le (by omega), ok_bind, if_neg (by omega)]

/-- The last AG has what the others leave, when they leave something. -/
lemma agBlocks_last_eq_ok {g : Geometry} {agno len : ℕ} (h : agno + 1 = g.agcount)
    (hd : g.dblocks < 2 ^ 64) :
    g.agBlocks agno = .ok len ↔
      agno * g.agsize ≤ g.dblocks ∧ len = g.dblocks - agno * g.agsize := by
  rw [agBlocks, sub_of_le (by omega), ok_bind, if_pos (by omega), bind_eq_ok]
  constructor
  · rintro ⟨b, hb, hlen⟩
    obtain ⟨-, rfl⟩ := fit_eq_ok.mp hb
    exact sub_eq_ok.mp hlen
  · intro hlen
    exact ⟨_, fit_of_lt (lt_of_le_of_lt hlen.1 hd), sub_eq_ok.mpr hlen⟩

end Geometry

end MkfsXfs
