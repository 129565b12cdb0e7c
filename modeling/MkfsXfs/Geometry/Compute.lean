import MkfsXfs.Geometry.Layout

/-!
`Geometry::compute` (`src/geometry.rs`): what `mkfs.xfs` would choose for the parameters
on a device of the given size and sectors.

The function is written as the steps its comments name after the functions of `mkfs.xfs`,
in their order: `validateBlocksize`, `validateSectorsize`, `validateInodesize`,
`validateDatadev`, `calculateInitialAgGeometry` (with `defaultAgGeometry`),
`alignAgGeometry`, `validateAgGeometry`, `calculateImaxpct`, the label,
`calculateLogSize` and `validateSupported`.
-/

namespace MkfsXfs

open Checked

/-- `validate_blocksize`. -/
def validateBlocksize (params : Params) : Exec ℕ := do
  let blocksize := (params.blockSize.map UInt32.toNat).getD 4096
  refuseIf (¬ blocksize.isPowerOfTwo ∨ ¬ (512 ≤ blocksize ∧ blocksize ≤ maxBlocksize))
    (.invalidParams s!"illegal block size {blocksize}")
  refuseIf (blocksize < minCrcBlocksize)
    (.invalidParams
      s!"minimum block size for CRC enabled filesystems is {minCrcBlocksize} bytes")
  refuseIf (blocksize > maxSupportedBlocksize)
    (.unsupported (s!"block size {blocksize}: mkfs.xfs sizes its log from the minimum log size "
      ++ "there, which this crate does not calculate yet"))
  return blocksize

/-- The sector size of `validate_sectorsize`, before its checks. -/
def chooseSectorsize (params : Params) (blocksize logical physicalSector : ℕ) : ℕ :=
  match params.sectorSize with
  | some s => s.toNat
  | none =>
      let physical := max physicalSector logical
      let physical := if physical > maxSectorsize then logical else physical
      if blocksize < physical ∧ blocksize ≥ logical then logical else physical

/-- `validate_sectorsize`. -/
def validateSectorsize (params : Params) (blocksize logicalSector physicalSector : ℕ) :
    Exec ℕ := do
  let logical := max logicalSector minSectorsize
  let sectsize := chooseSectorsize params blocksize logical physicalSector
  refuseIf (¬ sectsize.isPowerOfTwo ∨ ¬ (minSectorsize ≤ sectsize ∧ sectsize ≤ maxSectorsize))
    (.invalidParams s!"illegal sector size {sectsize}")
  refuseIf (blocksize < sectsize)
    (.invalidParams
      s!"block size {blocksize} cannot be smaller than sector size {sectsize}")
  refuseIf (sectsize < logical)
    (.invalidParams s!"illegal sector size {sectsize}; hw sector is {logical}")
  return sectsize

/-- `validate_inodesize`. -/
def validateInodesize (params : Params) (blocksize : ℕ) : Exec ℕ := do
  let inodesize := (params.inodeSize.map UInt32.toNat).getD 512
  let most := min (blocksize / 2) dinodeMaxSize
  refuseIf (¬ inodesize.isPowerOfTwo ∨ inodesize < 512 ∨ inodesize > dinodeMaxSize
      ∨ inodesize > blocksize / 2)
    (.invalidParams
      s!"illegal inode size {inodesize} (512 to {most} with {blocksize}-byte blocks)")
  return inodesize

/-- `validate_datadev`. -/
def validateDatadev (params : Params) (deviceSize blocklog : ℕ) : Exec ℕ := do
  let deviceBlocks := deviceSize >>> blocklog
  let dblocks ← match params.size with
    | some bytes => do
        let b := bytes.toNat >>> blocklog
        refuseIf (b > deviceBlocks)
          (.invalidParams s!"size {bytes} is too large, maximum is {deviceBlocks} blocks")
        pure b
    | none => pure deviceBlocks
  let least := agMinBlocks blocklog
  refuseIf (dblocks < least)
    (.invalidParams s!"size {dblocks} of data subvolume is too small, minimum {least} blocks")
  return dblocks

/-- The shift of `calc_default_ag_geometry` that turns the data blocks into an AG size. -/
def defaultAgShift (blocklog dblocks : ℕ) (multidisk : Bool) : ℕ :=
  let blocksOf := fun bytes : ℕ => bytes >>> blocklog
  if !multidisk ∧ dblocks ≥ blocksOf (128 * mib) then 2
  else
    let s := 5
    let s := if dblocks ≤ blocksOf (512 * gib) then s - 1 else s
    let s := if dblocks ≤ blocksOf (8 * gib) then s - 1 else s
    let s := if dblocks < blocksOf (128 * mib) then s - 1 else s
    let s := if dblocks < blocksOf (64 * mib) then s - 1 else s
    if dblocks < blocksOf (32 * mib) then s - 1 else s

/-- The AG size `calc_default_ag_geometry` picks. -/
def defaultAgSize (blocklog dblocks : ℕ) (multidisk : Bool) : ℕ :=
  let blocksOf := fun bytes : ℕ => bytes >>> blocklog
  let most := agMaxBlocks blocklog
  -- past 32 TiB always the maximum AG size
  if dblocks ≥ blocksOf (32 * tib) then most
  else if !multidisk ∧ dblocks ≥ blocksOf (4 * tib) then most
  else
    let shift := defaultAgShift blocklog dblocks multidisk
    let b := dblocks >>> shift
    if dblocks &&& ((1 <<< shift) - 1) ≠ 0 ∧ b < most then b + 1 else b

/-- `calc_default_ag_geometry` (libxfs/topology.c): AG size and count. -/
def defaultAgGeometry (blocklog dblocks : ℕ) (multidisk : Bool) : Exec (ℕ × ℕ) := do
  let blocks := defaultAgSize blocklog dblocks multidisk
  let whole ← div dblocks blocks
  let rest ← mod dblocks blocks
  return (blocks, whole + if rest ≠ 0 then 1 else 0)

/-- `calculate_initial_ag_geometry`: the AG size and count asked for, or the default. -/
def calculateInitialAgGeometry (params : Params) (blocksize blocklog dblocks : ℕ) :
    Exec (ℕ × ℕ) :=
  match params.agsize, params.agcount with
  | some bytes, _ => do
      let odd ← mod bytes.toNat blocksize
      refuseIf (odd ≠ 0)
        (.invalidParams s!"agsize ({bytes}) not a multiple of fs blk size ({blocksize})")
      let s ← div bytes.toNat blocksize
      refuseIf (s = 0) (.invalidParams "agsize 0")
      let count ← ceilDiv dblocks s
      pure (s, count)
  | none, some n => do
      refuseIf (n.toNat = 0) (.invalidParams "agcount 0")
      let size ← ceilDiv dblocks n.toNat
      pure (size, n.toNat)
  | none, none => defaultAgGeometry blocklog dblocks false

/-- `align_ag_geometry`, with no stripe unit: drop a last AG too small to be one.  Returns
the data blocks and the AG count. -/
def alignAgGeometry (params : Params) (blocklog dblocks agsize agcount : ℕ) :
    Exec (ℕ × ℕ) := do
  let last ← mod dblocks agsize
  let least := agMinBlocks blocklog
  if last ≠ 0 ∧ last < least then do
    refuseIf (params.agcount.isSome)
      (.invalidParams
        s!"last AG size {last} blocks too small, minimum size is {least} blocks")
    let full ← sub agcount 1
    let dblocks ← fit 64 (full * agsize)
    return (dblocks, full)
  else
    return (dblocks, agcount)

/-- `validate_ag_geometry`. -/
def validateAgGeometry (blocklog dblocks agsize agcount : ℕ) : Exec Unit := do
  let least := agMinBlocks blocklog
  let most := agMaxBlocks blocklog
  refuseIf (agsize < least)
    (.invalidParams s!"agsize ({agsize} blocks) too small, need at least {least} blocks")
  refuseIf (agsize > most)
    (.invalidParams s!"agsize ({agsize} blocks) too big, maximum is {most} blocks")
  refuseIf (agsize > dblocks)
    (.invalidParams s!"agsize ({agsize} blocks) too big, data area is {dblocks} blocks")
  refuseIf (agcount > maxAgnumber)
    (.invalidParams s!"{agcount} allocation groups is too many")

/-- `calculate_imaxpct`. -/
def calculateImaxpct (params : Params) (dblocks blocklog : ℕ) : Exec ℕ :=
  match params.imaxpct with
  | some p => do
      refuseIf (p.toNat > 100) (.invalidParams s!"imaxpct {p} is over 100")
      pure p.toNat
  | none =>
      if dblocks < tib >>> blocklog then .ok 25
      else if dblocks < (50 * tib) >>> blocklog then .ok 5
      else .ok 1

/-- The bytes of a label, padded to the 12 the superblock has for them. -/
def padLabel (bytes : List UInt8) : List UInt8 := bytes ++ List.replicate (12 - bytes.length) 0

lemma length_padLabel {bytes : List UInt8} (h : bytes.length ≤ 12) :
    (padLabel bytes).length = 12 := by
  rw [padLabel, List.length_append, List.length_replicate]
  omega

/-- The bytes of an array are as many as it has. -/
lemma length_toList_loop (a : ByteArray) (i : ℕ) (r : List UInt8) :
    (ByteArray.toList.loop a i r).length = r.length + (a.size - i) := by
  induction hk : a.size - i generalizing i r with
  | zero =>
      rw [ByteArray.toList.loop, if_neg (by omega), List.length_reverse, Nat.add_zero]
  | succ k ih =>
      rw [ByteArray.toList.loop, if_pos (by omega), ih (i + 1) _ (by omega), List.length_cons]
      omega

lemma length_toUTF8 (l : String) : l.toUTF8.toList.length = l.utf8ByteSize := by
  rw [ByteArray.toList, length_toList_loop, List.length_nil, Nat.zero_add, Nat.sub_zero]
  rfl

/-- The label of `compute`. -/
def labelBytes (params : Params) : Exec (List UInt8) :=
  match params.label with
  | some l => do
      refuseIf (l.utf8ByteSize > 12)
        (.invalidParams s!"label {debugStr l} is longer than 12 bytes")
      pure (padLabel l.toUTF8.toList)
  | none => .ok (padLabel [])

/-- `calculate_log_size`, for an internal log with no size given. -/
def Geometry.calculateLogSize (g : Geometry) : Exec Geometry := do
  let blocklog := g.blocklog
  refuseIf (g.dblocks < (300 * mib) >>> blocklog)
    (.unsupported "filesystems under 300 MB, whose log is the minimum log size")
  -- the log fits wholly within an AG, less one block
  let usable ← g.agMaxUsable
  let maxLogblocks ← sub usable 1
  -- a 2048:1 filesystem-to-log ratio, the shift losing what leaves 64 bits
  let logblocks := (((g.dblocks <<< blocklog) % 2 ^ 64) / 2048) >>> blocklog
  let logblocks := max logblocks ((64 * mib) >>> blocklog)
  let logblocks := min logblocks maxLogblocks
  let logblocks := min logblocks maxLogBlocks
  let logblocks :=
    if (logblocks <<< blocklog) % 2 ^ 64 > maxLogBytes then maxLogBytes >>> blocklog
    else logblocks
  let room ← sub g.agsize g.preallocBlocks
  refuseIf (logblocks > room)
    (.invalidParams
      s!"internal log size {logblocks} too large, must fit in allocation group")
  let logagno := g.agcount / 2
  if logagno = 0 then do
    -- adjust_ag0_internal_logblocks: room for the root inode chunk and the free list
    let chunk ← fit 32 (inodesPerChunk * g.inodesize)
    let ichunk := chunk >>> blocklog
    let cap ← sub maxLogblocks (ichunk * 4)
    return { g with logagno := logagno, logblocks := min logblocks cap,
                    logAgbno := g.preallocBlocks }
  else
    return { g with logagno := logagno, logblocks := logblocks,
                    logAgbno := g.preallocBlocks }

/-- `validate_supported`: what `mkfs.xfs` refuses without `--unsupported`. -/
def validateSupported (g : Geometry) : Exec Unit := do
  refuseIf (g.dblocks < (300 * mib) >>> g.blocklog)
    (.invalidParams
      "filesystem must be larger than 300MB (mkfs.xfs refuses smaller ones too)")
  refuseIf (g.logblocks < (64 * mib) >>> g.blocklog)
    (.invalidParams "log size must be at least 64MB")
  refuseIf (g.agcount < 2)
    (.invalidParams "filesystem must have at least 2 superblocks for redundancy")

/-- `Geometry::compute`. -/
def Geometry.compute (params : Params) (deviceSize : UInt64)
    (logicalSector physicalSector : UInt32) : Exec Geometry := do
  let f := params.features
  refuseIf (f.inobtcount ∧ !f.finobt)
    (.invalidParams "inobtcount requires finobt (-m inobtcount=1 needs finobt=1)")
  let blocksize ← validateBlocksize params
  let blocklog := pow2Log blocksize
  let sectsize ← validateSectorsize params blocksize logicalSector.toNat physicalSector.toNat
  let sectlog := pow2Log sectsize
  -- validate_dirblocksize: the default only
  let dirblocklog := if blocksize < 4096 then 12 else blocklog
  let inodesize ← validateInodesize params blocksize
  let inodelog := pow2Log inodesize
  let asked ← validateDatadev params deviceSize.toNat blocklog
  let initial ← calculateInitialAgGeometry params blocksize blocklog asked
  let agsize := initial.1
  let aligned ← alignAgGeometry params blocklog asked agsize initial.2
  let dblocks := aligned.1
  let agcount := aligned.2
  validateAgGeometry blocklog dblocks agsize agcount
  let imaxpct ← calculateImaxpct params dblocks blocklog
  let label ← labelBytes params
  let inopblock ← div blocksize inodesize
  let inopblog ← sub blocklog inodelog
  let agblklog ← log2Roundup agsize
  let g : Geometry :=
    { blocksize := blocksize, blocklog := blocklog, sectsize := sectsize, sectlog := sectlog,
      lsectsize := sectsize, lsectlog := sectlog, inodesize := inodesize,
      inodelog := inodelog, inopblock := inopblock, inopblog := inopblog,
      dirblocklog := dirblocklog, dblocks := dblocks, agsize := agsize, agcount := agcount,
      agblklog := agblklog, imaxpct := imaxpct, logblocks := 0, logagno := 0, logAgbno := 0,
      features := f, label := label }
  let g ← g.calculateLogSize
  validateSupported g
  return g

end MkfsXfs
