import MkfsXfs.Error

/-!
What `mkfs.xfs` is asked for and what it works with (`src/geometry.rs`): the constants,
the feature switches, the parameters of the caller and the geometry fixed before a byte is
written.

The parameters keep the machine types of the source, so every value a caller can pass is
one of theirs.  The fields of `Geometry` are natural numbers: `compute` is the only place
that makes one, and its arithmetic is checked there.
-/

namespace MkfsXfs

/-! ### Constants -/

/-- `XFS_MIN_BLOCKSIZE` for a CRC filesystem. -/
def minCrcBlocksize : ℕ := 1024

/-- `XFS_MAX_BLOCKSIZE`. -/
def maxBlocksize : ℕ := 65536

/-- The largest block size whose default log the crate can size. -/
def maxSupportedBlocksize : ℕ := 16384

/-- `XFS_MIN_SECTORSIZE`. -/
def minSectorsize : ℕ := 512

/-- `XFS_MAX_SECTORSIZE`. -/
def maxSectorsize : ℕ := 32768

/-- `XFS_DINODE_MIN_SIZE`. -/
def dinodeMinSize : ℕ := 256

/-- `XFS_DINODE_MAX_SIZE`. -/
def dinodeMaxSize : ℕ := 2048

/-- `XFS_INODE_BIG_CLUSTER_SIZE`. -/
def inodeBigClusterSize : ℕ := 8192

/-- `XFS_INODES_PER_CHUNK`. -/
def inodesPerChunk : ℕ := 64

/-- `XFS_MAX_LOG_BLOCKS`. -/
def maxLogBlocks : ℕ := 1024 * 1024

/-- `XFS_MIN_LOG_BYTES`. -/
def minLogBytes : ℕ := 10 * 1024 * 1024

/-- `XFS_MAX_LOG_BYTES`: kept under `2^31` by a small amount. -/
def maxLogBytes : ℕ := 2 * 1024 * 1024 * 1024 - minLogBytes

/-- `XFS_AG_MIN_BYTES`: 16 MiB. -/
def agMinBytes : ℕ := 2 ^ 24

/-- `XFS_AG_MAX_BYTES`: 1 TiB. -/
def agMaxBytes : ℕ := 2 ^ 40

/-- `NULLAGNUMBER - 1`. -/
def maxAgnumber : ℕ := 0xfffffffe

/-- `XFS_ALLOCBT_AGFL_RESERVE`. -/
def allocbtAgflReserve : ℕ := 4

/-- Bytes before the list in the AGFL sector. -/
def agflHeader : ℕ := 36

def mib : ℕ := 2 ^ 20

def gib : ℕ := 2 ^ 30

def tib : ℕ := 2 ^ 40

/-! ### Parameters -/

/-- The v5 features `mkfs.xfs` turns on or off, with its defaults. -/
structure Features where
  finobt : Bool := true
  rmapbt : Bool := true
  reflink : Bool := true
  inobtcount : Bool := true
  bigtime : Bool := true
  nrext64 : Bool := true
  sparse : Bool := true
  deriving DecidableEq, Repr

/-- What the caller asks for.  Everything left `none` is chosen as `mkfs.xfs` chooses it. -/
structure Params where
  /-- filesystem size in bytes -/
  size : Option UInt64 := none
  blockSize : Option UInt32 := none
  sectorSize : Option UInt32 := none
  inodeSize : Option UInt32 := none
  agcount : Option UInt64 := none
  /-- allocation group size in bytes -/
  agsize : Option UInt64 := none
  imaxpct : Option UInt8 := none
  label : Option String := none
  features : Features := {}
  deriving DecidableEq, Repr

/-- Every number the formatter needs, fixed before a byte is written. -/
structure Geometry where
  blocksize : ℕ
  blocklog : ℕ
  sectsize : ℕ
  sectlog : ℕ
  /-- log sector size: the data sector size, for an internal log -/
  lsectsize : ℕ
  lsectlog : ℕ
  inodesize : ℕ
  inodelog : ℕ
  /-- inodes per block -/
  inopblock : ℕ
  inopblog : ℕ
  dirblocklog : ℕ
  /-- data blocks -/
  dblocks : ℕ
  /-- blocks per allocation group, all but perhaps the last -/
  agsize : ℕ
  agcount : ℕ
  /-- log2 of `agsize`, rounded up: the shift in block and inode numbers -/
  agblklog : ℕ
  imaxpct : ℕ
  logblocks : ℕ
  /-- the AG holding the internal log -/
  logagno : ℕ
  /-- the log's first block within its AG -/
  logAgbno : ℕ
  features : Features
  /-- volume label bytes, zero padded -/
  label : List UInt8
  deriving DecidableEq, Repr

/-! ### Helper functions -/

/-- The zero bits below the lowest one bit of a `w`-bit word. -/
def trailingZeros (w v : ℕ) : ℕ := ((List.range w).takeWhile fun i => !v.testBit i).length

def pow2Log (v : ℕ) : ℕ := trailingZeros 32 v

/-- `div_ceil`: the quotient rounded up. -/
def divCeil (n m : ℕ) : ℕ := (n + m - 1) / m

/-- Round `n` up to a multiple of `m`. -/
def roundup (n m : ℕ) : ℕ := divCeil n m * m

/-- `XFS_AG_MIN_BLOCKS`. -/
def agMinBlocks (blocklog : ℕ) : ℕ := agMinBytes >>> blocklog

/-- `XFS_AG_MAX_BLOCKS`. -/
def agMaxBlocks (blocklog : ℕ) : ℕ := (agMaxBytes - 1) >>> blocklog

open Checked in
/-- The loop of `log2_roundup` from the shift `l` on: shifting by 64 is a panic. -/
def log2RoundupFrom (i : ℕ) : ℕ → ℕ → Exec ℕ
  | 0, _ => .error .panic
  | k + 1, l => if 1 <<< l < i then log2RoundupFrom i k (l + 1) else .ok l

/-- `log2_roundup` (libfrog): the smallest `l` with `1 << l >= i`. -/
def log2Roundup (i : ℕ) : Exec ℕ := log2RoundupFrom i 64 0

end MkfsXfs
