import MkfsXfs.Crc
import MkfsXfs.Fields
import MkfsXfs.Geometry.Address
import MkfsXfs.Log.Record

/-!
The superblock (`src/structs/sb.rs`).

* `Sb.Off`, `Sb.Version`: the field offsets and the feature bits.
* `SbState`: the fields that differ between the primary superblock and the secondaries, and
  between the start and the end of a format.
* `Sb.encode`: the superblock of a geometry.  A field takes the low bytes of its number,
  which is how the source narrows it.
-/

namespace MkfsXfs

open Checked

/-- `NULLAGBLOCK`, `NULLAGINO`. -/
def null32 : ℕ := 2 ^ 32 - 1

/-- `NULLFSINO`. -/
def null64 : ℕ := 2 ^ 64 - 1

namespace Sb

/-- `XFS_SB_MAGIC`, `XFSB`. -/
def magic : ℕ := 0x58465342

/-! Field offsets in `struct xfs_dsb`. -/
namespace Off

def magicnum : ℕ := 0
def blocksize : ℕ := 4
def dblocks : ℕ := 8
def rblocks : ℕ := 16
def rextents : ℕ := 24
def uuid : ℕ := 32
def logstart : ℕ := 48
def rootino : ℕ := 56
def rbmino : ℕ := 64
def rsumino : ℕ := 72
def rextsize : ℕ := 80
def agblocks : ℕ := 84
def agcount : ℕ := 88
def rbmblocks : ℕ := 92
def logblocks : ℕ := 96
def versionnum : ℕ := 100
def sectsize : ℕ := 102
def inodesize : ℕ := 104
def inopblock : ℕ := 106
def fname : ℕ := 108
def blocklog : ℕ := 120
def sectlog : ℕ := 121
def inodelog : ℕ := 122
def inopblog : ℕ := 123
def agblklog : ℕ := 124
def rextslog : ℕ := 125
def inprogress : ℕ := 126
def imaxPct : ℕ := 127
def icount : ℕ := 128
def ifree : ℕ := 136
def fdblocks : ℕ := 144
def frextents : ℕ := 152
def uquotino : ℕ := 160
def gquotino : ℕ := 168
def qflags : ℕ := 176
def flags : ℕ := 178
def sharedVn : ℕ := 179
def inoalignmt : ℕ := 180
def unit : ℕ := 184
def width : ℕ := 188
def dirblklog : ℕ := 192
def logsectlog : ℕ := 193
def logsectsize : ℕ := 194
def logsunit : ℕ := 196
def features2 : ℕ := 200
def badFeatures2 : ℕ := 204
def featuresCompat : ℕ := 208
def featuresRoCompat : ℕ := 212
def featuresIncompat : ℕ := 216
def featuresLogIncompat : ℕ := 220
def crc : ℕ := 224
def spinoAlign : ℕ := 228
def pquotino : ℕ := 232
def lsn : ℕ := 240
def metaUuid : ℕ := 248
/-- End of the fields written for a filesystem without metadir. -/
def past : ℕ := 264

end Off

namespace Version

/-! `sb_versionnum` bits. -/

def v5 : ℕ := 5
def nlinkbit : ℕ := 0x20
def alignbit : ℕ := 0x80
def logv2bit : ℕ := 0x400
def sectorbit : ℕ := 0x800
def extflgbit : ℕ := 0x1000
def dirv2bit : ℕ := 0x2000
def morebitsbit : ℕ := 0x8000

/-! `sb_features2` bits. -/

def f2Lazysbcount : ℕ := 0x2
def f2Attr2 : ℕ := 0x8
def f2Projid32 : ℕ := 0x80
def f2Crc : ℕ := 0x100

/-! `sb_features_ro_compat` bits. -/

def roFinobt : ℕ := 0x1
def roRmapbt : ℕ := 0x2
def roReflink : ℕ := 0x4
def roInobtcnt : ℕ := 0x8

/-! `sb_features_incompat` bits. -/

def inFtype : ℕ := 0x1
def inSpinodes : ℕ := 0x2
def inMetaUuid : ℕ := 0x4
def inBigtime : ℕ := 0x8
def inNeedsrepair : ℕ := 0x10
def inNrext64 : ℕ := 0x20

end Version

end Sb

/-- The fields that differ between the primary superblock and the secondaries, and between
the start and the end of a format. -/
structure SbState where
  /-- filesystem UUID -/
  uuid : Uuid
  /-- root directory inode, or `NULLFSINO` -/
  rootino : ℕ
  /-- realtime bitmap inode, or `NULLFSINO` -/
  rbmino : ℕ
  /-- realtime summary inode, or `NULLFSINO` -/
  rsumino : ℕ
  /-- allocated inodes -/
  icount : ℕ
  /-- free inodes -/
  ifree : ℕ
  /-- free data blocks -/
  fdblocks : ℕ
  /-- `mkfs` has not finished -/
  inprogress : Bool

namespace Sb

/-- The geometry has sectors larger than a basic block. -/
def wideSectors (g : Geometry) : Bool := decide (g.sectsize > 512 ∨ g.lsectsize > 512)

/-- `sb_versionnum`. -/
def versionnum (g : Geometry) : ℕ :=
  let v := Version.v5 ||| Version.nlinkbit ||| Version.extflgbit ||| Version.dirv2bit
  let v := v ||| (Version.alignbit ||| Version.logv2bit)
  let v := if wideSectors g then v ||| Version.sectorbit else v
  v ||| Version.morebitsbit

/-- `sb_features2`, and `sb_bad_features2`. -/
def features2 : ℕ :=
  Version.f2Lazysbcount ||| Version.f2Projid32 ||| Version.f2Crc ||| Version.f2Attr2

/-- `sb_features_ro_compat`. -/
def roCompat (g : Geometry) : ℕ :=
  let f := g.features
  let r := if f.finobt then Version.roFinobt else 0
  let r := if f.rmapbt then r ||| Version.roRmapbt else r
  let r := if f.reflink then r ||| Version.roReflink else r
  if f.inobtcount then r ||| Version.roInobtcnt else r

/-- `sb_features_incompat`. -/
def incompat (g : Geometry) : ℕ :=
  let f := g.features
  let r := Version.inFtype
  let r := if f.bigtime then r ||| Version.inBigtime else r
  let r := if f.sparse then r ||| Version.inSpinodes else r
  if f.nrext64 then r ||| Version.inNrext64 else r

/-- The fields before the log's sector size, `dirblklog` being `sb_dirblklog`. -/
def firstFields (g : Geometry) (s : SbState) (dirblklog : ℕ) : List Field :=
  [.u32 Off.magicnum magic,
    .u32 Off.blocksize g.blocksize,
    .u64 Off.dblocks g.dblocks,
    .u64 Off.rblocks 0,
    .u64 Off.rextents 0,
    ⟨Off.uuid, s.uuid.1⟩,
    .u64 Off.logstart g.logstart,
    .u64 Off.rootino s.rootino,
    .u64 Off.rbmino s.rbmino,
    .u64 Off.rsumino s.rsumino,
    .u32 Off.rextsize g.rextsize,
    .u32 Off.agblocks g.agsize,
    .u32 Off.agcount g.agcount,
    .u32 Off.rbmblocks 0,
    .u32 Off.logblocks g.logblocks,
    .u16 Off.versionnum (versionnum g),
    .u16 Off.sectsize g.sectsize,
    .u16 Off.inodesize g.inodesize,
    .u16 Off.inopblock g.inopblock,
    ⟨Off.fname, g.label⟩,
    .u8 Off.blocklog g.blocklog,
    .u8 Off.sectlog g.sectlog,
    .u8 Off.inodelog g.inodelog,
    .u8 Off.inopblog g.inopblog,
    .u8 Off.agblklog g.agblklog,
    .u8 Off.rextslog 0,
    .u8 Off.inprogress s.inprogress.toNat,
    .u8 Off.imaxPct g.imaxpct,
    .u64 Off.icount s.icount,
    .u64 Off.ifree s.ifree,
    .u64 Off.fdblocks s.fdblocks,
    .u64 Off.frextents 0,
    .u64 Off.uquotino 0,
    .u64 Off.gquotino 0,
    .u32 Off.inoalignmt g.inoalignmt,
    .u32 Off.unit 0,
    .u32 Off.width 0,
    .u8 Off.dirblklog dirblklog]

/-- The log's sector size, left out for sectors of a basic block. -/
def logsectFields (g : Geometry) : List Field :=
  if wideSectors g then
    [.u8 Off.logsectlog g.lsectlog,
      .u16 Off.logsectsize g.lsectsize]
  else []

/-- The fields after the log's sector size. -/
def lastFields (g : Geometry) : List Field :=
  [.u32 Off.logsunit g.logsunit,
    .u32 Off.features2 features2,
    .u32 Off.badFeatures2 features2,
    .u32 Off.featuresCompat 0,
    .u32 Off.featuresRoCompat (roCompat g),
    .u32 Off.featuresIncompat (incompat g),
    .u32 Off.featuresLogIncompat 0,
    .u32 Off.spinoAlign g.spinoAlign,
    .u64 Off.pquotino 0,
    .u64 Off.lsn 0]

/-- The fields of the superblock. -/
def fields (g : Geometry) (s : SbState) (dirblklog : ℕ) : List Field :=
  firstFields g s dirblklog ++ logsectFields g ++ lastFields g

/-- Encode a superblock into `sector` (one sector, zeroed by the caller) and stamp its CRC.
`sb_meta_uuid` is written only with the META_UUID feature. -/
def encode (g : Geometry) (s : SbState) (sector : Buf) : Exec Buf := do
  let dirblklog ← sub g.dirblocklog g.blocklog
  let b := putFields sector (fields g s dirblklog)
  return Crc.stamp (b.take g.sectsize) Off.crc ++ b.drop g.sectsize

end Sb

end MkfsXfs
