import MkfsXfs.Inspect.Geo
import MkfsXfs.Structs.Ag
import MkfsXfs.Structs.Inode

/-!
Metadata as a list of named fields (`src/inspect.rs`): the superblock, the AG headers and
the inodes, each field with its value as text.

* `Dump`: the fields, in on-disk order, each with how a difference in it is judged.
* `slice`: a part of a buffer, `byteAt_slice`, `slice_putFields` and their kin what is in it.
* `dumpSb`, `dumpAgf`, `dumpAgi`, `dumpAgfl`, `dumpInode`: the fields of one structure.
-/

namespace MkfsXfs

namespace Inspect

/-- How a field's difference is judged. -/
inductive Class where
  /-- a real difference in the filesystem -/
  | structural
  /-- the filesystem UUID -/
  | identity
  /-- random or clock-derived, and the checksums that cover them -/
  | incidental
  deriving DecidableEq, Repr

/-- One named value. -/
structure Entry where
  /-- where it is -/
  key : String
  /-- its value, rendered -/
  value : String
  /-- how a difference in it is judged -/
  judged : Class
  deriving DecidableEq, Repr

/-- Everything read, in on-disk order. -/
abbrev Dump := List Entry

/-! ### Values as text -/

/-- The digits of a number in the given base, at least `width` of them. -/
def digits (base width n : ℕ) : String :=
  let ds := Nat.toDigits base n
  String.ofList (List.replicate (width - ds.length) '0' ++ ds)

/-- `{:#x}`. -/
def hex (n : ℕ) : String := "0x" ++ digits 16 0 n

/-- The bytes in hexadecimal, two digits each. -/
def hexBytes (b : Buf) : String := String.join (b.map fun x => digits 16 2 x.toNat)

/-- The bytes in hexadecimal up to the last that is not zero. -/
def hexTrimmed (b : Buf) : String :=
  hexBytes (b.reverse.dropWhile fun x => x == 0).reverse

/-- The slice `b[lo..hi]`. -/
def slice (b : Buf) (lo hi : ℕ) : Buf := (b.drop lo).take (hi - lo)

section Slices

variable {b : Buf} {lo hi o : ℕ}

lemma byteAt_slice (h : o < hi - lo) : byteAt (slice b lo hi) o = byteAt b (lo + o) := by
  rw [slice, byteAt_take h, byteAt_drop]

lemma be16_slice (h : o + 2 ≤ hi - lo) : be16 (slice b lo hi) o = be16 b (lo + o) := by
  rw [be16, be16, byteAt_slice (by omega), byteAt_slice (by omega), Nat.add_assoc]

lemma be32_slice (h : o + 4 ≤ hi - lo) : be32 (slice b lo hi) o = be32 b (lo + o) :=
  be32_congr fun k hk => by rw [byteAt_slice (by omega), Nat.add_assoc]

lemma be64_slice (h : o + 8 ≤ hi - lo) : be64 (slice b lo hi) o = be64 b (lo + o) :=
  be64_congr fun k hk => by rw [byteAt_slice (by omega), Nat.add_assoc]

lemma length_slice (h : hi ≤ b.length) : (slice b lo hi).length = hi - lo := by
  rw [slice, List.length_take, List.length_drop]
  omega

/-- A field that fills the slice is the slice. -/
lemma slice_putFields {fs : List Field} {data : Buf} (hfs : Ascending fs)
    (hf : (⟨lo, data⟩ : Field) ∈ fs) (hhi : hi = lo + data.length) (hb : hi ≤ b.length) :
    slice (putFields b fs) lo hi = data := by
  subst hhi
  have hread := read_putFields hfs hf hb
  rwa [slice, Nat.add_sub_cancel_left]

/-- The slice that was written. -/
lemma slice_splice_self {off : ℕ} {data : Buf} (hb : off + data.length ≤ b.length) :
    slice (splice b off data) off (off + data.length) = data := by
  have hlen : (slice (splice b off data) off (off + data.length)).length = data.length := by
    rw [length_slice (by rwa [length_splice]), Nat.add_sub_cancel_left]
  refine Buf.ext hlen fun i hi => ?_
  rw [hlen] at hi
  rw [byteAt_slice (by omega), byteAt_splice_of_mem (by omega) (by omega) (by omega),
    Nat.add_sub_cancel_left]

/-- A slice apart from what was written. -/
lemma slice_splice_of_disjoint {off : ℕ} {data : Buf} (hb : hi ≤ b.length)
    (h : hi ≤ off ∨ off + data.length ≤ lo) :
    slice (splice b off data) lo hi = slice b lo hi := by
  have hlen : (slice (splice b off data) lo hi).length = hi - lo :=
    length_slice (by rwa [length_splice])
  refine Buf.ext (by rw [hlen, length_slice hb]) fun i hi' => ?_
  rw [hlen] at hi'
  rw [byteAt_slice hi', byteAt_slice hi', byteAt_splice_of_not_mem (by omega)]

end Slices

/-- A UUID, in groups of 4, 2, 2, 2 and 6 bytes. -/
def uuidStr (b : Buf) : String :=
  String.intercalate "-" [hexBytes (slice b 0 4), hexBytes (slice b 4 6), hexBytes (slice b 6 8),
    hexBytes (slice b 8 10), hexBytes (slice b 10 16)]

/-- A structural field of the structure `p`. -/
def entry (p name value : String) : Entry := ⟨s!"{p}.{name}", value, .structural⟩

/-- The UUID at `off` of the structure `p`. -/
def uuidEntry (p : String) (b : Buf) (off : ℕ) : Entry :=
  ⟨s!"{p}.uuid", uuidStr (slice b off (off + 16)), .identity⟩

/-- The checksum, and whether it verifies. -/
def crcFields (p : String) (b : Buf) (off : ℕ) : Dump :=
  [⟨s!"{p}.crc", "0x" ++ digits 16 8 (le32 b off), .incidental⟩,
    entry p "crc_ok" (toString (Crc.verify b off))]

/-- The fields of a table of names and offsets, each read and rendered the same way. -/
def table (p : String) (render : ℕ → String) (names : List (String × ℕ)) : Dump :=
  names.map fun (name, off) => entry p name (render off)

/-! ### The superblock -/

section Superblock

open Sb

/-- The superblock in `b`. -/
def dumpSb (p : String) (b : Buf) (sectsize : ℕ) : Dump :=
  let dec8 := fun o => toString (byteAt b o).toNat
  let dec16 := fun o => toString (be16 b o)
  let dec32 := fun o => toString (be32 b o)
  let dec64 := fun o => toString (be64 b o)
  let hex16 := fun o => hex (be16 b o)
  let hex32 := fun o => hex (be32 b o)
  table p dec32 [("magicnum", Off.magicnum), ("blocksize", Off.blocksize)] ++
  table p dec64 [("dblocks", Off.dblocks), ("rblocks", Off.rblocks),
    ("rextents", Off.rextents)] ++
  [uuidEntry p b Off.uuid] ++
  table p dec64 [("logstart", Off.logstart), ("rootino", Off.rootino),
    ("rbmino", Off.rbmino), ("rsumino", Off.rsumino)] ++
  table p dec32 [("rextsize", Off.rextsize), ("agblocks", Off.agblocks),
    ("agcount", Off.agcount), ("rbmblocks", Off.rbmblocks), ("logblocks", Off.logblocks)] ++
  table p hex16 [("versionnum", Off.versionnum)] ++
  table p dec16 [("sectsize", Off.sectsize), ("inodesize", Off.inodesize),
    ("inopblock", Off.inopblock)] ++
  [entry p "fname" (hexTrimmed (slice b Off.fname (Off.fname + 12)))] ++
  table p dec8 [("blocklog", Off.blocklog), ("sectlog", Off.sectlog),
    ("inodelog", Off.inodelog), ("inopblog", Off.inopblog), ("agblklog", Off.agblklog),
    ("rextslog", Off.rextslog), ("inprogress", Off.inprogress), ("imax_pct", Off.imaxPct)] ++
  table p dec64 [("icount", Off.icount), ("ifree", Off.ifree), ("fdblocks", Off.fdblocks),
    ("frextents", Off.frextents), ("uquotino", Off.uquotino), ("gquotino", Off.gquotino)] ++
  table p dec16 [("qflags", Off.qflags)] ++
  table p dec8 [("flags", Off.flags), ("shared_vn", Off.sharedVn)] ++
  table p dec32 [("inoalignmt", Off.inoalignmt), ("unit", Off.unit), ("width", Off.width)] ++
  table p dec8 [("dirblklog", Off.dirblklog), ("logsectlog", Off.logsectlog)] ++
  table p dec16 [("logsectsize", Off.logsectsize)] ++
  table p dec32 [("logsunit", Off.logsunit)] ++
  table p hex32 [("features2", Off.features2), ("bad_features2", Off.badFeatures2),
    ("features_compat", Off.featuresCompat), ("features_ro_compat", Off.featuresRoCompat),
    ("features_incompat", Off.featuresIncompat),
    ("features_log_incompat", Off.featuresLogIncompat)] ++
  table p dec32 [("spino_align", Off.spinoAlign)] ++
  table p dec64 [("pquotino", Off.pquotino), ("lsn", Off.lsn)] ++
  [entry p "meta_uuid" (hexTrimmed (slice b Off.metaUuid (Off.metaUuid + 16))),
    entry p "tail" (hexTrimmed (slice b Off.past sectsize))] ++
  crcFields p (b.take sectsize) Off.crc

end Superblock

/-! ### The AG headers -/

/-- The AGF in `b`. -/
def dumpAgf (p : String) (b : Buf) : Dump :=
  let dec32 := fun o => toString (be32 b o)
  table p dec32 [("magicnum", Agf.Off.magicnum), ("versionnum", Agf.Off.versionnum),
    ("seqno", Agf.Off.seqno), ("length", Agf.Off.length), ("bnoroot", Agf.Off.bnoRoot),
    ("cntroot", Agf.Off.cntRoot), ("rmaproot", Agf.Off.rmapRoot),
    ("bnolevel", Agf.Off.bnoLevel), ("cntlevel", Agf.Off.cntLevel),
    ("rmaplevel", Agf.Off.rmapLevel), ("flfirst", Agf.Off.flfirst),
    ("fllast", Agf.Off.fllast), ("flcount", Agf.Off.flcount),
    ("freeblks", Agf.Off.freeblks), ("longest", Agf.Off.longest),
    ("btreeblks", Agf.Off.btreeblks), ("rmapblocks", Agf.Off.rmapBlocks),
    ("refcntblocks", Agf.Off.refcountBlocks), ("refcntroot", Agf.Off.refcountRoot),
    ("refcntlevel", Agf.Off.refcountLevel)] ++
  [uuidEntry p b Agf.Off.uuid,
    entry p "spare" (hexTrimmed (slice b (Agf.Off.refcountLevel + 4) Agf.Off.lsn)),
    entry p "lsn" (toString (be64 b Agf.Off.lsn)),
    entry p "tail" (hexTrimmed (b.drop (Agf.Off.crc + 4)))] ++
  crcFields p b Agf.Off.crc

/-- The AGI in `b`. -/
def dumpAgi (p : String) (b : Buf) : Dump :=
  let dec32 := fun o => toString (be32 b o)
  let unlinked := ((List.range 64).map fun i => be32 b (Agi.Off.unlinked + 4 * i)).filter
    fun v => v ≠ null32
  table p dec32 [("magicnum", Agi.Off.magicnum), ("versionnum", Agi.Off.versionnum),
    ("seqno", Agi.Off.seqno), ("length", Agi.Off.length), ("count", Agi.Off.count),
    ("root", Agi.Off.root), ("level", Agi.Off.level), ("freecount", Agi.Off.freecount),
    ("newino", Agi.Off.newino), ("dirino", Agi.Off.dirino), ("free_root", Agi.Off.freeRoot),
    ("free_level", Agi.Off.freeLevel), ("iblocks", Agi.Off.iblocks),
    ("fblocks", Agi.Off.fblocks)] ++
  [entry p "unlinked" (String.intercalate "," (unlinked.map toString)),
    uuidEntry p b Agi.Off.uuid,
    entry p "lsn" (toString (be64 b Agi.Off.lsn)),
    entry p "pad" (toString (be32 b (Agi.Off.crc + 4))),
    entry p "tail" (hexTrimmed (b.drop Agi.Off.past))] ++
  crcFields p b Agi.Off.crc

/-- The slots of the AGFL in `b`. -/
def agflSlots (b : Buf) : List ℕ :=
  (List.range ((b.length - Agfl.Off.bno) / 4)).map fun i => be32 b (Agfl.Off.bno + 4 * i)

/-- The AGFL in `b`. -/
def dumpAgfl (p : String) (b : Buf) : Dump :=
  let list := (agflSlots b).zipIdx.filter fun r => r.1 ≠ null32
  [entry p "magicnum" (toString (be32 b Agfl.Off.magicnum)),
    entry p "seqno" (toString (be32 b Agfl.Off.seqno)),
    uuidEntry p b Agfl.Off.uuid,
    entry p "lsn" (toString (be64 b Agfl.Off.lsn)),
    entry p "bno" (String.intercalate "," (list.map fun (v, i) => s!"{i}:{v}"))] ++
  crcFields p b Agfl.Off.crc

/-! ### Inodes -/

section Inodes

open Inode

/-- A time: seconds, and nanoseconds in nine digits. -/
def timeStr (t : Timestamp) : String := s!"{t.secs.toInt}." ++ digits 10 9 t.nsecs.toNat

/-- The inode in `b`. -/
def dumpInode (p : String) (b : Buf) : Dump :=
  let dec8 := fun o => toString (byteAt b o).toNat
  let dec16 := fun o => toString (be16 b o)
  let dec32 := fun o => toString (be32 b o)
  let dec64 := fun o => toString (be64 b o)
  let flags2 := be64 b Off.flags2
  let bigtime := decide (flags2 &&& diflag2Bigtime ≠ 0)
  let times := [("atime", Off.atime), ("mtime", Off.mtime), ("ctime", Off.ctime),
    ("crtime", Off.crtime)]
  [entry p "magic" (hex (be16 b Off.magic)),
    entry p "mode" (digits 8 0 (be16 b Off.mode))] ++
  table p dec8 [("version", Off.version), ("format", Off.format)] ++
  table p dec16 [("metatype", Off.metatype)] ++
  table p dec32 [("uid", Off.uid), ("gid", Off.gid), ("nlink", Off.nlink)] ++
  [entry p "projid" (toString (be16 b Off.projidHi <<< 16 ||| be16 b Off.projidLo))] ++
  table p dec64 [("big_nextents", Off.bigNextents)] ++
  (times.map fun (name, o) =>
    (⟨s!"{p}.{name}", timeStr (decodeTime (be64 b o) bigtime), .incidental⟩ : Entry)) ++
  table p dec64 [("size", Off.size), ("nblocks", Off.nblocks)] ++
  table p dec32 [("extsize", Off.extsize), ("nextents", Off.nextents)] ++
  table p dec16 [("anextents", Off.anextents)] ++
  table p dec8 [("forkoff", Off.forkoff), ("aformat", Off.aformat)] ++
  table p dec32 [("dmevmask", Off.dmevmask)] ++
  table p dec16 [("dmstate", Off.dmstate)] ++
  [entry p "flags" (hex (be16 b Off.flags)),
    ⟨s!"{p}.gen", toString (be32 b Off.gen), .incidental⟩] ++
  table p dec32 [("next_unlinked", Off.nextUnlinked)] ++
  table p dec64 [("changecount", Off.changecount), ("lsn", Off.lsn)] ++
  [entry p "flags2" (hex flags2)] ++
  table p dec32 [("cowextsize", Off.cowextsize)] ++
  [entry p "pad2" (hexTrimmed (slice b (Off.cowextsize + 4) Off.crtime))] ++
  table p dec64 [("ino", Off.ino)] ++
  [uuidEntry p b Off.uuid,
    entry p "literal" (hexTrimmed (b.drop coreSize))] ++
  crcFields p b Off.crc

end Inodes

end Inspect

end MkfsXfs
