import MkfsXfs.Geometry.Compute
import MkfsXfs.Inspect.Geo
import MkfsXfs.Log.Reader

/-!
The primary superblock, read and checked, and the log as it is cleared (`Fs` and `LogWriter`
in `src/admin.rs`).

* `openFs`: the geometry and the primary superblock, refused when this crate cannot rewrite
  the filesystem.
* `readSb`, `Fs.writeSb`: one AG's superblock.
* `Geo.logExtent`: where the log lies.
* `LogWriter`: writes the log front to back in whole chunks.
* `Fs.clearLog`: `libxfs_log_clear`.
-/

namespace MkfsXfs

open Checked Sb

/-! ### Constants -/

/-- `XFSLABEL_MAX`: the label's length in the superblock. -/
def labelMax : ℕ := 12

/-- The incompat features whose superblock is rewritten exactly. -/
def knownIncompat : ℕ :=
  Version.inFtype ||| Version.inSpinodes ||| Version.inMetaUuid ||| Version.inBigtime |||
    Version.inNeedsrepair ||| Version.inNrext64

/-- `BDSTRAT_SIZE`: the record size of a full log clear. -/
def bdstratSize : ℕ := 256 * 1024

/-- `XLOG_INIT_CYCLE`. -/
def initCycle : ℕ := 1

/-- How much of the log is written per device operation. -/
def chunk : ℕ := 4 <<< 20

@[simp] lemma chunk_eq : chunk = 4194304 := rfl

/-! ### The superblocks -/

namespace Geo

/-- The byte offset of AG `agno`'s superblock. -/
def sbOffset (g : Geo) (agno : ℕ) : Exec ℕ := fit 64 (agno * g.agblocks * g.blocksize)

/-- Byte offset and length in basic blocks of the internal log
(`XFS_FSB_TO_DADDR(sb_logstart)`, `XFS_FSB_TO_BB(sb_logblocks)`). -/
def logExtent (g : Geo) : Exec (ℕ × ℕ) := do
  let agno := g.logstart >>> g.agblklog
  let agbno := g.logstart &&& (2 ^ g.agblklog - 1)
  let start ← fit 64 ((agno * g.agblocks + agbno) * g.blocksize)
  return (start, g.logblocks * g.blocksize / bbsize)

end Geo

/-- AG `agno`'s superblock block, its magic and CRC checked. -/
def checkSb (g : Geo) (agno : ℕ) (b : Buf) : Exec Buf := do
  refuseIf (be32 b Off.magicnum ≠ magic) (.corrupt s!"AG {agno} superblock: no XFSB magic")
  refuseIf (Crc.verify (b.take g.sectsize) Off.crc = false)
    (.corrupt s!"AG {agno} superblock: bad CRC")
  return b

/-- Read AG `agno`'s superblock block. -/
def readSb (g : Geo) (agno : ℕ) : DevM Buf := do
  let offset ← Prog.ofExcept (g.sbOffset agno)
  let b ← readAt offset g.blocksize
  Prog.ofExcept (checkSb g agno b)

/-- The primary superblock, read and checked. -/
structure Fs where
  geo : Geo
  primary : Buf
  valid : geo.Valid

/-- Whether this crate can rewrite the filesystem whose primary superblock is `p`. -/
def checkFeatures (g : Geo) (p : Buf) : Exec Unit := do
  let incompat := be32 p Off.featuresIncompat
  let unknown := incompat &&& (2 ^ 32 - 1 - knownIncompat)
  refuseIf (incompat &&& Version.inNeedsrepair ≠ 0) (.needsRecovery "marked as needing xfs_repair")
  refuseIf (unknown ≠ 0)
    (.unsupported ("incompat features 0x" ++ String.ofList (Nat.toDigits 16 unknown)))
  refuseIf (be64 p Off.rblocks ≠ 0) (.unsupported "a realtime device")
  refuseIf (g.logstart = 0) (.unsupported "an external log")

/-- `Fs::open`: the primary superblock of the device, read and checked. -/
def openFs (dev : Device) : DevM Fs := do
  let geo ← geometry dev
  let p ← readSb geo.1 0
  Prog.ofExcept (checkFeatures geo.1 p)
  return { geo := geo.1, primary := p, valid := geo.2 }

/-- The 16 bytes at `o`. -/
def uuidAt (b : Buf) (o : ℕ) : Uuid := ⟨(List.range 16).map fun i => byteAt b (o + i), by simp⟩

namespace Fs

/-- `xfs_sb_quota_from_disk`: a quota inode of 0 is read as `NULLFSINO`, and written so. -/
def nullQuota (b : Buf) (o : ℕ) : Buf := if be64 b o = 0 then put64 b o null64 else b

/-- The superblock as `libxfs_sb_to_disk` and the write verifier leave it. -/
def sbToDisk (g : Geo) (b : Buf) : Buf :=
  let b := [Off.uquotino, Off.gquotino, Off.pquotino].foldl nullQuota b
  -- `xfs_sb_to_disk`: bad_features2 always matches features2.
  let b := put32 b Off.badFeatures2 (be32 b Off.features2)
  Crc.stamp (b.take g.sectsize) Off.crc ++ b.drop g.sectsize

/-- Write a superblock back. -/
def writeSb (fs : Fs) (agno : ℕ) (b : Buf) : DevM Unit := do
  let b := sbToDisk fs.geo b
  let offset ← Prog.ofExcept (fs.geo.sbOffset agno)
  writeAt offset b

/-- `mp->m_sb.sb_meta_uuid`: the on-disk metadata UUID with `META_UUID`, otherwise
`sb_uuid`. -/
def metaUuid (fs : Fs) : Uuid :=
  if be32 fs.primary Off.featuresIncompat &&& Version.inMetaUuid ≠ 0 then
    uuidAt fs.primary Off.metaUuid
  else uuidAt fs.primary Off.uuid

end Fs

/-- `LogReader::new`: the reader of the filesystem's log, refused when it is too short. -/
def LogReader.new (g : Geo) : Exec LogReader := do
  let (start, bbs) ← g.logExtent
  if h : totalRecBbs ≤ bbs then return ⟨start, bbs, h⟩
  else .error (.error (.unsupported s!"a log of {bbs} basic blocks"))

/-! ### The log writer -/

/-- Writes the log front to back in whole chunks. -/
structure LogWriter where
  start : ℕ
  /-- the log offset of the first byte of `buf` -/
  logAt : ℕ
  buf : Buf

namespace LogWriter

/-- The loop of `push`: whole chunks go to the device. -/
def drain (w : LogWriter) : DevM LogWriter :=
  if _h : chunk ≤ w.buf.length then do
    let offset ← Prog.ofExcept (fit 64 (w.start + w.logAt))
    writeAt offset (w.buf.take chunk)
    drain { w with buf := w.buf.drop chunk, logAt := w.logAt + chunk }
  else return w
termination_by w.buf.length
decreasing_by
  rw [chunk_eq] at *
  simp only [List.length_drop]
  omega

/-- Append `data` to the log. -/
def push (w : LogWriter) (data : Buf) : DevM LogWriter := drain { w with buf := w.buf ++ data }

/-- Push `rest` zeroes, a chunk at a time. -/
def pushZeroes (w : LogWriter) (rest : ℕ) : DevM LogWriter :=
  if _h : 0 < rest then do
    let n := min rest chunk
    let w ← w.push (List.replicate n 0)
    pushZeroes w (rest - n)
  else return w
termination_by rest
decreasing_by
  rw [chunk_eq]
  omega

/-- Zeroes up to log offset `stop`: each push moves `logAt + buf.length` on by what it
pushed. -/
def zeroesTo (w : LogWriter) (stop : ℕ) : DevM LogWriter :=
  w.pushZeroes (stop - (w.logAt + w.buf.length))

/-- Zeroes up to a multiple of the block size. -/
def padToBlock (w : LogWriter) (blocksize : ℕ) : LogWriter :=
  { w with buf := w.buf ++
      List.replicate (roundup w.buf.length blocksize - w.buf.length) 0 }

/-- Write what is left. -/
def finish (w : LogWriter) : DevM Unit :=
  if w.buf ≠ [] then do
    let offset ← Prog.ofExcept (fit 64 (w.start + w.logAt))
    writeAt offset w.buf
  else return ()

end LogWriter

/-! ### Clearing the log -/

namespace Fs

/-- The length of the first record, in basic blocks: `sb_logsunit` as it is, 1 (none) being
one byte. -/
def firstLen (sunit : ℕ) : ℕ := max (if sunit > 0 then divCeil sunit bbsize else 2) 2

/-- The tail of the first record: its own place in the first cycle, and in later ones the
end of the cycle before. -/
def firstTail (cycle bbs len : ℕ) : Exec ℕ :=
  if cycle = initCycle then .ok (Log.lsn cycle 0)
  else do
    let c ← sub cycle 1
    let block ← sub bbs len
    return Log.lsn c (block % 2 ^ 32)

/-- The records of cycle `c` from basic block `blk` on, of `rlen` blocks each but the last. -/
def clearRecords (uuid : Uuid) (c bbs blk rlen : ℕ) (w : LogWriter) : DevM LogWriter :=
  if h : blk < bbs then
    let r := Log.record uuid (rlen * bbsize % 2 ^ 32) (Log.lsn c (blk % 2 ^ 32))
      (Log.lsn c ((blk + 2 ^ 64 - rlen) % 2 ^ 64 % 2 ^ 32))
    if _hlen : r.length ≠ rlen * bbsize then
      Prog.fail (.error (.unsupported s!"a log record of {rlen} basic blocks"))
    else do
      let w ← w.push r
      let left ← Prog.ofExcept (sub bbs (blk + rlen))
      clearRecords uuid c bbs (blk + rlen) (min left rlen) w
  else return w
termination_by bbs - blk
decreasing_by
  have hpos : 0 < rlen := by
    by_contra h0
    have hzero : rlen = 0 := by omega
    have htwo := Log.two_le_recordLen (rlen * bbsize % 2 ^ 32)
    rw [not_not, Log.length_record, hzero, Nat.zero_mul] at _hlen
    rcases Nat.mul_eq_zero.1 _hlen with h₁ | h₁
    · rw [hzero, Nat.zero_mul] at htwo
      omega
    · exact absurd h₁ (by decide)
  omega

/-- `libxfs_log_clear` with `max`, as `sb_logzero` calls it: the log zeroed, one record at
block 0 in `cycle` whose tail points at the end of the previous cycle, and, past
`XLOG_INIT_CYCLE`, the rest filled with `BDSTRAT_SIZE` records of the previous cycle. -/
def clearLog (fs : Fs) (uuid : Uuid) (cycle : ℕ) : DevM Unit := do
  let (start, bbs) ← Prog.ofExcept fs.geo.logExtent
  let sunit := fs.geo.logsunit
  let len := firstLen sunit
  let lsn := Log.lsn cycle 0
  let tail ← Prog.ofExcept (firstTail cycle bbs len)
  let first := Log.record uuid sunit lsn tail
  if first.length ≠ len * bbsize then
    Prog.fail (.error (.unsupported s!"log stripe unit {sunit}"))
  else if cycle = initCycle then do
    writeZeroes start (bbs * bbsize)
    let out ← LogWriter.push ⟨start, 0, []⟩ first
    (out.padToBlock fs.geo.blocksize).finish
  else do
    let out ← LogWriter.push ⟨start, 0, []⟩ first
    let c ← Prog.ofExcept (sub cycle 1)
    let max := bdstratSize / bbsize
    let out ← out.zeroesTo (min max bbs * bbsize)
    let out ← clearRecords uuid c bbs max (min (bbs - max) max) out
    out.finish

end Fs

end MkfsXfs
