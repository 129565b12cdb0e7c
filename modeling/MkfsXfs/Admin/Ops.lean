import MkfsXfs.Admin.Fs

/-!
The operations of `src/admin.rs`: a new UUID, the old one back, a new label, and the state of
the log.

* `setUuid`, `restoreUuid`, `setLabel`, `logState`: the operations, as device programs.
* `eachAg`: the loop over the AGs.
-/

namespace MkfsXfs

open Checked Sb

/-- The loop over `n` AGs from `agno` on. -/
def eachAg (f : ℕ → DevM Unit) : ℕ → ℕ → DevM Unit
  | _, 0 => return ()
  | agno, n + 1 => do
      f agno
      eachAg f (agno + 1) n

/-- `do_uuid`: the superblock with the UUID `uuid`, `metaU` being the metadata UUID. -/
def withUuid (uuid metaU : Uuid) (b : Buf) : Buf :=
  let incompat := be32 b Off.featuresIncompat
  let hasMeta := decide (incompat &&& Version.inMetaUuid ≠ 0)
  let (b, incompatNew) :=
    if hasMeta = false ∧ uuid ≠ metaU then
      (splice b Off.metaUuid (uuidAt b Off.uuid).1, incompat ||| Version.inMetaUuid)
    else if hasMeta = true ∧ uuid = metaU then
      (splice b Off.metaUuid (List.replicate 16 0),
        incompat &&& (2 ^ 32 - 1 - Version.inMetaUuid))
    else (b, incompat)
  let b := put32 b Off.featuresIncompat incompatNew
  splice b Off.uuid uuid.1

/-- Rewrite AG `agno`'s superblock by `f`. -/
def rewriteSb (fs : Fs) (f : Buf → Buf) (agno : ℕ) : DevM Unit := do
  let b ← readSb fs.geo agno
  fs.writeSb agno (f b)

/-- The refusal of a log that holds changes. -/
def dirtyLog (state : LogState) : Error :=
  .needsRecovery (s!"the log holds changes to replay (head {state.head}, tail {state.tail}): " ++
    "mount and unmount it first")

/-- Give the filesystem the UUID `uuid`: check the log is clean, rewrite it under the new
UUID, then rewrite every allocation group's superblock (primary first). -/
def setUuid (dev : Device) (uuid : Uuid) : DevM Unit := do
  let fs ← openFs dev
  let reader ← Prog.ofExcept (LogReader.new fs.geo)
  let state ← reader.findTail
  if state.dirty then Prog.fail (.error (dirtyLog state))
  else do
    let cycle ← Prog.ofExcept (fit 32 (state.cycle + 1))
    fs.clearLog uuid cycle
    flush
    eachAg (rewriteSb fs (withUuid uuid fs.metaUuid)) 0 fs.geo.agcount
    flush

/-- Give the filesystem back the UUID its metadata carries; `false`, writing nothing, when
it was never changed. -/
def restoreUuid (dev : Device) : DevM Bool := do
  let fs ← openFs dev
  if be32 fs.primary Off.featuresIncompat &&& Version.inMetaUuid = 0 then return false
  else do
    setUuid dev fs.metaUuid
    return true

/-- The refusal of a label too long, or holding a NUL. -/
def badLabel (label : String) : Error :=
  .invalidParams (s!"an XFS label is at most {labelMax} bytes with no NUL: " ++ debugStr label)

/-- Set the filesystem label (`sb_fname`) in every superblock. -/
def setLabel (dev : Device) (label : String) : DevM Unit := do
  Prog.ofExcept (refuseIf (label.utf8ByteSize > labelMax ∨ '\x00' ∈ label.toList) (badLabel label))
  let fs ← openFs dev
  let fname := padLabel label.toUTF8.toList
  eachAg (rewriteSb fs fun b => splice b Off.fname fname) 0 fs.geo.agcount
  flush

/-- Find the internal log's head, tail and cycle. -/
def logState (dev : Device) : DevM LogState := do
  let fs ← openFs dev
  let reader ← Prog.ofExcept (LogReader.new fs.geo)
  reader.findTail

end MkfsXfs
