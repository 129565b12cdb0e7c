import MkfsXfs.Format.HeadRead
import MkfsXfs.Format.RootChunk
import MkfsXfs.Lib.Crash

/-!
The formatter's run (`src/format.rs`, `format`).

* `Identity`: what is pinned by the parameters, or else drawn.
* `Setup`, `setup`: everything that is fixed before a byte is written.
* `Setup.zeroEnds`, `writeLog`, `writeHeads`, `writeChunk`, `finish`: the stages that write.
* `format`: the whole, the heads of the AGs completing in the given order.
* `setup_eq_ok`: what planning fixes.
-/

namespace MkfsXfs

open Checked

/-- `WHACK_SIZE`: how much is zeroed at each end of the device. -/
def whackSize : ℕ := 128 * 1024

/-- `AG_CONCURRENCY`: how many AGs are written at once. -/
def agConcurrency : ℕ := 32

/-- The UUID, the time and the seed of the generation numbers: those of the parameters, or the
ones drawn in their place. -/
structure Identity where
  uuid : Uuid
  time : Timestamp
  genSeed : UInt64

/-- What a format produced. -/
structure Report where
  geometry : Geometry
  uuid : Uuid
  rootino : ℕ
  /-- free data blocks, as the primary superblock records them -/
  fdblocks : ℕ

/-- What is fixed before a byte is written. -/
structure Setup where
  g : Geometry
  id : Identity
  plans : List AgPlan
  /-- `initial_fdblocks` -/
  initial : ℕ

/-- Plan the format. -/
def setup (params : Params) (size : UInt64) (logical physical : UInt32) (id : Identity) :
    Exec Setup := do
  let g ← Geometry.compute params size logical physical
  let plans ← planAll g
  let initial ← g.initialFdblocks
  return ⟨g, id, plans, initial⟩

namespace Setup

variable (s : Setup)

/-- The superblock of an AG as it is written with the others. -/
def secondary : SbState where
  uuid := s.id.uuid
  rootino := null64
  rbmino := null64
  rsumino := null64
  icount := 0
  ifree := 0
  fdblocks := s.initial
  inprogress := true

/-- The primary superblock at the end. -/
def finished : SbState :=
  { s.secondary with
    rootino := s.g.rootino
    rbmino := s.g.rootino + 1
    rsumino := s.g.rootino + 2
    icount := 64
    ifree := 61
    fdblocks := AgPlan.fdblocks s.plans
    inprogress := false }

/-- The AG in the middle, of three or more. -/
def middle : Option ℕ := if s.g.agcount > 2 then some ((s.g.agcount - 1) / 2) else none

/-- The superblock that an AG is written with: the primary unfinished, and the root inode in
the last one and the middle one. -/
def agSbs (agno : ℕ) : SbState :=
  if agno = 0 then { s.finished with inprogress := true }
  else if agno = s.g.agcount - 1 ∨ some agno = s.middle then
    { s.secondary with rootino := s.g.rootino }
  else s.secondary

/-- `plans[agno]`, a panic when it is out of range. -/
def plan (agno : ℕ) : Exec AgPlan :=
  match s.plans[agno]? with
  | some plan => .ok plan
  | none => .error .panic

/-- The head of AG `agno`. -/
def head (agno : ℕ) : Exec Buf := do
  let plan ← s.plan agno
  agHead s.g plan s.id.uuid (s.agSbs agno)

/-- Where the log starts. -/
def logAt : ℕ := s.g.agbToByte s.g.logagno s.g.logAgbno

/-- The log's first block, with its first record. -/
def logBlock : Exec Buf :=
  let logsectsize := if s.g.sectsize > 512 then s.g.lsectsize else 0
  copyInto (List.replicate s.g.bs 0) 0
    (Log.firstRecord s.id.uuid (Log.clearSunit s.g.logsunit logsectsize))

/-- The root inode chunk of AG 0: its block and its inodes. -/
def chunk : Exec (ℕ × Buf) := do
  let plan ← s.plan 0
  match plan.chunk with
  | none => .error .panic
  | some agbno => do
      let inodes ← rootChunk s.g agbno s.id.uuid s.id.time ⟨s.id.genSeed⟩
      return (agbno, inodes)

/-- The finished header blocks of AG 0. -/
def finishedHead : Exec Buf := do
  let plan ← s.plan 0
  let head ← agHead s.g plan s.id.uuid s.finished
  return head.take (s.g.headerBlocks * s.g.bs)

/-! ### The stages -/

/-- Zero the ends of the device, whole blocks only. -/
def zeroEnds (size : ℕ) : DevM Unit := do
  let devEnd := size / s.g.bs * s.g.bs
  writeZeroes 0 (min whackSize devEnd)
  let tail := (devEnd - whackSize) / s.g.bs * s.g.bs
  writeZeroes tail (devEnd - tail)

/-- Zero the log, then write its first record. -/
def writeLog : DevM Unit := do
  writeZeroes s.logAt (s.g.logblocks * s.g.bs)
  let first ← Prog.ofExcept s.logBlock
  writeAt s.logAt first

/-- Write the head of AG `agno`. -/
def writeHead (agno : ℕ) : DevM Unit := do
  let head ← Prog.ofExcept (s.head agno)
  writeAt (s.g.agbToByte agno 0) head

/-- Write the heads, completed in the order given. -/
def writeHeads : List ℕ → DevM Unit
  | [] => return ()
  | agno :: order => do
      s.writeHead agno
      writeHeads order

/-- Write the root inode chunk and flush. -/
def writeChunk : DevM Unit := do
  let (agbno, inodes) ← Prog.ofExcept s.chunk
  writeAt (s.g.agbToByte 0 agbno) inodes
  flush

/-- Mark the filesystem finished and flush. -/
def finish : DevM Unit := do
  let head ← Prog.ofExcept s.finishedHead
  writeAt 0 head
  flush

/-- Everything that writes, before the filesystem is marked finished. -/
def body (size : ℕ) (order : List ℕ) : DevM Unit := do
  s.zeroEnds size
  s.writeLog
  s.writeHeads order
  s.writeChunk

/-- What the format reports. -/
def report : Report where
  geometry := s.g
  uuid := s.id.uuid
  rootino := s.g.rootino
  fdblocks := AgPlan.fdblocks s.plans

end Setup

/-- Format the device. -/
def format (params : Params) (size : UInt64) (logical physical : UInt32) (id : Identity)
    (order : List ℕ) : DevM Report := do
  let s ← Prog.ofExcept (setup params size logical physical id)
  s.body size.toNat order
  s.finish
  return s.report

/-- What planning fixes. -/
lemma setup_eq_ok {params : Params} {size : UInt64} {logical physical : UInt32} {id : Identity}
    {s : Setup} : setup params size logical physical id = .ok s ↔
      Geometry.compute params size logical physical = .ok s.g ∧ planAll s.g = .ok s.plans ∧
        s.g.initialFdblocks = .ok s.initial ∧ s.id = id := by
  rw [setup]
  constructor
  · intro h
    obtain ⟨g, hg, h⟩ := bind_eq_ok.mp h
    obtain ⟨plans, hplans, h⟩ := bind_eq_ok.mp h
    obtain ⟨initial, hinitial, h⟩ := bind_eq_ok.mp h
    obtain rfl : (⟨g, id, plans, initial⟩ : Setup) = s := Except.ok.inj h
    exact ⟨hg, hplans, hinitial, rfl⟩
  · rintro ⟨hg, hplans, hinitial, rfl⟩
    rw [hg, ok_bind, hplans, ok_bind, hinitial]
    rfl

lemma length_sevens : (List.replicate 16 (7 : UInt8)).length = 16 := rfl

/-- A format of 512 MiB. -/
def setup512m : Setup where
  g := geo512m
  id := ⟨⟨List.replicate 16 7, length_sevens⟩, ⟨1700000000, 0⟩, 1⟩
  plans := plans512m
  initial := 114660

/-- Planning 512 MiB. -/
lemma setup_512m : setup {} 536870912 512 512 setup512m.id = .ok setup512m :=
  setup_eq_ok.mpr ⟨compute_geo512m, planAll_geo512m, rfl, rfl⟩

example : setup512m.finished = sb512m := rfl

/-- The device of that size with sectors of that size. -/
def Device.ofSize (size : UInt64) (logical : UInt32) : Device where
  size := size.toNat
  logicalSectorSize := logical.toNat
  size_lt := size.toNat_lt

end MkfsXfs
