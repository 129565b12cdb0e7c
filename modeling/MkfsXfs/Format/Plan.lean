import MkfsXfs.Geometry.Layout
import MkfsXfs.Structs.Btree

/-!
The plan of an allocation group (`src/format.rs`, `plan_ag`): the free extents, the free
list and the reverse mappings that formatting leaves, computed at once.

* `take`: an extent out of the free ones.
* `rmapInsert`: a reverse mapping into the ones there, merged with its neighbours.
* `fillFreelist`: the loop that fills the free list.
* `planAg`: the plan.

The blocks are natural numbers, cut to 32 bits (`toU32`) where the source does; sums of
two 32-bit numbers are checked.
-/

namespace MkfsXfs

open Checked

/-- The end state of one allocation group's metadata. -/
structure AgPlan where
  agno : ℕ
  /-- blocks in this AG -/
  length : ℕ
  /-- free extents, by block -/
  free : List AllocRec
  /-- blocks on the free list, in AGFL order -/
  agfl : List ℕ
  /-- reverse mappings, by block -/
  rmap : List RmapRec
  /-- the root inode chunk's first block, in AG 0 -/
  chunk : Option ℕ
  deriving DecidableEq, Repr

/-! ### Free extents and reverse mappings -/

/-- `l.owner == r.owner && l.start + l.count == r.start`. -/
def RmapRec.contiguous (l r : RmapRec) : Exec Bool :=
  if l.owner = r.owner then do
    let e ← fit 32 (l.start + l.count)
    return decide (e = r.start)
  else return false

/-- `filter`: a neighbour that is contiguous. -/
def keepIf (near : Option RmapRec) (c : RmapRec → Exec Bool) : Exec (Option RmapRec) :=
  match near with
  | none => .ok none
  | some r => do
      let b ← c r
      return if b then some r else none

/-- Insert a reverse mapping the way `xfs_rmap_map` does for a special owner: merged with a
contiguous neighbour of the same owner. -/
def rmapInsert (rmap : List RmapRec) (rec : RmapRec) : Exec (List RmapRec) := do
  let pos := (rmap.takeWhile fun r => r.start < rec.start).length
  let left ← keepIf (if pos = 0 then none else rmap[pos - 1]?) (·.contiguous rec)
  let right ← keepIf rmap[pos]? rec.contiguous
  match left, right with
  | some l, some r => do
      let more ← fit 32 (rec.count + r.count)
      let count ← fit 32 (l.count + more)
      return (rmap.set (pos - 1) { l with count := count }).eraseIdx pos
  | some l, none => do
      let count ← fit 32 (l.count + rec.count)
      return rmap.set (pos - 1) { l with count := count }
  | none, some r => do
      let count ← fit 32 (r.count + rec.count)
      return rmap.set pos { r with start := rec.start, count := count }
  | none, none => return rmap.insertIdx pos rec

/-- Insert a reverse mapping when there are reverse mappings. -/
def mapBlocks (rmapbt : Bool) (rmap : List RmapRec) (rec : RmapRec) : Exec (List RmapRec) :=
  if rmapbt then rmapInsert rmap rec else .ok rmap

/-- Take `[start, start + len)` out of the free extents. -/
def take (free : List AllocRec) (start len : ℕ) : Exec (List AllocRec) :=
  match free.findIdx? (fun r => r.start ≤ start ∧ start + len ≤ r.start + r.count) with
  | none => .error (.error (.invalidParams s!"blocks {start}+{len} are not free"))
  | some i => match free[i]? with
    | none => .error .panic
    | some r =>
        let re := r.start + r.count
        let free := free.eraseIdx i
        let before : List AllocRec :=
          if start > r.start then [⟨toU32 r.start, toU32 (start - r.start)⟩] else []
        let after : List AllocRec :=
          if start + len < re then [⟨toU32 (start + len), toU32 (re - start - len)⟩] else []
        .ok (free.take i ++ before ++ after ++ free.drop i)

/-! ### The plan -/

/-- The extent the free list is filled from: the smallest that holds what is wanted, or else
the largest. -/
def pickExtent (free : List AllocRec) (want : ℕ) : Option AllocRec :=
  ((free.filter fun r => want ≤ r.count).argmin fun r => toLex (r.count, r.start)).or
    (free.argmax fun r => toLex (r.count, OrderDual.toDual r.start))

/-- The loop of `xfs_alloc_fix_freelist`: allocate by size until the list is full.  Every
round adds a block to the list or uses an extent up, which bounds the rounds by `fuel`. -/
def fillFreelist (agno need : ℕ) (rmapbt : Bool) :
    ℕ → List AllocRec → List ℕ → List RmapRec →
      Exec (List AllocRec × List ℕ × List RmapRec)
  | 0, _, _, _ => .error .hang
  | fuel + 1, free, agfl, rmap =>
      if agfl.length < need then
        match pickExtent free (need - agfl.length) with
        | none => .error (.error
            (.invalidParams s!"AG {agno} has no space for its free list"))
        | some pick => do
            let len := min (need - agfl.length) pick.count
            let free ← take free pick.start len
            let agfl := agfl ++ (List.range len).map (pick.start + ·)
            let rmap ← mapBlocks rmapbt rmap ⟨pick.start, toU32 len, owner.ag⟩
            fillFreelist agno need rmapbt fuel free agfl rmap
      else .ok (free, agfl, rmap)

/-- `xfs_rmaproot_init`: the static reverse mappings. -/
def staticRmap (g : Geometry) : List RmapRec :=
  let rec' := fun start count owner => (⟨toU32 start, toU32 count, owner⟩ : RmapRec)
  [rec' 0 g.bnoBlock owner.fs,
    rec' g.bnoBlock 2 owner.ag,
    rec' g.ibtBlock (g.rmapBlock - g.ibtBlock) owner.inobt,
    rec' g.rmapBlock 1 owner.ag] ++
  if g.features.reflink then [rec' g.refcBlock 1 owner.refc] else []

/-- `xfs_freesp_init_recs`: everything after the preallocated blocks is free, less the log
in its AG. -/
def initialFree (g : Geometry) (agno length : ℕ) : Exec (List AllocRec) :=
  let p := g.preallocBlocks
  if agno = g.logagno then
    let ls := g.logAgbno
    let le := g.logAgbno + g.logblocks
    .ok ((if ls > p then [⟨toU32 p, toU32 (ls - p)⟩] else [])
      ++ if le < length then [⟨toU32 le, toU32 (length - le)⟩] else [])
  else do
    let n ← sub length p
    return [⟨toU32 p, toU32 n⟩]

/-- The reverse mappings before anything is allocated: the static ones, and the log in its
AG. -/
def initialRmap (g : Geometry) (agno : ℕ) : List RmapRec :=
  if g.features.rmapbt then
    staticRmap g ++ if agno = g.logagno
      then [⟨toU32 g.logAgbno, toU32 g.logblocks, owner.log⟩] else []
  else []

/-- Take the root inode chunk, where `xfs_ialloc_calc_rootino` says it must be. -/
def takeRootChunk (g : Geometry) (free : List AllocRec) : Exec (List AllocRec) :=
  match take free g.rootChunkAgbno g.chunkBlocks with
  | .error (.error _) => .error (.error (.invalidParams
      s!"the root inode chunk at block {g.rootChunkAgbno} of AG 0 is not free"))
  | r => r

/-- The end state of allocation group `agno` after the header initialisation, the free list
fill and, in AG 0, the root inode chunk allocation. -/
def planAg (g : Geometry) (agno : ℕ) : Exec AgPlan := do
  let length ← g.agBlocks agno
  let free ← initialFree g agno length
  let need := g.minFreelist
  let (free, agfl, rmap) ← fillFreelist agno need g.features.rmapbt
    (need + free.length + 1) free [] (initialRmap g agno)
  if agno = 0 then do
    let free ← takeRootChunk g free
    let rmap ← mapBlocks g.features.rmapbt rmap
      ⟨toU32 g.rootChunkAgbno, toU32 g.chunkBlocks, owner.inodes⟩
    return ⟨agno, length, free, agfl, rmap, some g.rootChunkAgbno⟩
  else
    return ⟨agno, length, free, agfl, rmap, none⟩

/-- The plans of all AGs. -/
def planAll (g : Geometry) : Exec (List AgPlan) := (List.range g.agcount).mapM (planAg g)

end MkfsXfs
