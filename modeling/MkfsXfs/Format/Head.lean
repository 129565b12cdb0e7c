import MkfsXfs.Format.Plan
import MkfsXfs.Structs.Ag

/-!
The header sectors and the btree roots of an AG (`src/format.rs`, `ag_head`).

* `AgPlan.freeblks`, `AgPlan.longest`, `AgPlan.fdblocks`: the free space plans leave.
* `AgPlan.agf`, `AgPlan.agi`: what the headers record of a plan.
* `agHead`: the preallocated blocks of the AG.
-/

namespace MkfsXfs

open Checked

namespace AgPlan

/-- Free blocks in the free space btrees. -/
def freeblks (plan : AgPlan) : ℕ := (plan.free.map fun r => r.count).sum

/-- The longest free extent. -/
def longest (plan : AgPlan) : ℕ := (plan.free.map fun r => r.count).max?.getD 0

/-- Free blocks of the data section: those in the free space btrees and on the free lists. -/
def fdblocks (plans : List AgPlan) : ℕ :=
  (plans.map fun plan => plan.freeblks + plan.agfl.length).sum

/-- The AGF: the free list starts at slot 1, each block put on it advances its end first. -/
def agf (plan : AgPlan) (g : Geometry) : Exec Agf := do
  let f := g.features
  let agflLen := toU32 plan.agfl.length
  let slots ← g.agflSize
  let fllast ← mod agflLen slots
  return {
    seqno := toU32 plan.agno
    length := toU32 plan.length
    bnoRoot := toU32 g.bnoBlock
    bnoLevel := 1
    cntRoot := toU32 g.cntBlock
    cntLevel := 1
    rmapRoot := if f.rmapbt then toU32 g.rmapBlock else 0
    rmapLevel := f.rmapbt.toNat
    rmapBlocks := f.rmapbt.toNat
    refcountRoot := if f.reflink then toU32 g.refcBlock else 0
    refcountLevel := f.reflink.toNat
    refcountBlocks := f.reflink.toNat
    flfirst := 1
    fllast := fllast
    flcount := agflLen
    freeblks := toU32 plan.freeblks
    longest := toU32 plan.longest
    btreeblks := 0 }

/-- The first inode of the root chunk, within the AG. -/
def startino (plan : AgPlan) (g : Geometry) : Option ℕ :=
  plan.chunk.map fun c => toU32 (c <<< g.inopblog)

/-- The AGI. -/
def agi (plan : AgPlan) (g : Geometry) : Agi :=
  let f := g.features
  let chunk := plan.startino g
  let (count, freecount) := if chunk.isSome then (64, 61) else (0, 0)
  { seqno := toU32 plan.agno
    length := toU32 plan.length
    count := count
    root := toU32 g.ibtBlock
    level := 1
    freecount := freecount
    newino := chunk.getD null32
    freeRoot := if f.finobt then toU32 g.fibtBlock else 0
    freeLevel := f.finobt.toNat
    iblocks := f.inobtcount.toNat
    fblocks := (f.inobtcount && f.finobt).toNat }

/-- The records of the inode btrees: the root chunk, its first three inodes in use. -/
def inodes (plan : AgPlan) (g : Geometry) : List InobtRec :=
  ((plan.startino g).map fun startino =>
    { startino := startino
      holemask := 0
      count := 64
      freecount := 61
      free := 2 ^ 64 - 1 - 0b111 }).toList

end AgPlan

/-- The order of the by-size free space btree. -/
def AllocRec.sizeLe (a b : AllocRec) : Prop :=
  a.count < b.count ∨ a.count = b.count ∧ a.start ≤ b.start

instance : DecidableRel AllocRec.sizeLe := fun a b =>
  inferInstanceAs (Decidable (a.count < b.count ∨ a.count = b.count ∧ a.start ≤ b.start))

/-- A btree root of the AG, a leaf of one block. -/
def agLeaf (g : Geometry) (agno : ℕ) (uuid : Uuid) (magic agbno : ℕ) (recs : Buf) (n : ℕ) :
    Exec Buf :=
  Btree.leafBlock magic (g.agbToDaddr agno agbno) (toU32 agno) uuid recs n g.bs

/-- Put a btree root in its block. -/
def putLeaf (g : Geometry) (agno : ℕ) (uuid : Uuid) (magic agbno : ℕ) (recs : Buf) (n : ℕ)
    (buf : Buf) : Exec Buf := do
  let leaf ← agLeaf g agno uuid magic agbno recs n
  copyInto buf (agbno * g.bs) leaf

/-- The header sectors and btree roots of one AG: its preallocated blocks. -/
def agHead (g : Geometry) (plan : AgPlan) (uuid : Uuid) (sbs : SbState) : Exec Buf := do
  let ss := g.sectsize
  let f := g.features
  let agno := plan.agno
  let buf := List.replicate (g.preallocBlocks * g.bs) 0
  let buf ← onSlice buf 0 ss (Sb.encode g sbs)
  let agf ← plan.agf g
  let buf ← onSlice buf ss ss fun s => .ok (agf.encode uuid s)
  let buf ← onSlice buf (2 * ss) ss fun s => .ok ((plan.agi g).encode uuid s)
  let buf ← onSlice buf (3 * ss) ss (encodeAgfl (toU32 agno) uuid 1 plan.agfl)
  let bySize := plan.free.insertionSort AllocRec.sizeLe
  let buf ← putLeaf g agno uuid Btree.Magic.bno g.bnoBlock (Btree.allocRecs plan.free)
    plan.free.length buf
  let buf ← putLeaf g agno uuid Btree.Magic.cnt g.cntBlock (Btree.allocRecs bySize)
    bySize.length buf
  let inodes := plan.inodes g
  let recs := Btree.inobtRecs inodes f.sparse
  let buf ← putLeaf g agno uuid Btree.Magic.ino g.ibtBlock recs inodes.length buf
  let buf ← if f.finobt then
      putLeaf g agno uuid Btree.Magic.fino g.fibtBlock recs inodes.length buf
    else .ok buf
  let buf ← if f.rmapbt then
      putLeaf g agno uuid Btree.Magic.rmap g.rmapBlock (Btree.rmapRecs plan.rmap)
        plan.rmap.length buf
    else .ok buf
  if f.reflink then putLeaf g agno uuid Btree.Magic.refc g.refcBlock [] 0 buf else .ok buf

end MkfsXfs
