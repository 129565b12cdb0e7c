import MkfsXfs.Inspect.Dump

/-!
The walk over a filesystem's metadata (`dump` in `src/inspect.rs`): every AG's headers, every
block of its btrees, every inode of its chunks, and the log.

* `Tree`, `leafRecs`, `nodePtrs`: a per-AG btree and what one of its blocks holds.
* `dumpTree`: the blocks level by level from the root, and the leaf records in order.
* `inodeAt`, `dumpChunk`: the inodes of a chunk, each looked up by its number.
* `dump`: everything.
-/

namespace MkfsXfs

open Checked

namespace Geo

/-- Byte offset of block `agbno` in AG `agno`; the shift drops what leaves the word. -/
def byte (g : Geo) (agno agbno : ℕ) : ℕ :=
  ((agno * g.agblocks + agbno) <<< g.blocklog) % 2 ^ 64

/-- Blocks in AG `agno`. -/
def agLen (g : Geo) (agno : ℕ) : Exec ℕ := do
  let last ← sub g.agcount 1
  if agno = last then sub g.dblocks (agno * g.agblocks) else .ok g.agblocks

/-- Whether a ro-compat feature is on. -/
def has (g : Geo) (ro : ℕ) : Bool := decide (g.roCompat &&& ro ≠ 0)

end Geo

namespace Inspect

/-! ### Btrees -/

/-- A per-AG btree: its name in the dump, magic, and key and record sizes. -/
structure Tree where
  name : String
  magic : ℕ
  keyLen : ℕ
  recLen : ℕ

def bnobt : Tree := ⟨"bnobt", Btree.Magic.bno, 8, Btree.allocRec⟩
def cntbt : Tree := ⟨"cntbt", Btree.Magic.cnt, 8, Btree.allocRec⟩
def inobt : Tree := ⟨"inobt", Btree.Magic.ino, 4, Btree.inobtRec⟩
def finobt : Tree := ⟨"finobt", Btree.Magic.fino, 4, Btree.inobtRec⟩
/-- every node entry holds a low and a high key -/
def rmapbt : Tree := ⟨"rmapbt", Btree.Magic.rmap, 40, Btree.rmapRec⟩
def refcbt : Tree := ⟨"refcntbt", Btree.Magic.refc, 4, Btree.refcRec⟩

/-- The bytes of a block after its header. -/
def space (b : Buf) : ℕ := b.length - Btree.Off.recs

/-- The records of a leaf, raw. -/
def leafRecs (t : Tree) (b : Buf) : List Buf :=
  (List.range (min (be16 b Btree.Off.numrecs) (space b / t.recLen))).map fun r =>
    let lo := Btree.Off.recs + r * t.recLen
    slice b lo (lo + t.recLen)

/-- The keys of a node. -/
def nodeKeys (t : Tree) (b : Buf) : List Buf :=
  (List.range (min (be16 b Btree.Off.numrecs) (space b / (t.keyLen + 4)))).map fun r =>
    let lo := Btree.Off.recs + r * t.keyLen
    slice b lo (lo + t.keyLen)

/-- The blocks below a node: the pointers stand after the room for all keys. -/
def nodePtrs (t : Tree) (b : Buf) : List ℕ :=
  let maxrecs := space b / (t.keyLen + 4)
  (List.range (min (be16 b Btree.Off.numrecs) maxrecs)).map fun r =>
    be32 b (Btree.Off.recs + maxrecs * t.keyLen + 4 * r)

/-- The fields of a block's header. -/
def dumpHeader (bp : String) (b : Buf) (numrecs : ℕ) : Dump :=
  [entry bp "level" (toString (be16 b Btree.Off.level)),
    entry bp "numrecs" (toString numrecs),
    entry bp "leftsib" (toString (be32 b Btree.Off.leftsib)),
    entry bp "rightsib" (toString (be32 b Btree.Off.rightsib)),
    entry bp "blkno" (toString (be64 b Btree.Off.blkno)),
    entry bp "lsn" (toString (be64 b Btree.Off.lsn)),
    uuidEntry bp b Btree.Off.uuid,
    entry bp "owner" (toString (be32 b Btree.Off.owner))] ++
  crcFields bp b Btree.Off.crc

/-- A list of values under numbered keys. -/
def numbered (bp name : String) (values : List String) : Dump :=
  values.zipIdx.map fun (v, r) => entry bp s!"{name}[{r}]" v

/-- The block `b` of a btree: its fields, the blocks below it and its records. -/
def dumpBlock (t : Tree) (bp : String) (agbno : ℕ) (b : Buf) : Dump × List ℕ × List Buf :=
  let m := be32 b Btree.Off.magic
  let start := [entry bp "block" (toString agbno), entry bp "magic" (hex m)]
  if m ≠ t.magic then (start, [], [])
  else
    let header := start ++ dumpHeader bp b (be16 b Btree.Off.numrecs)
    if be16 b Btree.Off.level = 0 then
      let recs := leafRecs t b
      let past := Btree.Off.recs + recs.length * t.recLen
      (header ++ numbered bp "rec" (recs.map hexBytes) ++
        [entry bp "slack" (hexTrimmed (b.drop past))], [], recs)
    else
      let keys := numbered bp "key" ((nodeKeys t b).map hexBytes)
      let ptrs := numbered bp "ptr" ((nodePtrs t b).map toString)
      (header ++ (keys.zip ptrs).flatMap fun (k, p) => [k, p], nodePtrs t b, [])

/-- The block `agbno` of a btree, left out when it is not in the AG. -/
def readBlock (g : Geo) (agno : ℕ) (t : Tree) (bp : String) (agbno : ℕ) :
    DevM (Dump × List ℕ × List Buf) := do
  let len ← Prog.ofExcept (g.agLen agno)
  if len ≤ agbno then
    return ([entry bp "block" s!"{agbno} (outside the AG)"], [], [])
  else do
    let b ← readAt (g.byte agno agbno) g.blocksize
    return dumpBlock t bp agbno b

/-- The blocks of a level, from the `i`-th on. -/
def dumpLevel (g : Geo) (agno : ℕ) (t : Tree) (lp : String) :
    ℕ → List ℕ → DevM (Dump × List ℕ × List Buf)
  | _, [] => return ([], [], [])
  | i, agbno :: blocks => do
      let (d, next, leaves) ← readBlock g agno t s!"{lp}[{i}]" agbno
      let (d', next', leaves') ← dumpLevel g agno t lp (i + 1) blocks
      return (d ++ d', next ++ next', leaves ++ leaves')

/-- The levels from the blocks of one on, of which `rest` may follow it. -/
def dumpLevels (g : Geo) (agno : ℕ) (t : Tree) (p : String) :
    ℕ → List ℕ → DevM (Dump × List Buf)
  | _, [] => return ([], [])
  | 0, blocks => do
      let _ ← dumpLevel g agno t s!"{p}.l{16}" 0 blocks
      Prog.fail (.error (.corrupt s!"{p} is deeper than any real btree"))
  | rest + 1, blocks => do
      let depth := 15 - rest
      let (d, next, leaves) ← dumpLevel g agno t s!"{p}.l{depth}" 0 blocks
      let (d', leaves') ← dumpLevels g agno t p rest next
      return (d ++ d', leaves ++ leaves')

/-- Walk a btree from `root`, dumping every block: the leaf records, raw, in order. -/
def dumpTree (g : Geo) (agno : ℕ) (t : Tree) (root : ℕ) : DevM (Dump × List Buf) :=
  dumpLevels g agno t s!"ag[{agno}].{t.name}" 16 [root]

/-! ### Inodes -/

/-- A shift to the right, a panic from 64 on. -/
def shr64 (n k : ℕ) : Exec ℕ := if k < 64 then .ok (n >>> k) else .error .panic

/-- A shift to the left that drops what leaves the word, a panic from 64 on. -/
def shl64 (n k : ℕ) : Exec ℕ := if k < 64 then .ok ((n <<< k) % 2 ^ 64) else .error .panic

/-- `&b[off..off + len]`, a panic when it is out of range. -/
def sliceAt (b : Buf) (off len : ℕ) : Exec Buf :=
  if off + len ≤ b.length then .ok ((b.drop off).take len) else .error .panic

/-- Where inode `agino` of an AG is: its block and its slot in it. -/
def inodeAt (g : Geo) (agino : ℕ) : Exec (ℕ × ℕ) := do
  let agbno ← shr64 agino g.inopblog
  let mask ← shl64 1 g.inopblog
  return (agbno, agino &&& (mask - 1))

/-- The number of inode `agino` of AG `agno`. -/
def inodeNumber (g : Geo) (agno agino : ℕ) : Exec ℕ := do
  let high ← shl64 agno (g.agblklog + g.inopblog)
  return high ||| agino

/-- Inode `agino`, read by its number. -/
def readInode (g : Geo) (agno startino agino : ℕ) : DevM (ℕ × Buf) := do
  let (agbno, slot) ← Prog.ofExcept (inodeAt g agino)
  let len ← Prog.ofExcept (g.agLen agno)
  if len ≤ agbno then
    Prog.fail (.error (.corrupt s!"inode chunk at {startino} runs out of AG {agno}"))
  else do
    let block ← readAt (g.byte agno agbno) g.blocksize
    let ino ← Prog.ofExcept (inodeNumber g agno agino)
    let b ← Prog.ofExcept (sliceAt block (slot * g.inodesize) g.inodesize)
    return (ino, b)

/-- The first inode of the chunk a record lists, and which of its groups of four are holes. -/
def chunkOf (sparse : Bool) (raw : Buf) : ℕ × ℕ := (be32 raw 0, if sparse then be16 raw 4 else 0)

/-- The inodes of a chunk that are not in a hole, by their place in it. -/
def present (holemask : ℕ) : List ℕ :=
  (List.range 64).filter fun i => !(holemask.testBit (i / 4))

/-- The inodes of a chunk, one after the other. -/
def dumpInodes (g : Geo) (agno startino : ℕ) : List ℕ → DevM Dump
  | [] => return []
  | i :: is => do
      let (ino, b) ← readInode g agno startino (startino + i)
      let d ← dumpInodes g agno startino is
      return dumpInode s!"inode[{ino}]" b ++ d

/-- The inodes of the chunks that the inode btree lists, holes excepted. -/
def dumpChunks (g : Geo) (agno : ℕ) (sparse : Bool) : List Buf → DevM Dump
  | [] => return []
  | raw :: chunks => do
      let (startino, holemask) := chunkOf sparse raw
      let d ← dumpInodes g agno startino (present holemask)
      let d' ← dumpChunks g agno sparse chunks
      return d ++ d'

/-! ### The log -/

/-- The record at the start of the log, `recLen` bytes of the block `first`. -/
def dumpRecord (first : Buf) (recLen : ℕ) : Dump :=
  let h := first.take bbsize
  let hex32 := fun o => hex (be32 h o)
  let hex64 := fun o => hex (be64 h o)
  let p := "log.header"
  table p hex32 [("magicno", Log.Off.magicno), ("cycle", Log.Off.cycle),
    ("version", Log.Off.version), ("len", Log.Off.len), ("crc", Log.Off.crc),
    ("prev_block", Log.Off.prevBlock), ("num_logops", Log.Off.numLogops),
    ("cycle_data0", Log.Off.cycleData), ("fmt", Log.Off.fmt), ("size", Log.Off.size)] ++
  table p hex64 [("lsn", Log.Off.lsn), ("tail_lsn", Log.Off.tailLsn)] ++
  [uuidEntry p h Log.Off.fsUuid,
    entry p "rest" (hexTrimmed (h.drop (Log.Off.size + 4))),
    entry "log" "record" (hexTrimmed (slice first bbsize (min recLen first.length)))]

/-- The blocks of a buffer that are not all zero. -/
def nonzeroBlocks (bs : ℕ) (buf : Buf) : ℕ :=
  (List.range (divCeil buf.length bs)).countP fun i =>
    ((buf.drop (i * bs)).take bs).any fun x => x ≠ 0

/-- How much of the log is read at once when it is scanned. -/
def scanSize : ℕ := 1 <<< 20

lemma scanSize_pos : 0 < scanSize := by decide

/-- The blocks that are not all zero from byte `pos` of the log on. -/
def scanLog (g : Geo) (logAt logLen pos : ℕ) : DevM ℕ :=
  if _h : pos < logLen then do
    let n := min scanSize (logLen - pos)
    let offset ← Prog.ofExcept (fit 64 (logAt + pos))
    let buf ← readAt offset n
    let rest ← scanLog g logAt logLen (pos + n)
    return nonzeroBlocks g.blocksize buf + rest
  else return 0
termination_by logLen - pos
decreasing_by
  have := scanSize_pos
  omega

/-- The log: its first record, and whether everything after it is zero. -/
def dumpLog (g : Geo) : DevM Dump := do
  let bs := g.blocksize
  let logAt := g.byte (g.logstart >>> g.agblklog) (g.logstart &&& (2 ^ g.agblklog - 1))
  let first ← readAt logAt bs
  let sunit := Log.clearSunit g.logsunit g.logsectsize
  let recLen := max (if sunit > 0 then divCeil sunit bbsize else 2) 2 * bbsize
  let after := (first.drop (min recLen first.length)).any fun x => x ≠ 0
  let rest ← scanLog g logAt (g.logblocks * bs) bs
  return dumpRecord first recLen ++
    [entry "log" "nonzero_blocks_after_first_record" (toString (after.toNat + rest))]

/-! ### Everything -/

/-- The sector `i` of an AG's head. -/
def sectorOf (g : Geo) (head : Buf) (i : ℕ) : Buf :=
  slice head (i * g.sectsize) ((i + 1) * g.sectsize)

/-- Blocks taken by the four header sectors. -/
def headerBlocks (g : Geo) : ℕ := divCeil (4 * g.sectsize) g.blocksize

/-- The btrees of an AG and the root blocks that its AGF and its AGI record. -/
def headRoots (g : Geo) (agf agi : Buf) : List (Tree × ℕ) :=
  [(bnobt, be32 agf Agf.Off.bnoRoot), (cntbt, be32 agf Agf.Off.cntRoot),
    (inobt, be32 agi Agi.Off.root)] ++
  (if g.has Sb.Version.roFinobt then [(finobt, be32 agi Agi.Off.freeRoot)] else []) ++
  (if g.has Sb.Version.roRmapbt then [(rmapbt, be32 agf Agf.Off.rmapRoot)] else []) ++
  (if g.has Sb.Version.roReflink then [(refcbt, be32 agf Agf.Off.refcountRoot)] else [])

/-- Walk a btree that a feature adds. -/
def dumpTreeIf (on : Bool) (g : Geo) (agno : ℕ) (t : Tree) (root : ℕ) : DevM Dump :=
  if on then do
    let (d, _) ← dumpTree g agno t root
    return d
  else return []

/-- The btrees and the inodes of an AG, from the roots in its headers. -/
def dumpTrees (g : Geo) (agno : ℕ) (agf agi : Buf) : DevM Dump := do
  let root := fun b o => be32 b o
  let sparse := decide (g.incompat &&& Sb.Version.inSpinodes ≠ 0)
  let (bno, _) ← dumpTree g agno bnobt (root agf Agf.Off.bnoRoot)
  let (cnt, _) ← dumpTree g agno cntbt (root agf Agf.Off.cntRoot)
  let rmap ← dumpTreeIf (g.has Sb.Version.roRmapbt) g agno rmapbt (root agf Agf.Off.rmapRoot)
  let refc ← dumpTreeIf (g.has Sb.Version.roReflink) g agno refcbt
    (root agf Agf.Off.refcountRoot)
  let (ino, chunks) ← dumpTree g agno inobt (root agi Agi.Off.root)
  let fino ← dumpTreeIf (g.has Sb.Version.roFinobt) g agno finobt (root agi Agi.Off.freeRoot)
  let inodes ← dumpChunks g agno sparse chunks
  return bno ++ cnt ++ rmap ++ refc ++ ino ++ fino ++ inodes

/-- One AG: its headers, its btrees and its inodes. -/
def dumpAg (g : Geo) (agno : ℕ) : DevM Dump := do
  let head ← readAt (g.byte agno 0) (headerBlocks g * g.blocksize)
  let p := s!"ag[{agno}]"
  let sb := dumpSb s!"{p}.sb" (sectorOf g head 0) g.sectsize
  let agf := sectorOf g head 1
  let agi := sectorOf g head 2
  let agfl := sectorOf g head 3
  if be32 agf Agf.Off.magicnum ≠ Agf.magic ∨ be32 agi Agi.Off.magicnum ≠ Agi.magic ∨
      be32 agfl Agfl.Off.magicnum ≠ Agfl.magic then
    return sb ++ [entry p "headers" "bad magic"]
  else do
    let trees ← dumpTrees g agno agf agi
    return sb ++ dumpAgf s!"{p}.agf" agf ++ dumpAgi s!"{p}.agi" agi ++
      dumpAgfl s!"{p}.agfl" agfl ++ trees

/-- The AGs from `agno` on, `n` of them. -/
def dumpAgs (g : Geo) : ℕ → ℕ → DevM Dump
  | _, 0 => return []
  | agno, n + 1 => do
      let d ← dumpAg g agno
      let d' ← dumpAgs g (agno + 1) n
      return d ++ d'

end Inspect

open Inspect in
/-- Dump every piece of metadata on the device. -/
def dump (dev : Device) : DevM Dump := do
  let g ← geometry dev
  let ags ← dumpAgs g.1 0 g.1.agcount
  let log ← dumpLog g.1
  return ags ++ log

end MkfsXfs
