import MkfsXfs.Inspect.Usable

/-!
The walk of a btree (`dump_tree` in `src/inspect.rs`), level by level, against its recursive
meaning.

* `Levels.walk`, `Levels.traverse`: the leaves of a tree taken level by level and by descent;
  `Levels.walk_eq`.
* `Exact.dumpTree`: the walk with every slice of a block checked; `Exact.dumpTree_eq`.
* `dumpTree_safe`: on whatever the device holds the walk reads only blocks of its AG.
* `WellFormed`: a btree hangs from a block.  `traverse`: its records, by descent.
* `dumpTree_walks`: the walk is safe, and of a well-formed btree returns the records that the
  descent does, in their order.
-/

namespace MkfsXfs

open Checked

/-! ### Trees level by level -/

namespace Levels

variable {β γ : Type} (children : β → List β) (leaves : β → List γ)

/-- The leaves `n` levels below a node, by descent. -/
def traverse : ℕ → β → List γ
  | 0, b => leaves b
  | n + 1, b => (children b).flatMap (traverse n)

/-- The leaves `n` levels below the nodes of a level, level by level. -/
def walk : ℕ → List β → List γ
  | 0, bs => bs.flatMap leaves
  | n + 1, bs => walk n (bs.flatMap children)

/-- **Level by level and by descent the leaves come in the same order.** -/
theorem walk_eq (n : ℕ) (bs : List β) :
    walk children leaves n bs = bs.flatMap (traverse children leaves n) := by
  induction n generalizing bs with
  | zero => rfl
  | succ n ih =>
      rw [walk, ih, List.flatMap_assoc]
      rfl

end Levels

namespace Geo

/-- The geometry passes the parser's checks, and its fields are related. -/
structure Coherent (g : Geo) : Prop where
  sized : g.Sized
  shaped : g.Shaped
  roomy : g.Roomy
  related : g.Related

/-- AG `agno` has `len` blocks, among the data blocks, each with an address. -/
structure AgOf (g : Geo) (agno len : ℕ) : Prop where
  agLen : g.agLen agno = .ok len
  pos : 1 ≤ len
  inside : agno * g.agblocks + len ≤ g.dblocks
  byte : ∀ agbno < len, g.byte agno agbno = (agno * g.agblocks + agbno) * g.blocksize

lemma Coherent.blocksize_ge {g : Geo} (h : g.Coherent) : 512 ≤ g.blocksize := h.sized.2.1

/-- Every AG of a coherent geometry has its blocks. -/
lemma Coherent.ag {g : Geo} (h : g.Coherent) {agno : ℕ} (hagno : agno < g.agcount) :
    ∃ len, g.AgOf agno len := by
  have husable := (usable_iff_related h.sized h.shaped h.roomy).2 h.related
  obtain ⟨len, hlen, hpos, -, hbyte⟩ := husable.agLen agno hagno
  have hcount : 0 < g.agcount := by omega
  refine ⟨len, hlen, hpos, ?_, fun agbno hagbno => ?_⟩
  · have hlast := h.related.last_ag
    by_cases heq : agno = g.agcount - 1
    · rw [heq, agLen_last hcount, sub_eq_ok] at hlen
      rw [heq]
      omega
    · rw [agLen_of_lt hcount heq] at hlen
      have hle : (agno + 1) * g.agblocks ≤ (g.agcount - 1) * g.agblocks :=
        Nat.mul_le_mul_right _ (by omega)
      have hall : g.agblocks = len := Except.ok.inj hlen
      rw [Nat.succ_mul] at hle
      omega
  · rw [hbyte agbno hagbno, h.shaped.1]

end Geo

namespace Inspect

/-! ### Slices, checked -/

namespace Exact

/-- The slices taken of a block of a btree, each a panic when it goes past the end. -/
def checkBlock (t : Tree) (b : Buf) : Exec Unit := do
  Geo.reaches b (Btree.Off.magic + 4)
  if be32 b Btree.Off.magic ≠ t.magic then return ()
  else do
    Geo.reaches b (Btree.Off.crc + 4)
    let space ← sub b.length Btree.Off.recs
    if be16 b Btree.Off.level = 0 then do
      let room ← div space t.recLen
      let n := min (be16 b Btree.Off.numrecs) room
      (List.range n).forM fun r => Geo.reaches b (Btree.Off.recs + r * t.recLen + t.recLen)
      Geo.reaches b (Btree.Off.recs + n * t.recLen)
    else do
      let maxrecs ← div space (t.keyLen + 4)
      let n := min (be16 b Btree.Off.numrecs) maxrecs
      (List.range n).forM fun r => do
        Geo.reaches b (Btree.Off.recs + maxrecs * t.keyLen + 4 * r + 4)
        Geo.reaches b (Btree.Off.recs + r * t.keyLen + t.keyLen)

/-- The block `agbno` of a btree, left out when it is not in the AG. -/
def readBlock (g : Geo) (agno : ℕ) (t : Tree) (bp : String) (agbno : ℕ) :
    DevM (Dump × List ℕ × List Buf) := do
  let len ← Prog.ofExcept (g.agLen agno)
  if len ≤ agbno then
    return ([entry bp "block" s!"{agbno} (outside the AG)"], [], [])
  else do
    let b ← readAt (g.byte agno agbno) g.blocksize
    Prog.ofExcept (checkBlock t b)
    return dumpBlock t bp agbno b

/-- The blocks of a level, from the `i`-th on. -/
def dumpLevel (g : Geo) (agno : ℕ) (t : Tree) (lp : String) :
    ℕ → List ℕ → DevM (Dump × List ℕ × List Buf)
  | _, [] => return ([], [], [])
  | i, agbno :: blocks => do
      let (d, next, leaves) ← readBlock g agno t s!"{lp}[{i}]" agbno
      let (d', next', leaves') ← dumpLevel g agno t lp (i + 1) blocks
      return (d ++ d', next ++ next', leaves ++ leaves')

/-- The levels from the blocks of one on, of which `rest` may follow it. -/
def dumpLevels (g : Geo) (agno : ℕ) (t : Tree) (p : String) :
    ℕ → List ℕ → DevM (Dump × List Buf)
  | _, [] => return ([], [])
  | 0, blocks => do
      let _ ← dumpLevel g agno t s!"{p}.l{16}" 0 blocks
      Prog.fail (.error (.corrupt s!"{p} is deeper than any real btree"))
  | rest + 1, blocks => do
      let depth := 15 - rest
      let (d, next, leaves) ← dumpLevel g agno t s!"{p}.l{depth}" 0 blocks
      let (d', leaves') ← dumpLevels g agno t p rest next
      return (d ++ d', leaves ++ leaves')

/-- Walk a btree from `root`. -/
def dumpTree (g : Geo) (agno : ℕ) (t : Tree) (root : ℕ) : DevM (Dump × List Buf) :=
  dumpLevels g agno t s!"ag[{agno}].{t.name}" 16 [root]

section Checks

variable {g : Geo} {agno : ℕ} {t : Tree} {b : Buf}

lemma reaches_of_le {n : ℕ} (h : n ≤ b.length) : Geo.reaches b n = .ok () := if_pos h

/-- Checks that all hold. -/
lemma forM_reaches {l : List ℕ} {f : ℕ → Exec Unit} (h : ∀ r ∈ l, f r = .ok ()) :
    l.forM f = .ok () := by
  induction l with
  | nil => rfl
  | cons r l ih =>
      change (f r >>= fun _ => l.forM f) = .ok ()
      rw [h r List.mem_cons_self, ok_bind]
      exact ih fun r' hr' => h r' (List.mem_cons_of_mem r hr')

/-- **No slice of a block goes past its end**, whatever count of records it names. -/
lemma checkBlock_ok (ht : 0 < t.recLen) (hb : Btree.Off.recs ≤ b.length) :
    checkBlock t b = .ok () := by
  have hrecs : Btree.Off.recs = 56 := rfl
  rw [hrecs] at hb
  rw [checkBlock, reaches_of_le (by rw [Btree.Off.magic]; omega), ok_bind]
  split_ifs with hmagic hlevel
  · rfl
  · rw [reaches_of_le (by rw [Btree.Off.crc]; omega), ok_bind, sub_of_le (by omega), ok_bind,
      div_of_pos ht, ok_bind]
    dsimp only
    have hroom : ∀ n ≤ (b.length - Btree.Off.recs) / t.recLen,
        Btree.Off.recs + n * t.recLen ≤ b.length := fun n hn => by
      have := (Nat.le_div_iff_mul_le ht).1 hn
      omega
    have hleaf : ∀ r ∈ List.range (min (be16 b Btree.Off.numrecs)
        ((b.length - Btree.Off.recs) / t.recLen)),
        Geo.reaches b (Btree.Off.recs + r * t.recLen + t.recLen) = .ok () := fun r hr => by
      have hr' := List.mem_range.1 hr
      have hnext := hroom (r + 1) (by omega)
      rw [Nat.succ_mul] at hnext
      exact reaches_of_le (by omega)
    rw [forM_reaches hleaf, ok_bind]
    exact reaches_of_le (hroom _ (Nat.min_le_right _ _))
  · rw [reaches_of_le (by rw [Btree.Off.crc]; omega), ok_bind, sub_of_le (by omega), ok_bind,
      div_of_pos (Nat.succ_pos _), ok_bind]
    dsimp only
    refine forM_reaches fun r hr => ?_
    have hr' := List.mem_range.1 hr
    generalize hmax : (b.length - Btree.Off.recs) / (t.keyLen + 4) = maxrecs at *
    have hall : maxrecs * (t.keyLen + 4) ≤ b.length - Btree.Off.recs := by
      rw [← hmax]
      exact Nat.div_mul_le_self _ _
    have hkeys : (r + 1) * t.keyLen ≤ maxrecs * t.keyLen := Nat.mul_le_mul_right _ (by omega)
    rw [Nat.mul_add] at hall
    rw [Nat.succ_mul] at hkeys
    rw [reaches_of_le (by omega), ok_bind]
    exact reaches_of_le (by omega)

lemma readBlock_eq (ht : 0 < t.recLen) (hbs : 512 ≤ g.blocksize) (bp : String) (agbno : ℕ) :
    readBlock g agno t bp agbno = Inspect.readBlock g agno t bp agbno := by
  refine congrArg ((Prog.ofExcept (g.agLen agno) : DevM ℕ) >>= ·) (funext fun len => ?_)
  split
  · rfl
  · have hread : (readAt (g.byte agno agbno) g.blocksize).Safe (fun _ => True) (fun _ => True)
        (fun b : Buf => b.length = g.blocksize) := safe_readAt trivial fun _ hb => hb
    refine hread.bind_congr fun b hb => ?_
    have hrecs : Btree.Off.recs = 56 := rfl
    rw [checkBlock_ok ht (by omega)]
    rfl

lemma dumpLevel_eq (ht : 0 < t.recLen) (hbs : 512 ≤ g.blocksize) (lp : String) (i : ℕ)
    (blocks : List ℕ) : dumpLevel g agno t lp i blocks = Inspect.dumpLevel g agno t lp i blocks := by
  induction blocks generalizing i with
  | nil => rfl
  | cons agbno blocks ih => rw [dumpLevel, Inspect.dumpLevel, readBlock_eq ht hbs, ih]

lemma dumpLevels_eq (ht : 0 < t.recLen) (hbs : 512 ≤ g.blocksize) (p : String) (rest : ℕ)
    (blocks : List ℕ) :
    dumpLevels g agno t p rest blocks = Inspect.dumpLevels g agno t p rest blocks := by
  induction rest generalizing blocks with
  | zero =>
      cases blocks with
      | nil => rfl
      | cons agbno blocks => simp [dumpLevels, Inspect.dumpLevels, dumpLevel_eq ht hbs]
  | succ rest ih =>
      cases blocks with
      | nil => rfl
      | cons agbno blocks => simp [dumpLevels, Inspect.dumpLevels, dumpLevel_eq ht hbs, ih]

/-- The checks never fail. -/
theorem dumpTree_eq (ht : 0 < t.recLen) (hbs : 512 ≤ g.blocksize) (root : ℕ) :
    dumpTree g agno t root = Inspect.dumpTree g agno t root :=
  dumpLevels_eq ht hbs _ 16 [root]

end Checks

end Exact

/-! ### Whatever the device holds -/

/-- The operation reads one block of the AG. -/
def ReadsAg (g : Geo) (agno len : ℕ) (op : DevOp) : Prop :=
  ∃ agbno < len, op = .readAt ((agno * g.agblocks + agbno) * g.blocksize) g.blocksize

/-- The fault is a refusal of what was read. -/
def Corrupt (f : Fault Error) : Prop := ∃ msg, f = .error (.corrupt msg)

section Walk

variable {g : Geo} {agno len : ℕ} {t : Tree}

lemma readBlock_safe (hag : g.AgOf agno len) (bp : String) (agbno : ℕ) :
    (readBlock g agno t bp agbno).Safe (ReadsAg g agno len) Corrupt (fun _ => True) := by
  rw [readBlock, hag.agLen]
  have hlen : (Prog.ofExcept (.ok len) : DevM ℕ).Safe (ReadsAg g agno len) Corrupt (· = len) := rfl
  refine hlen.bind fun n hn => ?_
  subst hn
  split
  · trivial
  · rename_i hin
    have hlt := Nat.not_le.1 hin
    exact (safe_readAt ⟨agbno, hlt, by rw [hag.byte agbno hlt]⟩ fun _ _ => trivial).bind
      (Q := fun _ => True) (R := fun _ => True) fun _ _ => trivial

lemma dumpLevel_safe (hag : g.AgOf agno len) (lp : String) (i : ℕ) (blocks : List ℕ) :
    (dumpLevel g agno t lp i blocks).Safe (ReadsAg g agno len) Corrupt (fun _ => True) := by
  induction blocks generalizing i with
  | nil => trivial
  | cons agbno blocks ih =>
      rw [dumpLevel]
      refine (readBlock_safe hag _ agbno).bind fun r _ => ?_
      exact (ih (i + 1)).bind (R := fun _ => True) fun _ _ => trivial

lemma dumpLevels_safe (hag : g.AgOf agno len) (p : String) (rest : ℕ) (blocks : List ℕ) :
    (dumpLevels g agno t p rest blocks).Safe (ReadsAg g agno len) Corrupt (fun _ => True) := by
  induction rest generalizing blocks with
  | zero =>
      cases blocks with
      | nil => trivial
      | cons agbno blocks =>
          simp only [dumpLevels]
          exact (dumpLevel_safe hag _ 0 _).bind fun _ _ => ⟨_, rfl⟩
  | succ rest ih =>
      cases blocks with
      | nil => trivial
      | cons agbno blocks =>
          simp only [dumpLevels]
          refine (dumpLevel_safe hag _ 0 _).bind fun r _ => ?_
          exact (ih r.2.1).bind (R := fun _ => True) fun _ _ => trivial

/-- **The walk reads only blocks of its AG**, whatever the device holds. -/
theorem dumpTree_safe (hag : g.AgOf agno len) (root : ℕ) :
    (dumpTree g agno t root).Safe (ReadsAg g agno len) Corrupt (fun _ => True) :=
  dumpLevels_safe hag _ 16 [root]

end Walk

/-! ### What a btree means -/

/-- The records of a leaf, one after the other. -/
def recordsOf (t : Tree) (b : Buf) : List Buf :=
  (List.range (be16 b Btree.Off.numrecs)).map fun r =>
    slice b (Btree.Off.recs + r * t.recLen) (Btree.Off.recs + (r + 1) * t.recLen)

/-- How many records a leaf holds. -/
def leafCapacity (t : Tree) (b : Buf) : ℕ := (b.length - Btree.Off.recs) / t.recLen

/-- How many keys and pointers a node holds. -/
def nodeCapacity (t : Tree) (b : Buf) : ℕ := (b.length - Btree.Off.recs) / (t.keyLen + 4)

/-- The blocks below a node: the pointers come after the room for all keys. -/
def childrenOf (t : Tree) (b : Buf) : List ℕ :=
  (List.range (be16 b Btree.Off.numrecs)).map fun r =>
    be32 b (Btree.Off.recs + nodeCapacity t b * t.keyLen + 4 * r)

/-- A btree of `level + 1` levels hangs from block `agbno`: its blocks lie in the AG and carry
the tree's magic and their level, and hold the records they count. -/
def WellFormed (blockAt : ℕ → Buf) (len : ℕ) (t : Tree) : ℕ → ℕ → Prop
  | 0, agbno => agbno < len ∧ be32 (blockAt agbno) Btree.Off.magic = t.magic ∧
      be16 (blockAt agbno) Btree.Off.level = 0 ∧
      be16 (blockAt agbno) Btree.Off.numrecs ≤ leafCapacity t (blockAt agbno)
  | level + 1, agbno => agbno < len ∧ be32 (blockAt agbno) Btree.Off.magic = t.magic ∧
      be16 (blockAt agbno) Btree.Off.level = level + 1 ∧
      be16 (blockAt agbno) Btree.Off.numrecs ≤ nodeCapacity t (blockAt agbno) ∧
      ∀ child ∈ childrenOf t (blockAt agbno), WellFormed blockAt len t level child

/-- The records of the btree of `level + 1` levels that hangs from a block, by descent from
left to right. -/
def traverse (blockAt : ℕ → Buf) (t : Tree) : ℕ → ℕ → List Buf :=
  Levels.traverse (fun a => childrenOf t (blockAt a)) (fun a => recordsOf t (blockAt a))

/-- The blocks of AG `agno`. -/
def blockIn (g : Geo) (agno : ℕ) (d : Disk) (agbno : ℕ) : Buf :=
  d.readBuf ((agno * g.agblocks + agbno) * g.blocksize) g.blocksize

section Meaning

variable {g : Geo} {agno len level : ℕ} {t : Tree} {b : Buf} {d : Disk} {dev : Device}
  {blockAt : ℕ → Buf} {agbno : ℕ}

lemma leafRecs_eq (h : be16 b Btree.Off.numrecs ≤ leafCapacity t b) :
    leafRecs t b = recordsOf t b := by
  rw [leafCapacity] at h
  rw [leafRecs, recordsOf, space, Nat.min_eq_left h]
  refine List.map_congr_left fun r _ => ?_
  dsimp only
  rw [Nat.succ_mul, Nat.add_assoc]

lemma nodePtrs_eq (h : be16 b Btree.Off.numrecs ≤ nodeCapacity t b) :
    nodePtrs t b = childrenOf t b := by
  rw [nodeCapacity] at h
  rw [nodePtrs, childrenOf, nodeCapacity, space, Nat.min_eq_left h]

/-- What the walk takes of a leaf: its records. -/
lemma dumpBlock_leaf (bp : String) (h : WellFormed blockAt len t 0 agbno) :
    (dumpBlock t bp agbno (blockAt agbno)).2 = ([], recordsOf t (blockAt agbno)) := by
  obtain ⟨-, hmagic, hlevel, hcount⟩ := h
  rw [dumpBlock, if_neg (not_not.2 hmagic), if_pos hlevel, leafRecs_eq hcount]

/-- What the walk takes of a node: the blocks below it. -/
lemma dumpBlock_node (bp : String) (h : WellFormed blockAt len t (level + 1) agbno) :
    (dumpBlock t bp agbno (blockAt agbno)).2 = (childrenOf t (blockAt agbno), []) := by
  obtain ⟨-, hmagic, hlevel, hcount, -⟩ := h
  have hnode : be16 (blockAt agbno) Btree.Off.level ≠ 0 := by omega
  rw [dumpBlock, if_neg (not_not.2 hmagic), if_neg hnode, nodePtrs_eq hcount]

lemma WellFormed.lt (h : WellFormed blockAt len t level agbno) : agbno < len := by
  cases level with
  | zero => exact h.1
  | succ level => exact h.1

/-- A block of the AG is read whole. -/
lemma run_readBlock (hag : g.AgOf agno len) (hd : d.Healthy)
    (hdev : g.dblocks * g.blocksize ≤ dev.size) (h : agbno < len) (bp : String) :
    dev.run (readBlock g agno t bp agbno) d =
      (.ok (dumpBlock t bp agbno (blockIn g agno d agbno)), d) := by
  have hend : (agno * g.agblocks + agbno) * g.blocksize + g.blocksize ≤ dev.size := calc
    (agno * g.agblocks + agbno) * g.blocksize + g.blocksize
        = (agno * g.agblocks + agbno + 1) * g.blocksize := (Nat.succ_mul _ _).symm
    _ ≤ g.dblocks * g.blocksize := Nat.mul_le_mul_right _ (by have := hag.inside; omega)
    _ ≤ dev.size := hdev
  rw [readBlock, hag.agLen, Device.run_bind_ok (Device.run_monadLift (.ok len)),
    if_neg (Nat.not_le.2 h), hag.byte agbno h, Device.run_bind_ok (Device.run_readAt hd hend)]
  rfl

/-- A level of blocks of the AG is read block by block, from left to right. -/
lemma run_dumpLevel (hag : g.AgOf agno len) (hd : d.Healthy)
    (hdev : g.dblocks * g.blocksize ≤ dev.size) {children : ℕ → List ℕ} {records : ℕ → List Buf}
    (lp : String) (i : ℕ) {blocks : List ℕ} (hin : ∀ a ∈ blocks, a < len)
    (htake : ∀ a ∈ blocks, ∀ bp,
      (dumpBlock t bp a (blockIn g agno d a)).2 = (children a, records a)) :
    ∃ dump, dev.run (dumpLevel g agno t lp i blocks) d =
      (.ok (dump, blocks.flatMap children, blocks.flatMap records), d) := by
  induction blocks generalizing i with
  | nil => exact ⟨[], rfl⟩
  | cons a blocks ih =>
      obtain ⟨dump, hrest⟩ := ih (i + 1) (fun x hx => hin x (List.mem_cons_of_mem a hx))
        fun x hx => htake x (List.mem_cons_of_mem a hx)
      have hfirst := run_readBlock (t := t) hag hd hdev (hin a List.mem_cons_self) s!"{lp}[{i}]"
      have hblock : dumpBlock t s!"{lp}[{i}]" a (blockIn g agno d a) =
          ((dumpBlock t s!"{lp}[{i}]" a (blockIn g agno d a)).1, children a, records a) :=
        Prod.ext rfl (htake a List.mem_cons_self _)
      rw [hblock] at hfirst
      rw [dumpLevel, Device.run_bind_ok hfirst]
      dsimp only
      rw [Device.run_bind_ok hrest]
      exact ⟨(dumpBlock t s!"{lp}[{i}]" a (blockIn g agno d a)).1 ++ dump, rfl⟩

/-- **The levels below well-formed blocks are walked one after the other**, down to the
leaves. -/
lemma run_dumpLevels (hag : g.AgOf agno len) (hd : d.Healthy)
    (hdev : g.dblocks * g.blocksize ≤ dev.size) (p : String) {rest : ℕ} (hrest : level < rest)
    {blocks : List ℕ} (h : ∀ a ∈ blocks, WellFormed (blockIn g agno d) len t level a) :
    ∃ dump, dev.run (dumpLevels g agno t p rest blocks) d =
      (.ok (dump, Levels.walk (fun a => childrenOf t (blockIn g agno d a))
        (fun a => recordsOf t (blockIn g agno d a)) level blocks), d) := by
  induction level generalizing rest blocks with
  | zero =>
      obtain ⟨rest, rfl⟩ := Nat.exists_eq_succ_of_ne_zero hrest.ne'
      cases blocks with
      | nil => exact ⟨[], rfl⟩
      | cons a blocks =>
          obtain ⟨dump, hlevel⟩ := run_dumpLevel hag hd hdev s!"{p}.l{15 - rest}" 0
            (fun x hx => (h x hx).lt) fun x hx bp => dumpBlock_leaf bp (h x hx)
          simp only [dumpLevels]
          rw [Device.run_bind_ok hlevel]
          have hnone : (a :: blocks).flatMap (fun _ : ℕ => ([] : List ℕ)) = [] := by simp
          have hend : dev.run (dumpLevels g agno t p rest []) d = (.ok ([], []), d) := by
            cases rest <;> rfl
          dsimp only
          rw [hnone, Device.run_bind_ok hend]
          dsimp only
          rw [List.append_nil, List.append_nil]
          exact ⟨dump, rfl⟩
  | succ level ih =>
      obtain ⟨rest, rfl⟩ := Nat.exists_eq_succ_of_ne_zero (by omega : rest ≠ 0)
      cases blocks with
      | nil =>
          refine ⟨[], ?_⟩
          rw [Levels.walk_eq]
          rfl
      | cons a blocks =>
          obtain ⟨dump, hlevel⟩ := run_dumpLevel hag hd hdev s!"{p}.l{15 - rest}" 0
            (fun x hx => (h x hx).lt) fun x hx bp => dumpBlock_node bp (h x hx)
          have hbelow : ∀ c ∈ (a :: blocks).flatMap fun a => childrenOf t (blockIn g agno d a),
              WellFormed (blockIn g agno d) len t level c := fun c hc => by
            obtain ⟨x, hx, hcx⟩ := List.mem_flatMap.1 hc
            exact (h x hx).2.2.2.2 c hcx
          obtain ⟨dump', hnext⟩ := ih (by omega : level < rest) hbelow
          have hnone : (a :: blocks).flatMap (fun _ : ℕ => ([] : List Buf)) = [] := by simp
          simp only [dumpLevels]
          rw [Device.run_bind_ok hlevel]
          dsimp only
          rw [Device.run_bind_ok hnext, hnone]
          exact ⟨dump ++ dump', rfl⟩

end Meaning

/-- **The walk of a btree is safe and complete.**  Whatever the device holds, it reads only
blocks of its AG, slices no block past its end, and returns; of a well-formed btree of at most
16 levels it returns exactly the records of the descent from left to right, in that order. -/
theorem dumpTree_walks (g : Geo) (hg : g.Coherent) (agno : ℕ) (hagno : agno < g.agcount)
    (t : Tree) (ht : 0 < t.recLen) :
    ∃ len, g.AgOf agno len ∧
      (∀ root, (Exact.dumpTree g agno t root).Safe (ReadsAg g agno len) Corrupt fun _ => True) ∧
      (∀ (dev : Device) (d : Disk) (root : ℕ),
        Returns (dev.run (Exact.dumpTree g agno t root) d).1) ∧
      ∀ (dev : Device) (d : Disk) (level root : ℕ), d.Healthy →
        g.dblocks * g.blocksize ≤ dev.size → level < 16 →
        WellFormed (blockIn g agno d) len t level root →
        ∃ dump, dev.run (Exact.dumpTree g agno t root) d =
          (.ok (dump, traverse (blockIn g agno d) t level root), d) := by
  obtain ⟨len, hag⟩ := hg.ag hagno
  have heq : ∀ root, Exact.dumpTree g agno t root = dumpTree g agno t root :=
    Exact.dumpTree_eq ht hg.blocksize_ge
  refine ⟨len, hag, fun root => ?_, fun dev d root f hf => ?_,
    fun dev d level root hd hdev hlevel hroot => ?_⟩
  · rw [heq]
    exact dumpTree_safe hag root
  · rw [heq] at hf
    rcases Device.run_fault (dumpTree_safe hag root) hf with ⟨msg, rfl⟩ | ⟨e, rfl, -⟩
    · exact ⟨_, rfl⟩
    · exact ⟨_, rfl⟩
  · have hblocks : ∀ a ∈ [root], WellFormed (blockIn g agno d) len t level a := fun a ha => by
      rwa [List.mem_singleton.1 ha]
    obtain ⟨dump, hrun⟩ := run_dumpLevels hag hd hdev s!"ag[{agno}].{t.name}" hlevel hblocks
    refine ⟨dump, ?_⟩
    rw [heq, dumpTree, hrun, Levels.walk_eq, List.flatMap_singleton]
    rfl

/-- A btree of two levels: a node at block 3, its leaves at blocks 5 and 4. -/
def treeBlock (agbno : ℕ) : Buf :=
  if agbno = 3 then putFields (List.replicate 4096 0) [.u32 Btree.Off.magic Btree.Magic.cnt,
    .u16 Btree.Off.level 1, .u16 Btree.Off.numrecs 2, .u32 2744 5, .u32 2748 4]
  else putFields (List.replicate 4096 0) [.u32 Btree.Off.magic Btree.Magic.cnt,
    .u16 Btree.Off.numrecs 1, .u32 Btree.Off.recs agbno]

/-- A disk that holds it. -/
def treeDisk : Disk :=
  { Disk.blank with bytes := fun a => byteAt (treeBlock (a / 4096)) (a % 4096) }

lemma length_treeBlock (agbno : ℕ) : (treeBlock agbno).length = 4096 := by
  rw [treeBlock]
  split_ifs
  · rw [length_putFields, List.length_replicate]
  · rw [length_putFields, List.length_replicate]

lemma blockIn_treeDisk : blockIn (Geo.geoWith 12 3 10) 0 treeDisk = treeBlock := by
  funext p
  have hbs : (Geo.geoWith 12 3 10).blocksize = 4096 := rfl
  refine Buf.ext (by rw [blockIn, Disk.length_readBuf, length_treeBlock, hbs]) fun i hi => ?_
  rw [blockIn, Disk.length_readBuf, hbs] at hi
  rw [blockIn, hbs, Nat.zero_mul, Nat.zero_add, Disk.byteAt_readBuf hi]
  have hdiv : (p * 4096 + i) / 4096 = p := by omega
  have hmod : (p * 4096 + i) % 4096 = i := by omega
  change byteAt (treeBlock ((p * 4096 + i) / 4096)) ((p * 4096 + i) % 4096) = _
  rw [hdiv, hmod]

lemma coherent_geoWith : (Geo.geoWith 12 3 10).Coherent where
  sized := Geo.sized_geoWith 12 3 10
  shaped := Geo.shaped_geoWith 3 10
  roomy := by norm_num [Geo.Roomy, Geo.geoWith]
  related := by constructor <;> decide

lemma wellFormed_treeBlock : WellFormed treeBlock 1024 cntbt 1 3 := by
  have hleaf : ∀ agbno, agbno = 4 ∨ agbno = 5 → WellFormed treeBlock 1024 cntbt 0 agbno := by
    rintro agbno (rfl | rfl)
    · exact ⟨by norm_num, by decide +kernel, by decide +kernel, by decide +kernel⟩
    · exact ⟨by norm_num, by decide +kernel, by decide +kernel, by decide +kernel⟩
  have hchildren : childrenOf cntbt (treeBlock 3) = [5, 4] := by decide +kernel
  refine ⟨by norm_num, by decide +kernel, by decide +kernel, by decide +kernel, fun child hc => ?_⟩
  rw [hchildren] at hc
  exact hleaf child (by simpa [or_comm] using hc)

/-- Its two records come in the order of the node. -/
theorem dumpTree_walks_twoLevels : 0 < (Geo.geoWith 12 3 10).agcount ∧ 0 < cntbt.recLen ∧
    ∃ dump, (⟨2 ^ 22, 512, by decide⟩ : Device).run
      (Exact.dumpTree (Geo.geoWith 12 3 10) 0 cntbt 3) treeDisk =
        (.ok (dump, [[0, 0, 0, 5, 0, 0, 0, 0], [0, 0, 0, 4, 0, 0, 0, 0]]), treeDisk) := by
  have hcount : 0 < (Geo.geoWith 12 3 10).agcount := by decide
  obtain ⟨len, hag, -, -, hwalk⟩ := dumpTree_walks (Geo.geoWith 12 3 10) coherent_geoWith 0
    hcount cntbt (by decide)
  have hlen : len = 1024 := (Except.ok.inj (hag.agLen.symm.trans rfl)).trans rfl
  subst hlen
  have hroot : WellFormed (blockIn (Geo.geoWith 12 3 10) 0 treeDisk) 1024 cntbt 1 3 := by
    rw [blockIn_treeDisk]
    exact wellFormed_treeBlock
  obtain ⟨dump, hrun⟩ := hwalk ⟨2 ^ 22, 512, by decide⟩ treeDisk 1 3 rfl (by decide)
    (by norm_num) hroot
  have hrecords : traverse treeBlock cntbt 1 3 =
      [[0, 0, 0, 5, 0, 0, 0, 0], [0, 0, 0, 4, 0, 0, 0, 0]] := by decide +kernel
  rw [blockIn_treeDisk, hrecords] at hrun
  exact ⟨hcount, by decide, dump, hrun⟩

end Inspect

end MkfsXfs
