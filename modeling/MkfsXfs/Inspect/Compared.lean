import MkfsXfs.Inspect.Twins

/-!
Two filesystems, dumped and compared (`compare` in `src/compare.rs`).

* `Device.compare`: dump both devices and diff them.
* `Both`: two programs that only read, each on its own disk, with related results.
* `TreeSame`, `AgSame`, `LogSame`: what two disks share of a btree, of an AG and of the log.
* `dump_both`, `compare_counted`: filesystems that are the same where it counts are dumped to the
  end and compare alike.
-/

namespace MkfsXfs

open Checked Inspect

/-- Dump both devices and diff them, each a disk of its own. -/
def Device.compare (ours theirs : Device) (d d' : Disk) : Except (Fault Error) (List Difference) := do
  let a ← (ours.run (dump ours) d).1
  let b ← (theirs.run (dump theirs) d').1
  return diff a b

/-- On the disks `d` and `d'` the programs come to results related by `Q`, and leave them as they
are. -/
def Both {α β : Type} (dev : Device) (d d' : Disk) (p : DevM α) (q : DevM β) (Q : α → β → Prop) :
    Prop :=
  ∃ a b, dev.run p d = (.ok a, d) ∧ dev.run q d' = (.ok b, d') ∧ Q a b

section Both

variable {α β γ δ : Type} {dev : Device} {d d' : Disk} {p : DevM α} {q : DevM β}
  {f : α → DevM γ} {f' : β → DevM δ} {Q : α → β → Prop} {R : γ → δ → Prop}

lemma both_pure {a : α} {b : β} (h : Q a b) :
    Both dev d d' (Prog.pure a) (Prog.pure b) Q := ⟨a, b, rfl, rfl, h⟩

lemma Both.bind (h : Both dev d d' p q Q) (hf : ∀ a b, Q a b → Both dev d d' (f a) (f' b) R) :
    Both dev d d' (p >>= f) (q >>= f') R := by
  obtain ⟨a, b, hp, hq, hab⟩ := h
  obtain ⟨x, y, hx, hy, hxy⟩ := hf a b hab
  exact ⟨x, y, (Device.run_bind_ok hp).trans hx, (Device.run_bind_ok hq).trans hy, hxy⟩

lemma both_ofExcept {x : Exec α} {a : α} (h : x = .ok a) :
    Both dev d d' (Prog.ofExcept x) (Prog.ofExcept x) (fun u v => u = a ∧ v = a) := by
  subst h
  exact ⟨a, a, rfl, rfl, rfl, rfl⟩

lemma both_readAt {off len : ℕ} (hd : d.Healthy) (hd' : d'.Healthy) (h : off + len ≤ dev.size) :
    Both dev d d' (readAt off len) (readAt off len)
      (fun b b' => b = d.readBuf off len ∧ b' = d'.readBuf off len) :=
  ⟨_, _, Device.run_readAt hd h, Device.run_readAt hd' h, rfl, rfl⟩

end Both

namespace Inspect

/-! ### Btrees -/

/-- The blocks below a block of a btree. -/
def below (t : Tree) (b : Buf) : List ℕ :=
  if be32 b Btree.Off.magic ≠ t.magic ∨ be16 b Btree.Off.level = 0 then [] else nodePtrs t b

lemma dumpBlock_below (t : Tree) (bp : String) (agbno : ℕ) (b : Buf) :
    (dumpBlock t bp agbno b).2.1 = below t b := by
  have hif : (dumpBlock t bp agbno b).2.1 = if be32 b Btree.Off.magic ≠ t.magic then []
      else if be16 b Btree.Off.level = 0 then [] else nodePtrs t b := by
    rw [dumpBlock]
    dsimp only
    split_ifs <;> rfl
  rw [hif, below, ite_or]

/-- A btree of at most so many levels, hung from a block, is on both disks the same where it
counts.  What is not in the AG is not read. -/
def TreeSame (ids : Bool) (dev : Device) (d d' : Disk) (g : Geo) (agno len : ℕ) (t : Tree) :
    ℕ → ℕ → Prop
  | 0, _ => False
  | n + 1, block => block < len →
      g.byte agno block + g.blocksize ≤ dev.size ∧
      BlockSame ids (d.readBuf (g.byte agno block) g.blocksize)
        (d'.readBuf (g.byte agno block) g.blocksize) ∧
      ∀ c ∈ below t (d.readBuf (g.byte agno block) g.blocksize),
        TreeSame ids dev d d' g agno len t n c

section Trees

variable {ids : Bool} {dev : Device} {d d' : Disk} {g : Geo} {agno len : ℕ} {t : Tree} {n : ℕ}
  (hd : d.Healthy) (hd' : d'.Healthy) (hlen : g.agLen agno = .ok len)

include hd hd' hlen

lemma readBlock_both {block : ℕ} (h : TreeSame ids dev d d' g agno len t (n + 1) block)
    (bp : String) : Both dev d d' (readBlock g agno t bp block) (readBlock g agno t bp block)
      (fun a b => Twins ids a.1 b.1 ∧ a.2 = b.2 ∧
        ∀ c ∈ a.2.1, TreeSame ids dev d d' g agno len t n c) := by
  rw [readBlock]
  refine (both_ofExcept hlen).bind fun l l' hl => ?_
  rw [hl.1, hl.2]
  split_ifs with hout
  · exact both_pure ⟨.refl _, rfl, by simp⟩
  · obtain ⟨hroom, hsame, hbelow⟩ := h (Nat.not_le.mp hout)
    refine (both_readAt hd hd' hroom).bind fun b b' hb => ?_
    rw [hb.1, hb.2]
    obtain ⟨htwins, hnext⟩ := hsame.dumpBlock_twins t bp block
    refine both_pure ⟨htwins, hnext, ?_⟩
    rw [dumpBlock_below]
    exact hbelow

lemma dumpLevel_both (lp : String) (blocks : List ℕ)
    (h : ∀ c ∈ blocks, TreeSame ids dev d d' g agno len t (n + 1) c) (i : ℕ) :
    Both dev d d' (dumpLevel g agno t lp i blocks) (dumpLevel g agno t lp i blocks)
      (fun a b => Twins ids a.1 b.1 ∧ a.2 = b.2 ∧
        ∀ c ∈ a.2.1, TreeSame ids dev d d' g agno len t n c) := by
  induction blocks generalizing i with
  | nil => exact both_pure ⟨.refl _, rfl, by simp⟩
  | cons block blocks ih =>
      rw [dumpLevel]
      refine (readBlock_both hd hd' hlen (h block List.mem_cons_self) _).bind fun x y hxy => ?_
      refine (ih (fun c hc => h c (List.mem_cons_of_mem _ hc)) (i + 1)).bind fun u v huv => ?_
      obtain ⟨hx, hxe, hxn⟩ := hxy
      obtain ⟨hu, hue, hun⟩ := huv
      refine both_pure ⟨hx.append hu, ?_, fun c hc => ?_⟩
      · change (x.2.1 ++ u.2.1, x.2.2 ++ u.2.2) = (y.2.1 ++ v.2.1, y.2.2 ++ v.2.2)
        rw [hxe, hue]
      · exact (List.mem_append.mp hc).elim (hxn c) (hun c)

lemma dumpLevels_both (p : String) (rest : ℕ) (hn : n ≤ rest) (blocks : List ℕ)
    (h : ∀ c ∈ blocks, TreeSame ids dev d d' g agno len t n c) :
    Both dev d d' (dumpLevels g agno t p rest blocks) (dumpLevels g agno t p rest blocks)
      (fun a b => Twins ids a.1 b.1 ∧ a.2 = b.2) := by
  induction rest generalizing n blocks with
  | zero =>
      obtain rfl : n = 0 := Nat.le_zero.mp hn
      cases blocks with
      | nil => exact both_pure ⟨.refl _, rfl⟩
      | cons block blocks => exact (h block List.mem_cons_self).elim
  | succ rest ih =>
      cases blocks with
      | nil => exact both_pure ⟨.refl _, rfl⟩
      | cons block blocks =>
          cases n with
          | zero => exact (h block List.mem_cons_self).elim
          | succ n =>
              rw [dumpLevels]
              · refine (dumpLevel_both hd hd' hlen _ _ h 0).bind fun x y hxy => ?_
                obtain ⟨a, next, leaves⟩ := x
                obtain ⟨b, next', leaves'⟩ := y
                obtain ⟨hab, heq, hnext⟩ := hxy
                obtain ⟨rfl, rfl⟩ := Prod.mk.inj heq
                refine (ih (Nat.le_of_succ_le_succ hn) next hnext).bind fun u v huv => ?_
                refine both_pure ⟨hab.append huv.1, ?_⟩
                rw [huv.2]
              · exact List.cons_ne_nil _ _

/-- **Btrees that are the same where it counts have twin dumps**, and the same records. -/
lemma dumpTree_both {root : ℕ} (hn : n ≤ 16)
    (h : TreeSame ids dev d d' g agno len t n root) :
    Both dev d d' (dumpTree g agno t root) (dumpTree g agno t root)
      (fun a b => Twins ids a.1 b.1 ∧ a.2 = b.2) :=
  dumpLevels_both hd hd' hlen _ 16 hn [root] (by simpa using h)

end Trees

/-! ### AGs -/

/-- The head of an AG as it is read. -/
def headOf (g : Geo) (d : Disk) (agno : ℕ) : Buf :=
  d.readBuf (g.byte agno 0) (headerBlocks g * g.blocksize)

/-- Whether the inode btree lists holes. -/
def sparse (g : Geo) : Bool := decide (g.incompat &&& Sb.Version.inSpinodes ≠ 0)

/-- An inode that is read on both disks, the same where it counts. -/
def InodeSame (ids : Bool) (dev : Device) (d d' : Disk) (g : Geo) (agno startino i : ℕ) : Prop :=
  Both dev d d' (readInode g agno startino (startino + i))
    (readInode g agno startino (startino + i)) fun x y =>
      x.1 = y.1 ∧ Kind.inode.Sized x.2.length ∧ Kind.inode.Same ids x.2 y.2

/-- An AG that is on both disks the same where it counts: its headers, the btrees that hang from
them, and the inodes that its inode btree lists. -/
structure AgSame (ids : Bool) (dev : Device) (d d' : Disk) (g : Geo) (agno : ℕ) : Prop where
  room : g.byte agno 0 + headerBlocks g * g.blocksize ≤ dev.size
  sb : Kind.superblock.Same ids (sectorOf g (headOf g d agno) 0) (sectorOf g (headOf g d' agno) 0)
  agf : Kind.agf.Same ids (sectorOf g (headOf g d agno) 1) (sectorOf g (headOf g d' agno) 1)
  agi : Kind.agi.Same ids (sectorOf g (headOf g d agno) 2) (sectorOf g (headOf g d' agno) 2)
  agfl : Kind.agfl.Same ids (sectorOf g (headOf g d agno) 3) (sectorOf g (headOf g d' agno) 3)
  trees : ∃ len, g.agLen agno = .ok len ∧
    ∀ r ∈ headRoots g (sectorOf g (headOf g d agno) 1) (sectorOf g (headOf g d agno) 2),
      ∃ n ≤ 16, TreeSame ids dev d d' g agno len r.1 n r.2
  inodes : ∀ dump recs, dev.run (dumpTree g agno inobt
      (be32 (sectorOf g (headOf g d agno) 2) Agi.Off.root)) d = (.ok (dump, recs), d) →
    ∀ raw ∈ recs, ∀ i ∈ present (chunkOf (sparse g) raw).2,
      InodeSame ids dev d d' g agno (chunkOf (sparse g) raw).1 i

section Ags

variable {ids : Bool} {dev : Device} {d d' : Disk} {g : Geo} {agno : ℕ}

lemma length_sectorOf (hv : g.Valid) {i : ℕ} (hi : i < 4) :
    (sectorOf g (headOf g d agno) i).length = g.sectsize := by
  have hbs := hv.blocksize_ge
  have hceil : 4 * g.sectsize ≤ headerBlocks g * g.blocksize := le_divCeil_mul (by omega)
  have hle : (i + 1) * g.sectsize ≤ 4 * g.sectsize := Nat.mul_le_mul_right _ hi
  rw [sectorOf, length_slice (by rw [headOf, Disk.length_readBuf]; omega), Nat.succ_mul,
    Nat.add_sub_cancel_left]

lemma dumpInodes_both (startino : ℕ) (is : List ℕ)
    (h : ∀ i ∈ is, InodeSame ids dev d d' g agno startino i) :
    Both dev d d' (dumpInodes g agno startino is) (dumpInodes g agno startino is) (Twins ids) := by
  induction is with
  | nil => exact both_pure (.refl _)
  | cons i is ih =>
      rw [dumpInodes]
      refine Both.bind (h i List.mem_cons_self) fun x y hxy => ?_
      refine (ih fun j hj => h j (List.mem_cons_of_mem i hj)).bind fun u v huv => ?_
      obtain ⟨ino, b⟩ := x
      obtain ⟨ino', b'⟩ := y
      obtain ⟨hino, hsized, hsame⟩ := hxy
      dsimp only at hino hsized hsame
      subst hino
      exact both_pure ((hsame.twins hsized).append huv)

lemma dumpChunks_both (recs : List Buf)
    (h : ∀ raw ∈ recs, ∀ i ∈ present (chunkOf (sparse g) raw).2,
      InodeSame ids dev d d' g agno (chunkOf (sparse g) raw).1 i) :
    Both dev d d' (dumpChunks g agno (sparse g) recs) (dumpChunks g agno (sparse g) recs)
      (Twins ids) := by
  induction recs with
  | nil => exact both_pure (.refl _)
  | cons raw recs ih =>
      rw [dumpChunks]
      refine (dumpInodes_both _ _ (h raw List.mem_cons_self)).bind fun x y hxy => ?_
      refine (ih fun r hr => h r (List.mem_cons_of_mem raw hr)).bind fun u v huv => ?_
      exact both_pure (hxy.append huv)

variable (h : AgSame ids dev d d' g agno) (hd : d.Healthy) (hd' : d'.Healthy)

include h

/-- The roots that the headers record. -/
lemma AgSame.roots :
    be32 (sectorOf g (headOf g d agno) 1) Agf.Off.bnoRoot =
      be32 (sectorOf g (headOf g d' agno) 1) Agf.Off.bnoRoot ∧
    be32 (sectorOf g (headOf g d agno) 1) Agf.Off.cntRoot =
      be32 (sectorOf g (headOf g d' agno) 1) Agf.Off.cntRoot ∧
    be32 (sectorOf g (headOf g d agno) 1) Agf.Off.rmapRoot =
      be32 (sectorOf g (headOf g d' agno) 1) Agf.Off.rmapRoot ∧
    be32 (sectorOf g (headOf g d agno) 1) Agf.Off.refcountRoot =
      be32 (sectorOf g (headOf g d' agno) 1) Agf.Off.refcountRoot ∧
    be32 (sectorOf g (headOf g d agno) 2) Agi.Off.root =
      be32 (sectorOf g (headOf g d' agno) 2) Agi.Off.root ∧
    be32 (sectorOf g (headOf g d agno) 2) Agi.Off.freeRoot =
      be32 (sectorOf g (headOf g d' agno) 2) Agi.Off.freeRoot := by
  have hf := h.agf.ignored
  have hi := h.agi.ignored
  exact ⟨hf.be32 h.agf.length (by decide), hf.be32 h.agf.length (by decide),
    hf.be32 h.agf.length (by decide), hf.be32 h.agf.length (by decide),
    hi.be32 h.agi.length (by decide), hi.be32 h.agi.length (by decide)⟩

include hd hd'

/-- A btree that hangs from the headers. -/
lemma AgSame.dumpTree_both {t : Tree} {root : ℕ} (hroot : (t, root) ∈
    headRoots g (sectorOf g (headOf g d agno) 1) (sectorOf g (headOf g d agno) 2)) :
    Both dev d d' (dumpTree g agno t root) (dumpTree g agno t root)
      (fun a b => Twins ids a.1 b.1 ∧ a.2 = b.2) := by
  obtain ⟨len, hlen, htrees⟩ := h.trees
  obtain ⟨n, hn, htree⟩ := htrees (t, root) hroot
  exact Inspect.dumpTree_both hd hd' hlen hn htree

/-- A btree that a feature adds. -/
lemma AgSame.dumpTreeIf_both {on : Bool} {t : Tree} {root : ℕ} (hroot : on = true → (t, root) ∈
    headRoots g (sectorOf g (headOf g d agno) 1) (sectorOf g (headOf g d agno) 2)) :
    Both dev d d' (dumpTreeIf on g agno t root) (dumpTreeIf on g agno t root) (Twins ids) := by
  rw [dumpTreeIf]
  split_ifs with hon
  · exact (h.dumpTree_both hd hd' (hroot hon)).bind fun x y hxy => both_pure hxy.1
  · exact both_pure (.refl _)

/-- The btrees and the inodes. -/
lemma AgSame.dumpTrees_both :
    Both dev d d'
      (dumpTrees g agno (sectorOf g (headOf g d agno) 1) (sectorOf g (headOf g d agno) 2))
      (dumpTrees g agno (sectorOf g (headOf g d' agno) 1) (sectorOf g (headOf g d' agno) 2))
      (Twins ids) := by
  obtain ⟨hbno, hcnt, hrmap, hrefc, hino, hfino⟩ := h.roots
  rw [dumpTrees, dumpTrees]
  dsimp only
  rw [← hbno, ← hcnt, ← hrmap, ← hrefc, ← hino, ← hfino]
  refine (h.dumpTree_both hd hd' (by simp [headRoots])).bind fun x₁ y₁ h₁ => ?_
  refine (h.dumpTree_both hd hd' (by simp [headRoots])).bind fun x₂ y₂ h₂ => ?_
  refine (h.dumpTreeIf_both hd hd' fun hon => by simp [headRoots, hon]).bind fun x₃ y₃ h₃ => ?_
  refine (h.dumpTreeIf_both hd hd' fun hon => by simp [headRoots, hon]).bind fun x₄ y₄ h₄ => ?_
  have hinodes : (inobt, be32 (sectorOf g (headOf g d agno) 2) Agi.Off.root) ∈
      headRoots g (sectorOf g (headOf g d agno) 1) (sectorOf g (headOf g d agno) 2) := by
    simp [headRoots]
  obtain ⟨x₅, y₅, hx, hy, h₅, hrecs⟩ := h.dumpTree_both hd hd' hinodes
  refine Both.bind (Q := fun x y => x = x₅ ∧ y = y₅) ⟨x₅, y₅, hx, hy, rfl, rfl⟩ fun x y hxy => ?_
  obtain ⟨rfl, rfl⟩ := hxy
  obtain ⟨a, recs⟩ := x
  obtain ⟨b, recs'⟩ := y
  dsimp only at hrecs
  subst hrecs
  refine (h.dumpTreeIf_both hd hd' fun hon => by simp [headRoots, hon]).bind fun x₆ y₆ h₆ => ?_
  refine (dumpChunks_both recs (h.inodes a recs hx)).bind fun x₇ y₇ h₇ => ?_
  exact both_pure ((((((h₁.1.append h₂.1).append h₃).append h₄).append h₅).append h₆).append h₇)

/-- **AGs that are the same where it counts have twin dumps.** -/
lemma AgSame.dumpAg_both (hv : g.Valid) (hsect : 512 ∣ g.sectsize) :
    Both dev d d' (dumpAg g agno) (dumpAg g agno) (Twins ids) := by
  have hsize : ∀ i < 4, (sectorOf g (headOf g d agno) i).length = g.sectsize ∧
      (sectorOf g (headOf g d' agno) i).length = g.sectsize := fun i hi =>
    ⟨length_sectorOf hv hi, length_sectorOf hv hi⟩
  have hsized : ∀ i < 4, 512 ∣ (sectorOf g (headOf g d agno) i).length ∧
      0 < (sectorOf g (headOf g d agno) i).length := fun i hi => by
    have hge := hv.sectsize_ge
    rw [(hsize i hi).1]
    exact ⟨hsect, by omega⟩
  have hsb : ∀ p, Twins ids (dumpSb p (sectorOf g (headOf g d agno) 0) g.sectsize)
      (dumpSb p (sectorOf g (headOf g d' agno) 0) g.sectsize) := fun p => by
    have htwins := h.sb.twins (p := p) (hsized 0 (by omega))
    rwa [Kind.dump, Kind.dump, (hsize 0 (by omega)).1, (hsize 0 (by omega)).2] at htwins
  have hagf : ∀ p, Twins ids (dumpAgf p (sectorOf g (headOf g d agno) 1))
      (dumpAgf p (sectorOf g (headOf g d' agno) 1)) := fun p => h.agf.twins (hsized 1 (by omega))
  have hagi : ∀ p, Twins ids (dumpAgi p (sectorOf g (headOf g d agno) 2))
      (dumpAgi p (sectorOf g (headOf g d' agno) 2)) := fun p => h.agi.twins (hsized 2 (by omega))
  have hagfl : ∀ p, Twins ids (dumpAgfl p (sectorOf g (headOf g d agno) 3))
      (dumpAgfl p (sectorOf g (headOf g d' agno) 3)) := fun p =>
    h.agfl.twins (hsized 3 (by omega))
  have hmagic : be32 (sectorOf g (headOf g d agno) 1) Agf.Off.magicnum =
        be32 (sectorOf g (headOf g d' agno) 1) Agf.Off.magicnum ∧
      be32 (sectorOf g (headOf g d agno) 2) Agi.Off.magicnum =
        be32 (sectorOf g (headOf g d' agno) 2) Agi.Off.magicnum ∧
      be32 (sectorOf g (headOf g d agno) 3) Agfl.Off.magicnum =
        be32 (sectorOf g (headOf g d' agno) 3) Agfl.Off.magicnum :=
    ⟨h.agf.ignored.be32 h.agf.length (by decide), h.agi.ignored.be32 h.agi.length (by decide),
      h.agfl.ignored.be32 h.agfl.length (by decide)⟩
  rw [dumpAg]
  refine (both_readAt hd hd' h.room).bind fun b b' hb => ?_
  obtain ⟨rfl, rfl⟩ := hb
  have hhead : ∀ e : Disk, e.readBuf (g.byte agno 0) (headerBlocks g * g.blocksize) =
      headOf g e agno := fun e => rfl
  dsimp only
  rw [hhead, hhead, ← hmagic.1, ← hmagic.2.1, ← hmagic.2.2]
  split_ifs
  · exact both_pure ((hsb _).append (.refl _))
  · refine (h.dumpTrees_both hd hd').bind fun x y hxy => ?_
    exact both_pure (((((hsb _).append (hagf _)).append (hagi _)).append (hagfl _)).append hxy)

end Ags

lemma dumpAgs_both {ids : Bool} {dev : Device} {d d' : Disk} {g : Geo} (hd : d.Healthy)
    (hd' : d'.Healthy) (hv : g.Valid) (hsect : 512 ∣ g.sectsize) (n agno : ℕ)
    (h : ∀ i < n, AgSame ids dev d d' g (agno + i)) :
    Both dev d d' (dumpAgs g agno n) (dumpAgs g agno n) (Twins ids) := by
  induction n generalizing agno with
  | zero => exact both_pure (.refl _)
  | succ n ih =>
      rw [dumpAgs]
      refine ((h 0 (Nat.succ_pos n)).dumpAg_both hd hd' hv hsect).bind fun x y hxy => ?_
      refine (ih (agno + 1) fun i hi => ?_).bind fun u v huv => both_pure (hxy.append huv)
      rw [Nat.add_assoc, Nat.add_comm 1 i]
      exact h (i + 1) (Nat.succ_lt_succ hi)

/-! ### The log -/

/-- Where the log is read. -/
def logByte (g : Geo) : ℕ :=
  g.byte (g.logstart >>> g.agblklog) (g.logstart &&& (2 ^ g.agblklog - 1))

/-- A log that is on both disks the same where it counts. -/
structure LogSame (ids : Bool) (dev : Device) (d d' : Disk) (g : Geo) : Prop where
  room : logByte g + max g.blocksize (g.logblocks * g.blocksize) ≤ dev.size
  word : dev.size < 2 ^ 64
  header : Kind.record.Same ids (d.readBuf (logByte g) bbsize) (d'.readBuf (logByte g) bbsize)
  rest : ∀ i, bbsize ≤ i → i < max g.blocksize (g.logblocks * g.blocksize) →
    d.bytes (logByte g + i) = d'.bytes (logByte g + i)

section Log

variable {ids : Bool} {dev : Device} {d d' : Disk} {g : Geo} (hd : d.Healthy) (hd' : d'.Healthy)

include hd hd'

/-- What is the same is counted alike. -/
lemma scanLog_both {logAt logLen : ℕ} (hroom : logAt + logLen ≤ dev.size) (hword : dev.size < 2 ^ 64)
    (pos : ℕ) (h : ∀ i, pos ≤ i → i < logLen → d.bytes (logAt + i) = d'.bytes (logAt + i)) :
    Both dev d d' (scanLog g logAt logLen pos) (scanLog g logAt logLen pos) Eq := by
  induction hn : logLen - pos using Nat.strong_induction_on generalizing pos with
  | _ n ih =>
      rw [scanLog]
      split_ifs with hpos
      · have hscan := scanSize_pos
        refine (both_ofExcept (fit_eq_ok.mpr ⟨?_, rfl⟩)).bind fun x y hxy => ?_
        · omega
        · obtain ⟨rfl, rfl⟩ := hxy
          refine (both_readAt hd hd' (by omega)).bind fun b b' hb => ?_
          obtain ⟨rfl, rfl⟩ := hb
          have hsame : d.readBuf (logAt + pos) (min scanSize (logLen - pos)) =
              d'.readBuf (logAt + pos) (min scanSize (logLen - pos)) := by
            rw [Disk.readBuf, Disk.readBuf]
            refine List.map_congr_left fun i hi => ?_
            have hi' := List.mem_range.mp hi
            rw [Nat.add_assoc]
            exact h _ (Nat.le_add_right _ _) (by omega)
          refine (ih (logLen - (pos + min scanSize (logLen - pos))) (by omega) _
            (fun i hi => h i (by omega)) rfl).bind fun u v huv => both_pure ?_
          rw [hsame, huv]
      · exact both_pure rfl

/-- **Logs that are the same where it counts have twin dumps.** -/
lemma LogSame.dumpLog_both (h : LogSame ids dev d d' g) (hv : g.Valid) :
    Both dev d d' (dumpLog g) (dumpLog g) (Twins ids) := by
  have hbb : bbsize ≤ g.blocksize := hv.blocksize_ge
  have hroom := h.room
  have htake : ∀ e : Disk, (e.readBuf (logByte g) g.blocksize).take bbsize =
      e.readBuf (logByte g) bbsize := fun e => by
    rw [Disk.readBuf, Disk.readBuf, ← List.map_take, List.take_range, min_eq_left hbb]
  have hdrop : ∀ n, bbsize ≤ n → (d.readBuf (logByte g) g.blocksize).drop n =
      (d'.readBuf (logByte g) g.blocksize).drop n := fun n hn => by
    refine Buf.ext (by simp) fun i hi => ?_
    rw [List.length_drop, Disk.length_readBuf] at hi
    rw [byteAt_drop, byteAt_drop, Disk.byteAt_readBuf (by omega), Disk.byteAt_readBuf (by omega)]
    exact h.rest _ (by omega) (by omega)
  have hrecord : ∀ recLen, Twins ids (dumpRecord (d.readBuf (logByte g) g.blocksize) recLen)
      (dumpRecord (d'.readBuf (logByte g) g.blocksize) recLen) :=
    dumpRecord_twins (by rw [htake, htake]; exact h.header) (by simp) (by simpa using hbb)
      (hdrop _ le_rfl)
  have hlen : ∀ e : Disk, (e.readBuf (logByte g) g.blocksize).length = g.blocksize :=
    fun e => Disk.length_readBuf e _ _
  rw [dumpLog]
  dsimp only
  refine (both_readAt hd hd' ((Nat.add_le_add_left (le_max_left _ _) _).trans hroom)).bind
    fun b b' hb => ?_
  obtain ⟨rfl, rfl⟩ := hb
  refine (scanLog_both hd hd' ((Nat.add_le_add_left (le_max_right _ _) _).trans hroom) h.word _
    fun i hi hlt => h.rest i (hbb.trans hi) (hlt.trans_le (le_max_right _ _))).bind
    fun u v huv => both_pure ?_
  subst huv
  refine (hrecord _).append ?_
  rw [hlen, hlen, hdrop _ (le_min ?_ hbb)]
  · exact .refl _
  · exact (Nat.le_mul_of_pos_left bbsize (by decide : 0 < 2)).trans
      (Nat.mul_le_mul_right _ (le_max_right _ _))

end Log

/-! ### Everything -/

/-- Filesystems that are the same where it counts. -/
structure FsSame (ids : Bool) (dev : Device) (d d' : Disk) (g : Geo) : Prop where
  geo : (∃ r, dev.run (geometry dev) d = (.ok r, d) ∧ r.1 = g) ∧
    ∃ r, dev.run (geometry dev) d' = (.ok r, d') ∧ r.1 = g
  valid : g.Valid
  sectors : 512 ∣ g.sectsize
  ags : ∀ agno < g.agcount, AgSame ids dev d d' g agno
  log : LogSame ids dev d d' g

section Filesystems

variable {ids : Bool} {dev : Device} {d d' : Disk} {g : Geo} (hd : d.Healthy) (hd' : d'.Healthy)

include hd hd'

/-- **Filesystems that are the same where it counts have twin dumps.** -/
lemma FsSame.dump_both (h : FsSame ids dev d d' g) :
    Both dev d d' (dump dev) (dump dev) (Twins ids) := by
  obtain ⟨⟨r, hr, hrg⟩, r', hr', hrg'⟩ := h.geo
  have hgeo : Both dev d d' (geometry dev) (geometry dev) fun x y => x.1 = g ∧ y.1 = g :=
    ⟨r, r', hr, hr', hrg, hrg'⟩
  rw [dump]
  refine hgeo.bind fun x y hxy => ?_
  rw [hxy.1, hxy.2]
  have hags : Both dev d d' (dumpAgs g 0 g.agcount) (dumpAgs g 0 g.agcount) (Twins ids) :=
    dumpAgs_both hd hd' h.valid h.sectors g.agcount 0 fun i hi => by
      rw [Nat.zero_add]
      exact h.ags i hi
  exact hags.bind fun a b hab => (h.log.dumpLog_both hd hd' h.valid).bind fun u v huv =>
    both_pure (hab.append huv)

/-- **Filesystems that are the same where it counts compare alike.** -/
theorem FsSame.compare (h : FsSame ids dev d d' g) :
    ∃ l, dev.compare dev d d' = .ok l ∧ ∀ e ∈ l, e.judged.counts ids = false := by
  obtain ⟨a, b, ha, hb, hab⟩ := h.dump_both hd hd'
  refine ⟨diff a b, ?_, hab.counted⟩
  rw [Device.compare, ha, hb]
  rfl

end Filesystems

end Inspect

end MkfsXfs
