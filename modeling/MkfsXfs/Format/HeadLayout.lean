import MkfsXfs.Format.Superblock
import MkfsXfs.Format.Head
import MkfsXfs.Inspect.Walk

/-!
The head of an AG as fields: the four header sectors and the btree roots, each at its place.

* `Root`, `AgPlan.roots`: the btrees of an AG, each with its block and records.
* `AgPlan.headFields`, `AgPlan.ascending_headFields`: what stands where, in order.
* `Accepted.agHead_eq`: the head is made of these fields.
* `Accepted.sector_agHead`: it starts with its superblock, whatever the plan.
-/

namespace MkfsXfs

open Checked Inspect

/-- A btree root: its tree, its block and its records. -/
structure Root where
  tree : Tree
  block : ℕ
  recs : Buf
  numrecs : ℕ

namespace AgPlan

/-- The roots of an AG, by block. -/
def roots (plan : AgPlan) (g : Geometry) : List Root :=
  let f := g.features
  let inodes := Btree.inobtRecs (plan.inodes g) f.sparse
  [⟨bnobt, g.bnoBlock, Btree.allocRecs plan.free, plan.free.length⟩,
    ⟨cntbt, g.cntBlock, Btree.allocRecs (plan.free.insertionSort AllocRec.sizeLe),
      plan.free.length⟩,
    ⟨inobt, g.ibtBlock, inodes, (plan.inodes g).length⟩] ++
  (if f.finobt then [⟨finobt, g.fibtBlock, inodes, (plan.inodes g).length⟩] else []) ++
  (if f.rmapbt then [⟨rmapbt, g.rmapBlock, Btree.rmapRecs plan.rmap, plan.rmap.length⟩]
    else []) ++
  (if f.reflink then [⟨refcbt, g.refcBlock, [], 0⟩] else [])

end AgPlan

/-- The block of a root. -/
def Root.image (r : Root) (g : Geometry) (agno : ℕ) (uuid : Uuid) : Buf :=
  stampFields (List.replicate g.bs 0)
    (Btree.leafFields r.tree.magic (g.agbToDaddr agno r.block) (toU32 agno) uuid r.numrecs ++
      [⟨Btree.Off.recs, r.recs⟩]) Btree.Off.crc

/-- The free list's sector. -/
def agflImage (g : Geometry) (agno : ℕ) (uuid : Uuid) (list : List ℕ) : Buf :=
  let slots := (g.sectsize - Agfl.Off.bno) / 4
  let header := putFields (List.replicate g.sectsize 0) (Agfl.headerFields agno uuid)
  let empty := putFields header
    ((List.range slots).map fun i => .u32 (Agfl.Off.bno + 4 * i) null32)
  stampFields empty (list.zipIdx.map fun r => .u32 (Agfl.Off.bno + 4 * (1 + r.2)) r.1)
    Agfl.Off.crc

namespace AgPlan

/-- The header sectors of an AG. -/
def sectorFields (plan : AgPlan) (g : Geometry) (uuid : Uuid) (sbs : SbState) (agf : Agf) :
    List Field :=
  let zeros := List.replicate g.sectsize 0
  [⟨0, Sb.image g sbs⟩,
    ⟨g.sectsize, agf.encode uuid zeros⟩,
    ⟨2 * g.sectsize, (plan.agi g).encode uuid zeros⟩,
    ⟨3 * g.sectsize, agflImage g (toU32 plan.agno) uuid plan.agfl⟩]

/-- The btree roots of an AG. -/
def rootFields (plan : AgPlan) (g : Geometry) (uuid : Uuid) : List Field :=
  (plan.roots g).map fun r => ⟨r.block * g.bs, r.image g plan.agno uuid⟩

/-- Everything in the head of an AG. -/
def headFields (plan : AgPlan) (g : Geometry) (uuid : Uuid) (sbs : SbState) (agf : Agf) :
    List Field :=
  plan.sectorFields g uuid sbs agf ++ plan.rootFields g uuid

end AgPlan

/-! ### The parts -/

section Parts

variable {params : Params} {dev logical physical : ℕ} {g : Geometry} {plan : AgPlan}
  {uuid : Uuid} {sbs : SbState} {agno : ℕ} {agf : Agf} {r : Root}

@[simp] lemma Root.length_image : (r.image g agno uuid).length = g.bs := by
  rw [Root.image, length_stampFields, List.length_replicate]

@[simp] lemma length_agflImage {list : List ℕ} :
    (agflImage g agno uuid list).length = g.sectsize := by
  rw [agflImage, length_stampFields, length_putFields, length_putFields, List.length_replicate]

/-- The sectors lie one after the other. -/
lemma AgPlan.place_sectorFields :
    (plan.sectorFields g uuid sbs agf).map Field.place = [(0, g.sectsize),
      (g.sectsize, g.sectsize), (2 * g.sectsize, g.sectsize), (3 * g.sectsize, g.sectsize)] := by
  simp only [sectorFields, List.map_cons, List.map_nil, Field.place_mk, Sb.length_image,
    Agf.encode, Agi.encode, length_stampFields, List.length_replicate, length_agflImage]

/-- The blocks of the roots, one after the other from the headers on. -/
lemma AgPlan.block_roots :
    (plan.roots g).map Root.block
      = (List.range (g.preallocBlocks - g.headerBlocks)).map (g.headerBlocks + ·) := by
  have hsub : g.preallocBlocks - g.headerBlocks
      = 3 + (g.features.finobt.toNat + g.features.rmapbt.toNat + g.features.reflink.toNat) := by
    rw [Geometry.preallocBlocks_eq]
    omega
  rw [hsub, roots]
  simp only [Geometry.refcBlock, Geometry.rmapBlock, Geometry.fibtBlock, Geometry.ibtBlock,
    Geometry.cntBlock, Geometry.bnoBlock]
  cases g.features.finobt <;> cases g.features.rmapbt <;> cases g.features.reflink <;> rfl

/-- A root's block comes after the headers, within the head. -/
lemma AgPlan.root_block (hr : r ∈ plan.roots g) :
    g.headerBlocks ≤ r.block ∧ r.block < g.preallocBlocks := by
  have hmem : r.block ∈ (plan.roots g).map Root.block := List.mem_map_of_mem hr
  rw [AgPlan.block_roots, List.mem_map] at hmem
  obtain ⟨i, hi, hblock⟩ := hmem
  rw [List.mem_range] at hi
  omega

/-- The four header sectors fit the header blocks. -/
lemma Accepted.sectors_le (h : Accepted params dev logical physical g) :
    4 * g.sectsize ≤ g.headerBlocks * g.bs := by
  have hbs : 0 < g.bs := h.blocksize_pos
  have hdiv := Nat.div_add_mod (4 * g.sectsize + g.bs - 1) g.bs
  have hmod := Nat.mod_lt (4 * g.sectsize + g.bs - 1) hbs
  rw [Nat.mul_comm g.bs] at hdiv
  rw [Geometry.headerBlocks, divCeil]
  omega

/-- **What the head is made of is in order.** -/
lemma Accepted.ascending_headFields (h : Accepted params dev logical physical g) :
    Ascending (plan.headFields g uuid sbs agf) := by
  refine List.pairwise_append.mpr ⟨?_, ?_, ?_⟩
  · refine ascending_of_places ?_
    rw [AgPlan.place_sectorFields]
    simp only [List.isChain_cons_cons, List.isChain_singleton, and_true]
    omega
  · -- the roots follow each other block by block
    have hblocks : ((plan.roots g).map Root.block).Pairwise (· < ·) := by
      rw [AgPlan.block_roots]
      exact List.pairwise_map.mpr (List.pairwise_lt_range.imp fun hlt => by omega)
    refine List.pairwise_map.mpr ((List.pairwise_map.mp hblocks).imp fun {r r'} hlt => ?_)
    have hle : (r.block + 1) * g.bs ≤ r'.block * g.bs := Nat.mul_le_mul_right _ hlt
    rw [Nat.succ_mul] at hle
    show r.block * g.bs + (r.image g plan.agno uuid).length ≤ r'.block * g.bs
    rwa [Root.length_image]
  · intro f hf f' hf'
    obtain ⟨r, hr, rfl⟩ := List.mem_map.mp hf'
    have hplace : f.place ∈ (plan.sectorFields g uuid sbs agf).map Field.place :=
      List.mem_map_of_mem hf
    have hle : f.place.1 + f.place.2 ≤ 4 * g.sectsize := by
      rw [AgPlan.place_sectorFields] at hplace
      simp only [List.mem_cons, List.not_mem_nil, or_false] at hplace
      rcases hplace with he | he | he | he <;> rw [he] <;> omega
    have hroot := Nat.mul_le_mul_right g.bs (AgPlan.root_block hr).1
    have hfits := h.sectors_le
    show f.place.1 + f.place.2 ≤ r.block * g.bs
    omega

/-- The head holds all of it. -/
lemma Accepted.headFields_past (h : Accepted params dev logical physical g) {f : Field}
    (hf : f ∈ plan.headFields g uuid sbs agf) : f.past ≤ g.preallocBlocks * g.bs := by
  have hhead := Nat.mul_le_mul_right g.bs g.headerBlocks_le
  have hfits := h.sectors_le
  rcases List.mem_append.mp hf with hsect | hroot
  · have hplace : f.place ∈ (plan.sectorFields g uuid sbs agf).map Field.place :=
      List.mem_map_of_mem hsect
    rw [AgPlan.place_sectorFields] at hplace
    simp only [List.mem_cons, List.not_mem_nil, or_false] at hplace
    rw [Field.past_eq]
    rcases hplace with he | he | he | he <;> rw [he] <;> simp only <;> omega
  · obtain ⟨r, hr, rfl⟩ := List.mem_map.mp hroot
    have hle : (r.block + 1) * g.bs ≤ g.preallocBlocks * g.bs :=
      Nat.mul_le_mul_right _ (AgPlan.root_block hr).2
    rw [Nat.succ_mul] at hle
    show r.block * g.bs + (r.image g plan.agno uuid).length ≤ _
    rwa [Root.length_image]

/-! ### The head as a whole -/

/-- Writing a root adds its block to what is there. -/
lemma putLeaf_eq (hrecs : Btree.Off.recs + r.recs.length ≤ g.bs)
    (hr : r ∈ plan.roots g) {fs : List Field} :
    putLeaf g agno uuid r.tree.magic r.block r.recs r.numrecs
        (putFields (List.replicate (g.preallocBlocks * g.bs) 0) fs)
      = .ok (putFields (List.replicate (g.preallocBlocks * g.bs) 0)
          (fs ++ [⟨r.block * g.bs, r.image g agno uuid⟩])) := by
  have hleaf : agLeaf g agno uuid r.tree.magic r.block r.recs r.numrecs
      = .ok (r.image g agno uuid) := by
    rw [agLeaf, Btree.leafBlock, copyInto_putFields hrecs]
    rfl
  have hin := (AgPlan.root_block hr).2
  have hle : (r.block + 1) * g.bs ≤ g.preallocBlocks * g.bs := Nat.mul_le_mul_right _ hin
  rw [Nat.succ_mul] at hle
  rw [putLeaf, hleaf, ok_bind, copyInto_putFields (by rwa [Root.length_image])]

/-- The free list fits its sector behind the first slot. -/
lemma encodeAgfl_eq {list : List ℕ} (hs : Agfl.Off.bno ≤ g.sectsize)
    (hlist : list.length < (g.sectsize - Agfl.Off.bno) / 4) :
    encodeAgfl agno uuid 1 list (List.replicate g.sectsize 0)
      = .ok (agflImage g agno uuid list) := by
  have hslots : ∀ r ∈ list.zipIdx, (do
      let slot ← mod (1 + r.2) ((g.sectsize - Agfl.Off.bno) / 4)
      return Field.u32 (Agfl.Off.bno + 4 * slot) r.1 : Exec Field)
      = .ok (Field.u32 (Agfl.Off.bno + 4 * (1 + r.2)) r.1) := by
    intro r hr
    have hidx := List.snd_lt_of_mem_zipIdx hr
    rw [mod_of_pos (by omega), ok_bind, Nat.mod_eq_of_lt (by omega)]
    rfl
  rw [encodeAgfl]
  simp only [length_putFields, List.length_replicate, sub_of_le hs, ok_bind]
  rw [mapM_eq_ok hslots]
  rfl

end Parts

section Head

variable {params : Params} {dev logical physical : ℕ} {g : Geometry} {plan : AgPlan}
  {uuid : Uuid} {sbs : SbState} {agno : ℕ} {agf : Agf}

/-- The records of a root fit its block. -/
lemma Accepted.recs_le (h : Accepted params dev logical physical g)
    (hfree : plan.free.length ≤ 8) (hrmap : plan.rmap.length ≤ 13) {r : Root}
    (hr : r ∈ plan.roots g) : Btree.Off.recs + r.recs.length ≤ g.bs ∧ r.numrecs ≤ 13 := by
  have hbs : 2 ^ 10 ≤ g.bs := by
    rw [Geometry.bs, h.blocksize]
    exact Nat.pow_le_pow_right (by norm_num) h.blocklog_ge
  have hinodes : (plan.inodes g).length ≤ 1 := by
    rw [AgPlan.inodes]
    exact Option.length_toList_le
  have hoff : Btree.Off.recs = 56 := rfl
  have halloc : Btree.allocRec = 8 := rfl
  have hino : Btree.inobtRec = 16 := rfl
  have hrm : Btree.rmapRec = 24 := rfl
  rw [AgPlan.roots] at hr
  simp only [List.mem_append, List.mem_cons, List.not_mem_nil, or_false, List.mem_ite_nil_right]
    at hr
  rcases hr with (((rfl | rfl | rfl) | ⟨-, rfl⟩) | ⟨-, rfl⟩) | ⟨-, rfl⟩ <;>
    simp only [Btree.allocRecs, Btree.inobtRecs, Btree.rmapRecs, length_packRecs,
      List.length_insertionSort, List.length_nil, hoff, halloc, hino, hrm] <;> omega

/-- The header sectors are written onto zeros. -/
lemma Accepted.sectors_bind (h : Accepted params dev logical physical g)
    (hagfl : plan.agfl.length ≤ 6) (hagf : plan.agf g = .ok agf) (k : Buf → Exec Buf) :
    (do
      let buf ← onSlice (List.replicate (g.preallocBlocks * g.bs) 0) 0 g.sectsize
        (Sb.encode g sbs)
      let agf ← plan.agf g
      let buf ← onSlice buf g.sectsize g.sectsize fun s => .ok (agf.encode uuid s)
      let buf ← onSlice buf (2 * g.sectsize) g.sectsize
        fun s => .ok ((plan.agi g).encode uuid s)
      let buf ← onSlice buf (3 * g.sectsize) g.sectsize
        (encodeAgfl (toU32 plan.agno) uuid 1 plan.agfl)
      k buf)
      = k (putFields (List.replicate (g.preallocBlocks * g.bs) 0)
          (plan.sectorFields g uuid sbs agf)) := by
  have hss := h.sectsize_ge
  have hsects : 4 * g.sectsize ≤ g.preallocBlocks * g.bs :=
    h.sectors_le.trans (Nat.mul_le_mul_right _ g.headerBlocks_le)
  have hbno : Agfl.Off.bno = 36 := rfl
  have hlist : plan.agfl.length < (g.sectsize - Agfl.Off.bno) / 4 := by omega
  have hasc : Ascending (plan.sectorFields g uuid sbs agf) :=
    (List.pairwise_append.mp h.ascending_headFields).1
  -- a sector is still zero when it is written
  have hsector : ∀ {fs rest : List Field} {off : ℕ} {s : Buf} {f : Buf → Exec Buf},
      plan.sectorFields g uuid sbs agf = fs ++ ⟨off, s⟩ :: rest → off ≤ 3 * g.sectsize →
      f (List.replicate g.sectsize 0) = .ok s →
      onSlice (putFields (List.replicate (g.preallocBlocks * g.bs) 0) fs) off g.sectsize f
        = .ok (putFields (List.replicate (g.preallocBlocks * g.bs) 0) (fs ++ [⟨off, s⟩])) := by
    intro fs rest off s f hfields hoff hf
    rw [hfields] at hasc
    have hbefore : ∀ f' ∈ fs, f'.past ≤ off := fun f' hf' =>
      (List.pairwise_append.mp hasc).2.2 f' hf' ⟨off, s⟩ List.mem_cons_self
    exact onSlice_putFields hbefore (by omega) hf
  have hsb := @hsector [] _ _ _ _ rfl (Nat.zero_le _) h.encode_eq
  have hagfS := @hsector [_] _ _ _ (fun s => .ok (agf.encode uuid s)) rfl (by omega) rfl
  have hagiS := @hsector [_, _] _ _ _ (fun s => .ok ((plan.agi g).encode uuid s)) rfl (by omega)
    rfl
  have hagflS := @hsector [_, _, _] _ _ _ _ rfl le_rfl (encodeAgfl_eq (by omega) hlist)
  rw [putFields_nil] at hsb
  rw [hsb, ok_bind, hagf, ok_bind]
  erw [hagfS, ok_bind, hagiS, ok_bind, hagflS]
  rfl

/-- The roots are put in their blocks, one after the other. -/
lemma Accepted.putRoots_eq (h : Accepted params dev logical physical g)
    (hfree : plan.free.length ≤ 8) (hrmap : plan.rmap.length ≤ 13) (fs : List Field)
    {rs : List Root} (hrs : ∀ r ∈ rs, r ∈ plan.roots g) :
    rs.foldlM (fun buf r => putLeaf g plan.agno uuid r.tree.magic r.block r.recs r.numrecs buf)
        (putFields (List.replicate (g.preallocBlocks * g.bs) 0) fs)
      = .ok (putFields (List.replicate (g.preallocBlocks * g.bs) 0)
          (fs ++ rs.map fun r => ⟨r.block * g.bs, r.image g plan.agno uuid⟩)) := by
  induction rs generalizing fs with
  | nil => rw [List.map_nil, List.append_nil, List.foldlM_nil, pure_eq_ok]
  | cons r rs ih =>
      have hr := hrs r List.mem_cons_self
      have htail := ih (fs ++ [⟨r.block * g.bs, r.image g plan.agno uuid⟩])
        fun r' hr' => hrs r' (List.mem_cons_of_mem r hr')
      rw [List.foldlM_cons, putLeaf_eq (h.recs_le hfree hrmap hr).1 hr, ok_bind, htail,
        List.append_assoc]
      rfl

/-- What the source writes is the roots one after the other. -/
lemma Accepted.roots_bind (h : Accepted params dev logical physical g)
    (hfree : plan.free.length ≤ 8) (hrmap : plan.rmap.length ≤ 13) (fs : List Field) :
    (do
      let bySize := plan.free.insertionSort AllocRec.sizeLe
      let inodes := plan.inodes g
      let recs := Btree.inobtRecs inodes g.features.sparse
      let buf ← putLeaf g plan.agno uuid Btree.Magic.bno g.bnoBlock (Btree.allocRecs plan.free)
        plan.free.length (putFields (List.replicate (g.preallocBlocks * g.bs) 0) fs)
      let buf ← putLeaf g plan.agno uuid Btree.Magic.cnt g.cntBlock (Btree.allocRecs bySize)
        bySize.length buf
      let buf ← putLeaf g plan.agno uuid Btree.Magic.ino g.ibtBlock recs inodes.length buf
      let buf ← if g.features.finobt then
          putLeaf g plan.agno uuid Btree.Magic.fino g.fibtBlock recs inodes.length buf
        else .ok buf
      let buf ← if g.features.rmapbt then
          putLeaf g plan.agno uuid Btree.Magic.rmap g.rmapBlock (Btree.rmapRecs plan.rmap)
            plan.rmap.length buf
        else .ok buf
      if g.features.reflink then
        putLeaf g plan.agno uuid Btree.Magic.refc g.refcBlock [] 0 buf
      else .ok buf)
      = .ok (putFields (List.replicate (g.preallocBlocks * g.bs) 0)
          (fs ++ plan.rootFields g uuid)) := by
  have hlast : ∀ x : Exec Buf, (x >>= fun buf => .ok buf) = x := bind_pure
  rw [AgPlan.rootFields, ← h.putRoots_eq hfree hrmap fs (fun r hr => hr), AgPlan.roots]
  simp only [List.length_insertionSort]
  cases g.features.finobt <;> cases g.features.rmapbt <;> cases g.features.reflink <;>
    simp [hlast, bnobt, cntbt, inobt, finobt, rmapbt, refcbt]

/-- **The head is made of its fields.** -/
lemma Accepted.agHead_eq (h : Accepted params dev logical physical g)
    (hfree : plan.free.length ≤ 8) (hrmap : plan.rmap.length ≤ 13)
    (hagfl : plan.agfl.length ≤ 6) (hagf : plan.agf g = .ok agf) :
    agHead g plan uuid sbs = .ok (putFields (List.replicate (g.preallocBlocks * g.bs) 0)
      (plan.headFields g uuid sbs agf)) :=
  (h.sectors_bind hagfl hagf _).trans (h.roots_bind hfree hrmap _)

/-- An AG reaches past its preallocated blocks. -/
lemma AgPlan.Of.prealloc_lt (hp : plan.Of g agno) (h : Accepted params dev logical physical g) :
    g.preallocBlocks < plan.length := by
  have hstart := hp.start
  have hlog := h.logAgbno
  rw [Geometry.freeStart] at hstart
  split_ifs at hstart <;> omega

/-- **The head of an AG's plan is made of its fields**, whatever the UUID and the state. -/
lemma AgPlan.Of.agHead_eq (hp : plan.Of g agno) (h : Accepted params dev logical physical g)
    (hplan : planAg g agno = .ok plan) : ∃ agf, plan.agf g = .ok agf ∧ plan.free.length ≤ 8 ∧
      plan.rmap.length ≤ 13 ∧ plan.agfl.length ≤ 6 ∧ ∀ uuid sbs, agHead g plan uuid sbs
        = .ok (putFields (List.replicate (g.preallocBlocks * g.bs) 0)
          (plan.headFields g uuid sbs agf)) := by
  obtain ⟨hfree, hrmap⟩ := h.plan_lengths hplan hp.blocks hp.length_lt (hp.prealloc_lt h)
  have hneed := g.minFreelist_le
  have hfl : plan.agfl.length ≤ 6 := by rw [hp.planned.agfl_length]; exact hneed
  obtain ⟨agf, hagf, -, -, -⟩ := hp.planned.recorded h hp.length_lt
  exact ⟨agf, hagf, hfree, hrmap, hfl, fun uuid sbs => h.agHead_eq hfree hrmap hfl hagf⟩

end Head

/-! ### The first sector -/

section FirstSector

variable {g : Geometry} {agno magic agbno n m : ℕ} {uuid : Uuid} {recs b b' : Buf}

/-- A btree root leaves the first block. -/
lemma keepsBelow_putLeaf (h : putLeaf g agno uuid magic agbno recs n b = .ok b') (hm : m ≤ g.bs)
    (hagbno : 1 ≤ agbno) : KeepsBelow m b b' := by
  rw [putLeaf] at h
  obtain ⟨leaf, -, h⟩ := bind_eq_ok.mp h
  exact keepsBelow_copyInto h (hm.trans (Nat.le_mul_of_pos_left _ hagbno))

lemma keepsBelow_putLeaf_if {p : Bool}
    (h : (if p then putLeaf g agno uuid magic agbno recs n b else .ok b) = .ok b') (hm : m ≤ g.bs)
    (hagbno : 1 ≤ agbno) : KeepsBelow m b b' := by
  cases p with
  | false =>
      rw [Except.ok.inj h]
      exact ⟨rfl, fun _ _ => rfl⟩
  | true => exact keepsBelow_putLeaf h hm hagbno

/-- A step that is taken or not, and what follows. -/
lemma bind_if_eq_ok {p : Bool} {x : Exec Buf} {k : Buf → Exec Buf}
    (h : (if p then x >>= k else .ok b >>= k) = .ok b') :
    ∃ c, (if p then x else .ok b) = .ok c ∧ k c = .ok b' := by
  cases p with
  | false => exact ⟨b, rfl, h⟩
  | true => exact bind_eq_ok.mp h

variable {params : Params} {dev logical physical : ℕ} {plan : AgPlan} {sbs : SbState} {head : Buf}

/-- **The head of an AG starts with its superblock.** -/
theorem Accepted.sector_agHead (h : Accepted params dev logical physical g)
    (hhead : agHead g plan uuid sbs = .ok head) :
    head.length = g.preallocBlocks * g.bs ∧ g.sectsize ≤ head.length ∧
      ∀ i < g.sectsize, byteAt head i = byteAt (Sb.image g sbs) i := by
  have hsb : g.sectsize ≤ g.bs := h.sectsize_le
  have hbno : 1 ≤ g.bnoBlock := h.headerBlocks_bounds.1
  have hcnt : 1 ≤ g.cntBlock := hbno.trans (Nat.le_succ _)
  have hibt : 1 ≤ g.ibtBlock := hcnt.trans (Nat.le_succ _)
  have hfibt : 1 ≤ g.fibtBlock := hibt.trans (Nat.le_succ _)
  have hrmap : 1 ≤ g.rmapBlock := by
    rw [Geometry.rmapBlock]
    split_ifs <;> omega
  have hrefc : 1 ≤ g.refcBlock := by
    rw [Geometry.refcBlock]
    split_ifs <;> omega
  rw [agHead] at hhead
  obtain ⟨b₁, h₁, hhead⟩ := bind_eq_ok.mp hhead
  obtain ⟨agf, -, hhead⟩ := bind_eq_ok.mp hhead
  obtain ⟨b₂, h₂, hhead⟩ := bind_eq_ok.mp hhead
  obtain ⟨b₃, h₃, hhead⟩ := bind_eq_ok.mp hhead
  obtain ⟨b₄, h₄, hhead⟩ := bind_eq_ok.mp hhead
  obtain ⟨b₅, h₅, hhead⟩ := bind_eq_ok.mp hhead
  obtain ⟨b₆, h₆, hhead⟩ := bind_eq_ok.mp hhead
  obtain ⟨b₇, h₇, hhead⟩ := bind_eq_ok.mp hhead
  obtain ⟨b₈, h₈, hhead⟩ := bind_if_eq_ok hhead
  obtain ⟨b₉, h₉, hhead⟩ := bind_if_eq_ok hhead
  have hsectors : KeepsBelow g.sectsize b₁ b₄ :=
    (keepsBelow_onSlice h₂ le_rfl).trans ((keepsBelow_onSlice h₃ (by omega)).trans
      (keepsBelow_onSlice h₄ (by omega)))
  have hroots : KeepsBelow g.sectsize b₄ b₇ :=
    (keepsBelow_putLeaf h₅ hsb hbno).trans ((keepsBelow_putLeaf h₆ hsb hcnt).trans
      (keepsBelow_putLeaf h₇ hsb hibt))
  have hrest : KeepsBelow g.sectsize b₇ head :=
    (keepsBelow_putLeaf_if h₈ hsb hfibt).trans ((keepsBelow_putLeaf_if h₉ hsb hrmap).trans
      (keepsBelow_putLeaf_if hhead hsb hrefc))
  obtain ⟨hlen, hbytes⟩ := hsectors.trans (hroots.trans hrest)
  -- The first sector is the superblock.
  rw [length_onSlice h₁, List.length_replicate] at hlen
  rw [onSlice] at h₁
  split_ifs at h₁ with hroom
  rw [List.length_replicate] at hroom
  refine ⟨hlen, by omega, fun i hi => ?_⟩
  rw [List.drop_zero, List.take_replicate, Nat.min_eq_left (by omega), h.encode_eq, ok_bind] at h₁
  rw [hbytes i hi, ← Except.ok.inj h₁, byteAt_splice_of_mem (Nat.zero_le i)
    (by rw [Sb.length_image]; omega) (by rw [List.length_replicate]; omega), Nat.sub_zero]

end FirstSector

end MkfsXfs
