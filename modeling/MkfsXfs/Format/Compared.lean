import MkfsXfs.Admin.Endures
import MkfsXfs.Format.Twins
import MkfsXfs.Inspect.Compared

/-!
Two formats compare alike.

* `Setup.HeadLeft`, `Formatted.head_left`: what a format leaves in the head of an AG, down to the
  roots of its btrees.
* `Formatted.chunk_left`: the root inode chunk.
* `Formatted.agSame`, `logSame`, `fsSame`: filesystems of one plan are the same where it counts.
* `format_compares`: they are dumped to the end, and differ in what identifies them alone.
-/

namespace MkfsXfs

open Checked Inspect

/-- The state of the last superblock of an AG. -/
def Setup.lastSbs (s : Setup) (agno : ℕ) : SbState :=
  if agno = 0 then s.finished else s.agSbs agno

lemma Setup.lastSbs_withId (s : Setup) (id : Identity) (agno : ℕ) :
    ({ s with id } : Setup).lastSbs agno = (s.lastSbs agno).withUuid id.uuid := by
  rw [lastSbs, lastSbs, agSbs, agSbs]
  by_cases hzero : agno = 0
  · rw [if_pos hzero, if_pos hzero]
    rfl
  · rw [if_neg hzero, if_neg hzero, if_neg hzero, if_neg hzero]
    by_cases hroot : agno = s.g.agcount - 1 ∨ some agno = s.middle
    · rw [if_pos hroot]
      exact if_pos hroot
    · rw [if_neg hroot]
      exact if_neg hroot

/-- What is left in the head of an AG. -/
structure Setup.HeadLeft (s : Setup) (d : Disk) (agno : ℕ) (plan : AgPlan) (agf : Agf)
    (head : Buf) : Prop where
  planned : planAg s.g agno = .ok plan
  planOf : plan.Of s.g agno
  agf_eq : plan.agf s.g = .ok agf
  made : head = putFields (List.replicate (s.g.preallocBlocks * s.g.bs) 0)
    (plan.headFields s.g s.id.uuid (s.lastSbs agno) agf)
  holds : d.Holds (s.g.agbToByte agno 0) head

namespace Formatted

variable {params : Params} {size : UInt64} {logical physical : UInt32} {id id' : Identity}
  {order order' : List ℕ} {s s' : Setup} {d d' : Disk} {agno : ℕ}

section Left

variable (f : Formatted params size logical physical id order s)

include f

/-- **The head of every AG is left as its plan makes it.** -/
lemma head_left (hag : agno < s.g.agcount) : ∃ plan agf head,
    s.HeadLeft (d.apply (s.ops size.toNat order)) agno plan agf head := by
  obtain ⟨plan, hplan, hof, hbyte⟩ := f.left_head (d := d) hag
  obtain ⟨agf, hagf, -, -, -, heq⟩ := hof.agHead_eq f.accepted hplan
  refine ⟨plan, agf, _, hplan, hof, hagf, rfl, Buf.ext (by simp) fun i hi => ?_⟩
  rw [Disk.length_readBuf, length_putFields, List.length_replicate] at hi
  obtain ⟨sbs, head, hhead, hsbs, hat⟩ := hbyte i hi
  rw [Disk.byteAt_readBuf (by simpa using hi), hat,
    ← Except.ok.inj ((heq s.id.uuid sbs).symm.trans hhead)]
  rcases Nat.lt_or_ge i (s.g.headerBlocks * s.g.bs) with hlt | hge
  · rw [hsbs hlt]
    rfl
  · -- Past the header blocks the state of the superblock does not matter.
    have hsectors := f.accepted.sectors_le
    have hfields : List.Forall₂ (FieldTwin [(0, s.g.sectsize)])
        (plan.headFields s.g s.id.uuid sbs agf)
        (plan.headFields s.g s.id.uuid (s.lastSbs agno) agf) := by
      refine List.rel_append (.cons (.inr ⟨?_, ?_⟩) (forall₂_twin_refl _)) (forall₂_twin_refl _)
      · rw [Field.place_mk, Field.place_mk, Sb.length_image, Sb.length_image]
      · rw [Field.place_mk, Sb.length_image]
        exact List.mem_singleton_self _
    refine (agreeOutside_refl.putFields rfl hfields) i (by simpa using hi) ?_
    rintro ⟨r, hr, hin⟩
    obtain rfl := List.mem_singleton.mp hr
    dsimp only at hin
    omega

/-- **The root inode chunk is left as it was made.** -/
lemma chunk_left : ∃ inodes, rootChunk s.g s.g.rootChunkAgbno s.id.uuid s.id.time
      ⟨s.id.genSeed⟩ = .ok inodes ∧
    (d.apply (s.ops size.toNat order)).Holds (s.g.rootChunkAgbno * s.g.bs) inodes := by
  obtain ⟨⟨agbno, inodes⟩, hc⟩ := f.chunk
  obtain ⟨rfl, hlen⟩ := f.separate.chunk agbno inodes hc
  have hchunk : s.chunk = _ := Setup.chunk_withTime (t := s.id.time) f.planned
  obtain ⟨_, hmade, hpair⟩ := bind_eq_ok.mp (hchunk.symm.trans hc)
  obtain ⟨-, rfl⟩ := Prod.mk.inj (Except.ok.inj hpair)
  have hstart : s.chunkRange.start = s.g.rootChunkAgbno * s.g.bs := by
    change s.g.agbToByte 0 s.g.rootChunkAgbno = _
    rw [f.accepted.agbToByte_eq, Nat.zero_mul, Nat.zero_add]
    rfl
  refine ⟨_, hmade, Buf.ext (by simp) fun i hi => ?_⟩
  rw [Disk.length_readBuf] at hi
  have hholds : s.chunkRange.Holds (s.g.rootChunkAgbno * s.g.bs + i) := ⟨by omega, by omega⟩
  rw [Disk.byteAt_readBuf hi, Setup.ops, Disk.apply_append, Disk.apply_append, Disk.apply_append,
    f.separate.left_chunk f.agcount_pos hc hholds, hstart, Nat.add_sub_cancel_left]

/-- The log, past its first record. -/
lemma logByte_eq : logByte s.g.geo = s.logAt := by
  have hb := f.accepted.hasBlock_log f.fits
  obtain ⟨-, hag, hagb⟩ := f.accepted.fsb size.toNat_lt hb
  have hag' : s.g.geo.logstart >>> s.g.geo.agblklog = s.g.logagno := hag
  have hagb' : s.g.geo.logstart &&& (2 ^ s.g.geo.agblklog - 1) = s.g.logAgbno := hagb
  rw [logByte, hag', hagb']
  exact f.byte_eq (x := s.g.geo.incompat) hb

end Left

/-! ### Reading the heads -/

section Heads

variable {plan : AgPlan} {agf : Agf} {head : Buf}

variable (f : Formatted params size logical physical id order s) (hag : agno < s.g.agcount)
  (h : s.HeadLeft d agno plan agf head)

include f hag

/-- A block of a head, for a reader. -/
lemma byte_head {block : ℕ} (hb : block < s.g.preallocBlocks) :
    s.g.geo.byte agno block = s.g.agbToByte agno 0 + block * s.g.bs ∧
      s.g.geo.byte agno block + s.g.bs ≤ size.toNat := by
  obtain ⟨-, len, hlen, hall⟩ := f.accepted.extent_head f.agsMin hag
  have hle := f.head_le hag
  have hroom : (block + 1) * s.g.bs ≤ s.g.preallocBlocks * s.g.bs := Nat.mul_le_mul_right _ hb
  have hread : s.g.geo.byte agno block = s.g.agbToByte agno 0 + block * s.g.bs := by
    refine (f.byte_eq (x := s.g.geo.incompat) ⟨hag, len, hlen, by omega⟩).trans ?_
    rw [f.accepted.agbToByte_eq, f.accepted.agbToByte_eq, Nat.add_zero, Nat.add_mul]
    rfl
  rw [Nat.succ_mul] at hroom
  exact ⟨hread, by omega⟩

include h

/-- The header sectors as they are read. -/
lemma sector_left {i : ℕ} (hi : i < 4) {data : Buf} (hf : (⟨i * s.g.sectsize, data⟩ : Field) ∈
    plan.sectorFields s.g s.id.uuid (s.lastSbs agno) agf) :
    sectorOf s.g.geo (headOf s.g.geo d agno) i = data := by
  rw [← f.accepted.sectorOf_head h.made hf]
  have hlen : head.length = s.g.preallocBlocks * s.g.bs := by
    rw [h.made, length_putFields, List.length_replicate]
  have hpos := f.accepted.preallocBlocks_bounds
  have hblocks := Nat.mul_le_mul_right s.g.bs s.g.headerBlocks_le
  have hsectors := f.accepted.sectors_le
  have hle : (i + 1) * s.g.sectsize ≤ 4 * s.g.sectsize := Nat.mul_le_mul_right _ hi
  have hread : headOf s.g.geo d agno = slice head 0 (0 + s.g.headerBlocks * s.g.bs) := by
    have hat : s.g.geo.byte agno 0 = s.g.agbToByte agno 0 + 0 * s.g.bs :=
      (f.byte_head hag (by omega)).1
    have hend : 0 + s.g.headerBlocks * s.g.bs ≤ head.length := by omega
    rw [headOf, hat, Nat.zero_mul]
    exact h.holds.readBuf hend
  have hsector : s.g.geo.sectsize = s.g.sectsize := rfl
  rw [hread, sectorOf, sectorOf, hsector]
  refine Buf.ext ?_ fun k hk => ?_
  · rw [length_slice, length_slice (by omega)]
    rw [length_slice (by omega)]
    omega
  · rw [length_slice (by rw [length_slice (by omega)]; omega)] at hk
    rw [byteAt_slice hk, byteAt_slice hk, byteAt_slice (by omega), Nat.zero_add]

/-- All four of them. -/
lemma sectors_left :
    sectorOf s.g.geo (headOf s.g.geo d agno) 0 = Sb.image s.g (s.lastSbs agno) ∧
    sectorOf s.g.geo (headOf s.g.geo d agno) 1 =
      agf.encode s.id.uuid (List.replicate s.g.sectsize 0) ∧
    sectorOf s.g.geo (headOf s.g.geo d agno) 2 =
      (plan.agi s.g).encode s.id.uuid (List.replicate s.g.sectsize 0) ∧
    sectorOf s.g.geo (headOf s.g.geo d agno) 3 =
      agflImage s.g (toU32 plan.agno) s.id.uuid plan.agfl :=
  ⟨f.sector_left hag h (by norm_num) (by simp [AgPlan.sectorFields]),
    f.sector_left hag h (by norm_num) (by simp [AgPlan.sectorFields]),
    f.sector_left hag h (by norm_num) (by simp [AgPlan.sectorFields]),
    f.sector_left hag h (by norm_num) (by simp [AgPlan.sectorFields])⟩

/-- The blocks of the roots as they are read. -/
lemma root_left {r : Root} (hr : r ∈ plan.roots s.g) :
    d.readBuf (s.g.geo.byte agno r.block) s.g.geo.blocksize = r.image s.g agno s.id.uuid := by
  have hlen : head.length = s.g.preallocBlocks * s.g.bs := by
    rw [h.made, length_putFields, List.length_replicate]
  have hin := (AgPlan.root_block hr).2
  have hroom : (r.block + 1) * s.g.bs ≤ s.g.preallocBlocks * s.g.bs := Nat.mul_le_mul_right _ hin
  have himage := f.accepted.headBlock_head h.made hr
  rw [h.planOf.agno_eq] at himage
  rw [Nat.succ_mul, ← hlen] at hroom
  rw [(f.byte_head hag hin).1, ← himage, headBlock, Nat.succ_mul]
  exact h.holds.readBuf hroom

/-- The pointers to the roots as they are read. -/
lemma pointers_left : RootPointers s.g (sectorOf s.g.geo (headOf s.g.geo d agno) 1)
    (sectorOf s.g.geo (headOf s.g.geo d agno) 2) := by
  obtain ⟨-, -, -, -, hfl, -⟩ := h.planOf.agHead_eq f.accepted h.planned
  obtain ⟨-, hsector₁, hsector₂, -⟩ := f.sectors_left hag h
  rw [hsector₁, hsector₂]
  exact f.accepted.rootPointers h.agf_eq hfl (by rw [List.length_replicate]; exact f.accepted.sectsize_ge)

/-- The roots are leaves, whole. -/
lemma root_read {r : Root} (hr : r ∈ plan.roots s.g) : r.block < plan.length ∧
    RootRead s.g agno r.tree r.block (r.image s.g agno s.id.uuid) ∧
    leafRecs r.tree (r.image s.g agno s.id.uuid) = (List.range r.numrecs).map fun i =>
      slice r.recs (i * r.tree.recLen) (i * r.tree.recLen + r.tree.recLen) := by
  obtain ⟨-, -, hfree, hrmap, -, -⟩ := h.planOf.agHead_eq f.accepted h.planned
  have hcount := f.accepted.agcount_le
  rw [maxAgnumber] at hcount
  have hroom := h.planOf.prealloc_lt f.accepted
  have hin := (AgPlan.root_block hr).2
  exact ⟨by omega, f.accepted.rootRead (by omega) hfree hrmap hr (f.accepted.daddr_lt size.toNat_lt
    f.covered ⟨hag, plan.length, h.planOf.blocks, by omega⟩)⟩

/-- The records of the inode btree as they are read. -/
lemma inobt_left (hd : d.Healthy) : ∃ dump, (Device.ofSize size logical).run (dumpTree s.g.geo agno
    inobt (be32 (sectorOf s.g.geo (headOf s.g.geo d agno) 2) Agi.Off.root)) d
      = (.ok (dump, (List.range (plan.inodes s.g).length).map fun i =>
        slice (Btree.inobtRecs (plan.inodes s.g) s.g.features.sparse) (i * Btree.inobtRec)
          (i * Btree.inobtRec + Btree.inobtRec)), d) := by
  have hr : (⟨inobt, s.g.ibtBlock, Btree.inobtRecs (plan.inodes s.g) s.g.features.sparse,
      (plan.inodes s.g).length⟩ : Root) ∈ plan.roots s.g := by simp [AgPlan.roots]
  obtain ⟨hlt, hread, hrecs⟩ := f.root_read hag h hr
  have hin := (AgPlan.root_block hr).2
  obtain ⟨dump, hrun⟩ := @run_dumpTree_leaf (Device.ofSize size logical) _ _ _ _ _ _ _ hd
    (Setup.agLen_eq (x := s.g.geo.incompat) h.planOf.blocks) hlt (f.byte_head hag hin).2
    (f.root_left hag h hr) hread.magic hread.level
  rw [(f.pointers_left hag h).ino]
  exact ⟨dump, hrun.trans (by rw [hrecs]; rfl)⟩

end Heads

/-! ### The same where it counts -/

section Same

variable (f : Formatted params size logical physical id order s)
  (f' : Formatted params size logical physical id' order' { s with id := id' })

variable {ids : Bool} (hids : ids = true → s.id.uuid = id'.uuid)
  (hd : d.Healthy) (hd' : d'.Healthy)

include f hd hd'

/-- Inodes of two chunks. -/
lemma inodeSame {inodes inodes' : Buf} (hslots : SlotsSame ids s.g.inodesize 64 inodes inodes')
    (hheld : d.Holds (s.g.rootChunkAgbno * s.g.bs) inodes)
    (hheld' : d'.Holds (s.g.rootChunkAgbno * s.g.bs) inodes') {i : ℕ} (hi : i < 64) :
    InodeSame ids (Device.ofSize size logical) d d' s.g.geo 0
      (s.g.rootChunkAgbno * 2 ^ s.g.inopblog) i := by
  have hsize : (Device.ofSize size logical).size = size.toNat := rfl
  refine ⟨_, _, f.accepted.inode_found size.toNat_lt hslots.left hsize hd hheld hi,
    f.accepted.inode_found size.toNat_lt hslots.right hsize hd' hheld' hi, rfl, ?_,
    hslots.slots i hi⟩
  have hend : (i + 1) * s.g.inodesize ≤ 64 * s.g.inodesize := Nat.mul_le_mul_right _ hi
  have hisz : 512 ≤ s.g.inodesize := (f.accepted.narrow size.toNat_lt).inodesize.1
  change Inode.coreSize ≤ (inodeSlot s.g.inodesize inodes i).length
  rw [inodeSlot, length_slice (by rw [hslots.left]; exact hend), Nat.succ_mul,
    Nat.add_sub_cancel_left]
  exact le_trans (by decide) hisz

include f' hids

/-- **AGs are the same where it counts.** -/
lemma agSame {inodes inodes' : Buf} (hslots : SlotsSame ids s.g.inodesize 64 inodes inodes')
    (hheld : d.Holds (s.g.rootChunkAgbno * s.g.bs) inodes)
    (hheld' : d'.Holds (s.g.rootChunkAgbno * s.g.bs) inodes') {plan plan' : AgPlan}
    {agf agf' : Agf} {head head' : Buf} (hag : agno < s.g.agcount)
    (h : s.HeadLeft d agno plan agf head)
    (h' : ({ s with id := id' } : Setup).HeadLeft d' agno plan' agf' head') :
    AgSame ids (Device.ofSize size logical) d d' s.g.geo agno := by
  obtain rfl : plan = plan' := Except.ok.inj (h.planned.symm.trans h'.planned)
  obtain rfl : agf = agf' := Except.ok.inj (h.agf_eq.symm.trans h'.agf_eq)
  have hss := f.accepted.sectsize_ge
  obtain ⟨hsb, hagf, hagi, hagfl⟩ := f.sectors_left hag h
  obtain ⟨hsb', hagf', hagi', hagfl'⟩ := f'.sectors_left hag h'
  rw [s.lastSbs_withId id' agno] at hsb'
  have huuid : (s.lastSbs agno).uuid = s.id.uuid :=
    (congrArg SbState.uuid (s.lastSbs_withId s.id agno)).trans rfl
  refine ⟨?_, ?_, ?_, ?_, ?_, ⟨plan.length, Setup.agLen_eq (x := s.g.geo.incompat) h.planOf.blocks,
    fun r hr => ⟨1, by norm_num, fun _ => ?_⟩⟩, ?_⟩
  · have hroom := f.head_le hag
    have hpos := f.accepted.preallocBlocks_bounds
    have hat : s.g.geo.byte agno 0 = s.g.agbToByte agno 0 + 0 * s.g.bs :=
      (f.byte_head hag (by omega)).1
    have hblocks := Nat.mul_le_mul_right s.g.bs s.g.headerBlocks_le
    rw [hat, Nat.zero_mul, Nat.add_zero]
    exact (Nat.add_le_add_left hblocks _).trans hroom
  · rw [hsb, hsb']
    exact same_superblock (by rwa [huuid]) hss
  · rw [hagf, hagf']
    exact same_agf hids hss
  · rw [hagi, hagi']
    exact same_agi hids hss
  · rw [hagfl, hagfl']
    exact same_agfl hids hss
  · -- The roots are leaves.
    have hroots : headRoots s.g.geo _ _ = (plan.roots s.g).map _ :=
      (f.pointers_left hag h).headRoots_eq
    rw [hroots] at hr
    obtain ⟨root, hroot, rfl⟩ := List.mem_map.mp hr
    obtain ⟨-, hread, -⟩ := f.root_read hag h hroot
    have hbs := f.accepted.bs_bounds.1
    rw [f.root_left hag h hroot, f'.root_left hag h' hroot]
    refine ⟨(f.byte_head hag (AgPlan.root_block hroot).2).2,
      same_root hids ((by decide : Btree.Off.recs ≤ 1024).trans hbs), fun c hc => ?_⟩
    rw [below, if_pos (.inr hread.level)] at hc
    cases hc
  · -- Only AG 0 has inodes.
    intro dump recs hrun raw hraw i hi
    obtain ⟨dump', hrun'⟩ := f.inobt_left hag h hd
    have hrecs := congrArg Prod.snd (Except.ok.inj (congrArg Prod.fst (hrun.symm.trans hrun')))
    dsimp only at hrecs
    rw [hrecs] at hraw
    obtain ⟨k, hk, rfl⟩ := List.mem_map.mp hraw
    have hpos := (Nat.zero_le k).trans_lt (List.mem_range.mp hk)
    obtain rfl : agno = 0 := by
      by_contra hne
      have hchunk := h.planOf.planned.chunk
      rw [h.planOf.agno_eq, if_neg hne] at hchunk
      rw [AgPlan.inodes, AgPlan.startino, hchunk] at hpos
      exact absurd hpos (Nat.lt_irrefl 0)
    obtain ⟨hstart, hsmall⟩ := f.accepted.startino_eq h.planOf
    have hone : (plan.inodes s.g).length = 1 := by
      rw [AgPlan.inodes, hstart]
      rfl
    obtain rfl : k = 0 := by
      rw [hone, List.mem_range] at hk
      omega
    have hchunk := (inobtRead_inodes hstart (by omega) s.g.features.sparse).chunk
    have hsparse : sparse s.g.geo = s.g.features.sparse := s.g.sparse_geo
    rw [hsparse, hchunk] at hi ⊢
    rw [present_zero] at hi
    exact f.inodeSame hd hd' hslots hheld hheld' (List.mem_range.mp hi)

omit hd hd' in
/-- **The logs are the same where it counts.** -/
lemma logSame : LogSame ids (Device.ofSize size logical) (d.apply (s.ops size.toNat order))
    (d'.apply (({ s with id := id' } : Setup).ops size.toNat order')) s.g.geo := by
  have hone : 1 * s.g.bs ≤ s.g.logblocks * s.g.bs :=
    Nat.mul_le_mul_right _ f.accepted.logblocks_pos
  have hmax : max s.g.geo.blocksize (s.g.geo.logblocks * s.g.geo.blocksize) =
      s.g.logblocks * s.g.bs := max_eq_right (by rwa [Nat.one_mul] at hone)
  have hblock : bbsize ≤ s.g.bs := le_trans (by decide) f.accepted.bs_bounds.1
  have hleft := fun i hi => f.left_log (d := d) (i := i) hi
  have hleft' := fun i hi => f'.left_log (d := d') (i := i) hi
  obtain ⟨hheader, hrest⟩ := @same_record _ _ _ (Log.clearSunit s.g.logsunit
    (if s.g.sectsize > 512 then s.g.lsectsize else 0)) hids
  have hlen : ∀ {uuid : Uuid} {sunit : ℕ}, bbsize ≤ (Log.firstRecord uuid sunit).length := by
    intro uuid sunit
    rw [Log.firstRecord, Log.length_record]
    exact Nat.le_mul_of_pos_left _ ((Nat.zero_le _).trans_lt (Log.recordHdrs_lt_recordLen sunit))
  have hread : ∀ {e : Disk} {uuid : Uuid} {sunit : ℕ}, (∀ i < s.g.logblocks * s.g.bs,
      e.bytes (s.logAt + i) = byteAt (Log.firstRecord uuid sunit) i) →
      e.readBuf s.logAt bbsize = (Log.firstRecord uuid sunit).take bbsize := by
    intro e uuid sunit he
    refine Buf.ext (by rw [Disk.length_readBuf, List.length_take, min_eq_left hlen]) fun i hi => ?_
    rw [Disk.length_readBuf] at hi
    rw [Disk.byteAt_readBuf hi, he i (by omega), byteAt_take hi]
  constructor
  · rw [hmax, f.logByte_eq]
    exact f.log_le
  · exact size.toNat_lt
  · rw [f.logByte_eq, hread hleft, hread hleft']
    exact hheader
  · intro i hi hlt
    rw [hmax] at hlt
    rw [f.logByte_eq, hleft i hlt]
    exact (hrest i hi).trans (hleft' i hlt).symm

omit hd hd' f' hids in
/-- The geometry is read. -/
lemma geometry_left (hd : d.Healthy) : ∃ r, (Device.ofSize size logical).run
    (geometry (Device.ofSize size logical)) (d.apply (s.ops size.toNat order)) =
      (.ok r, d.apply (s.ops size.toNat order)) ∧ r.1 = s.g.geo := by
  have hparsed := (f.opened (d := d)).parsed
  refine ⟨⟨s.g.geo, Geo.parse_valid hparsed⟩, ?_, rfl⟩
  rw [geometry, Device.run_bind_ok (Device.run_readAt (Disk.apply_healthy hd) ?_)]
  · rw [Device.run_monadLift]
    exact Prod.ext (Geo.parseValid_eq_ok.mpr hparsed) rfl
  · rw [Nat.zero_add]
    exact min_le_right _ _

/-- **Filesystems of one plan are the same where it counts.** -/
lemma fsSame : FsSame ids (Device.ofSize size logical) (d.apply (s.ops size.toNat order))
    (d'.apply (({ s with id := id' } : Setup).ops size.toNat order')) s.g.geo := by
  obtain ⟨inodes, hmade, hheld⟩ := f.chunk_left (d := d)
  obtain ⟨inodes', hmade', hheld'⟩ := f'.chunk_left (d := d')
  have hslots := same_rootChunk hids f.accepted hmade hmade'
  refine ⟨⟨f.geometry_left hd, f'.geometry_left hd'⟩, (f.fs d).valid, ?_, fun agno hag => ?_,
    f.logSame f' hids⟩
  · change 512 ∣ s.g.sectsize
    rw [f.accepted.sectsize]
    exact Nat.pow_dvd_pow 2 f.accepted.sectlog_ge
  · obtain ⟨plan, agf, head, h⟩ := f.head_left (d := d) hag
    obtain ⟨plan', agf', head', h'⟩ := f'.head_left (d := d') hag
    exact f.agSame f' hids (Disk.apply_healthy hd) (Disk.apply_healthy hd') hslots hheld hheld' hag
      h h'

end Same

end Formatted

/-! ### Two formats -/

/-- The plan does not depend on the identity. -/
lemma setup_withId {params : Params} {size : UInt64} {logical physical : UInt32}
    {id id' : Identity} {s : Setup} (hs : setup params size logical physical id = .ok s) :
    setup params size logical physical id' = .ok { s with id := id' } := by
  obtain ⟨hg, hplans, hinitial, -⟩ := setup_eq_ok.mp hs
  exact setup_eq_ok.mpr ⟨hg, hplans, hinitial, rfl⟩

/-- **Two formats of one plan compare alike.**  Whatever was on the devices before, whatever
identities they were given and in whatever orders their groups were written: a comparison of the
two reads both to the end and finds no structural difference, and when the UUIDs match it finds
only incidental ones. -/
theorem format_compares (params : Params) (size : UInt64) (logical physical : UInt32)
    (id id' : Identity) (s : Setup) (hs : setup params size logical physical id = .ok s)
    (order order' : List ℕ)
    (horder : Unordered agConcurrency (List.range s.g.agcount) order)
    (horder' : Unordered agConcurrency (List.range s.g.agcount) order') (d d' d₀ d₀' : Disk)
    (report report' : Report) (hrun : (Device.ofSize size logical).run
      (format params size logical physical id order) d = (.ok report, d₀))
    (hrun' : (Device.ofSize size logical).run
      (format params size logical physical id' order') d' = (.ok report', d₀')) :
    ∃ l, (Device.ofSize size logical).compare (Device.ofSize size logical) d₀.heal d₀'.heal =
        .ok l ∧
      (∀ e ∈ l, e.judged ≠ .structural) ∧
      (id.uuid = id'.uuid → ∀ e ∈ l, e.judged = .incidental) := by
  have hs' : setup params size logical physical id' = .ok { s with id := id' } := setup_withId hs
  obtain ⟨f, hd₀, -⟩ := Formatted.of_run hs horder hrun
  obtain ⟨f', hd₀', -⟩ := Formatted.of_run hs' horder' hrun'
  have hid : s.id = id := (setup_eq_ok.mp hs).2.2.2
  rw [hd₀, hd₀']
  have hcompare : ∀ ids : Bool, (ids = true → s.id.uuid = id'.uuid) → ∃ l,
      (Device.ofSize size logical).compare (Device.ofSize size logical)
        (d.heal.apply (s.ops size.toNat order))
        (d'.heal.apply (({ s with id := id' } : Setup).ops size.toNat order')) = .ok l ∧
      ∀ e ∈ l, e.judged.counts ids = false := fun ids hids =>
    (f.fsSame f' hids d.heal_healthy d'.heal_healthy).compare
      (Disk.apply_healthy d.heal_healthy) (Disk.apply_healthy d'.heal_healthy)
  obtain ⟨l, hl, hstructural⟩ := hcompare false nofun
  refine ⟨l, hl, fun e he h => ?_, fun hids e he => ?_⟩
  · have := hstructural e he
    rw [h] at this
    cases this
  · obtain ⟨l', hl', hcounted⟩ := hcompare true fun _ => hid ▸ hids
    obtain rfl : l = l' := Except.ok.inj (hl.symm.trans hl')
    have := hcounted e he
    generalize e.judged = c at this
    cases c with
    | incidental => rfl
    | structural => cases this
    | identity => cases this

/-- Two filesystems of 512 MiB, with UUIDs, times and generations of their own. -/
theorem format_compares_512m : ∃ d₀ d₀' report, (Device.ofSize 536870912 512).run
      (format {} 536870912 512 512 setup512m.id [0, 1, 2, 3]) Disk.blank =
        (.ok setup512m.report, d₀) ∧
    (Device.ofSize 536870912 512).run
      (format {} 536870912 512 512 ⟨zeroUuid, ⟨1700000001, 0⟩, 2⟩ [0, 1, 2, 3]) Disk.blank =
        (.ok report, d₀') ∧
    ∃ l, (Device.ofSize 536870912 512).compare (Device.ofSize 536870912 512) d₀.heal d₀'.heal =
        .ok l ∧ ∀ e ∈ l, e.judged ≠ .structural := by
  obtain ⟨d₀, hrun⟩ := exists_run_512m
  have hs' := @setup_withId _ _ _ _ _ ⟨zeroUuid, ⟨1700000001, 0⟩, 2⟩ _ setup_512m
  have hblank : Disk.blank.Healthy := rfl
  have horder : ∀ agno ∈ [0, 1, 2, 3], agno < setup512m.g.agcount := by decide
  have hrun' := run_format hs' agsMin_geo512m logFits_geo512m horder hblank
  rw [Setup.result_ok hs' ⟨3847483649000000000, by decide⟩] at hrun'
  obtain ⟨l, hl, hstructural, -⟩ := format_compares {} 536870912 512 512 setup512m.id
    ⟨zeroUuid, ⟨1700000001, 0⟩, 2⟩ setup512m setup_512m [0, 1, 2, 3] [0, 1, 2, 3]
    unordered_512m unordered_512m Disk.blank Disk.blank d₀ _ setup512m.report _ hrun hrun'
  exact ⟨d₀, _, _, hrun, hrun', l, hl, hstructural⟩

end MkfsXfs
