import MkfsXfs.Format.PlanSpec

/-!
What a plan makes of an AG.

* `AgPlan.Partitions`: every block of the AG is a preallocated block, a log block, a block
  of the free list, a block of the root inode chunk or a free block, and only one of them
  (`planAg_partitions`).
* `AgPlan.Mapped`: every block is free or has one reverse mapping, by the owner
  `AgPlan.ownerOf` says it has (`planAg_mapped`).
-/

namespace MkfsXfs

open Checked Extents Extents.Extent

/-- The plan partitions the `length` blocks of AG `agno`: each is counted once. -/
structure AgPlan.Partitions (plan : AgPlan) (g : Geometry) (agno length : ℕ) : Prop where
  agno_eq : plan.agno = agno
  length_eq : plan.length = length
  blocks : ∀ b, (if b < g.preallocBlocks then 1 else 0)
    + (if agno = g.logagno ∧ g.logAgbno ≤ b ∧ b < g.logAgbno + g.logblocks then 1 else 0)
    + plan.agfl.count b + (if plan.inChunk g b then 1 else 0) + cover plan.free b
    = if b < length then 1 else 0
  agfl_length : plan.agfl.length = g.minFreelist
  agfl_nodup : plan.agfl.Nodup
  /-- the root inode chunk, in AG 0 only -/
  chunk : plan.chunk = if agno = 0 then some g.rootChunkAgbno else none
  chunk_aligned : g.inoalignmt ∣ g.rootChunkAgbno
  /-- free extents nonempty, in order, and not adjacent -/
  free : FreeRuns True plan.free

/-- Who owns a block once the AG is formatted. -/
def AgPlan.ownerOf (plan : AgPlan) (g : Geometry) (b : ℕ) : Option ℕ :=
  match g.initialOwner plan.agno b with
  | some o => some o
  | none =>
      if b ∈ plan.agfl then some owner.ag
      else if plan.inChunk g b then some owner.inodes
      else none

/-- Every block of the AG is free or has one reverse mapping, by its owner. -/
structure AgPlan.Mapped (plan : AgPlan) (g : Geometry) (length : ℕ) : Prop where
  once : ∀ b < length, cover plan.rmap b + cover plan.free b = 1
  none_after : ∀ b, length ≤ b → cover plan.rmap b + cover plan.free b = 0
  owner : ∀ r ∈ plan.rmap, ∀ b, Holds r b → plan.ownerOf g b = some r.owner
  /-- records nonempty, in order, contiguous ones of an owner merged -/
  runs : RmapRuns plan.rmap

section

variable {params : Params} {dev logical physical : ℕ} {g : Geometry} {agno length : ℕ}
  {plan : AgPlan}

/-- No AG is longer than the AG size. -/
lemma Accepted.agBlocks_le (h : Accepted params dev logical physical g) (hdev : dev < 2 ^ 64)
    (hag : agno < g.agcount) (hlen : g.agBlocks agno = .ok length) : length ≤ g.agsize := by
  by_cases hlast : agno + 1 = g.agcount
  · have hd : g.dblocks < 2 ^ 64 := by
      have h1 := h.dblocks_le
      have h2 := h.asked_lt hdev
      rw [h.askedBlocks_eq] at h2
      omega
    obtain ⟨hle, rfl⟩ := (Geometry.agBlocks_last_eq_ok hlast hd).mp hlen
    have hmul := h.dblocks_le_mul
    rw [← hlast, Nat.add_mul, Nat.one_mul] at hmul
    omega
  · rw [Geometry.agBlocks_of_lt (by omega)] at hlen
    exact (Except.ok.inj hlen).ge

/-- What is known of a plan, for an AG of a length the format allows. -/
lemma Accepted.planned_of_min (h : Accepted params dev logical physical g) (hdev : dev < 2 ^ 64)
    (hag : agno < g.agcount) (hlen : g.agBlocks agno = .ok length)
    (hmin : agMinBlocks g.blocklog ≤ length) (hplan : planAg g agno = .ok plan) :
    plan.agno = agno ∧ plan.length = length ∧ g.freeStart agno < length ∧ Planned g plan := by
  have hle := h.agBlocks_le hdev hag hlen
  have hs := h.agsize_lt
  have hp := h.preallocBlocks_bounds
  have hm := agMinBlocks_ge h.blocklog_le
  exact h.planned hplan hlen (by omega) (by omega)

/-- Inodes are aligned to at least a block. -/
lemma Accepted.inoalignmt_pos (h : Accepted params dev logical physical g) :
    0 < g.inoalignmt := by
  rw [Geometry.inoalignmt]
  split_ifs with hs
  · exact h.chunkBlocks_pos
  · have hil := h.inodelog_ge
    have hbl := h.blocklog_le
    rw [Geometry.clusterAlign, inodeBigClusterSize, dinodeMinSize, h.inodesize,
      Nat.shiftRight_eq_div_pow]
    refine Nat.div_pos ?_ (Nat.two_pow_pos _)
    have hpow : 2 ^ g.blocklog ≤ 2 ^ 14 := Nat.pow_le_pow_right (by norm_num) hbl
    have hino : 2 ^ 9 ≤ 2 ^ g.inodelog := Nat.pow_le_pow_right (by norm_num) hil
    omega

/-- The root inode chunk is aligned. -/
lemma Accepted.rootChunk_aligned (h : Accepted params dev logical physical g) :
    g.inoalignmt ∣ g.rootChunkAgbno := by
  have hn := h.agcount_ge
  have hpos := h.inoalignmt_pos
  rw [g.rootChunkAgbno_eq (by rw [h.logagno]; omega)]
  split_ifs with hal
  · exact Dvd.intro_left _ rfl
  · rw [show g.inoalignmt = 1 by omega]
    exact one_dvd _

/-- With reverse mappings, the blocks with an owner at the start are those before the free
ones. -/
lemma Accepted.initialOwner_isSome (h : Accepted params dev logical physical g)
    (hr : g.features.rmapbt = true) (b : ℕ) :
    (g.initialOwner agno b).any (fun _ => true) ↔ b < g.freeStart agno := by
  refine ⟨fun hsome => ?_, fun hlt => ?_⟩
  · refine h.lt_freeStart hr fun hnone => ?_
    rw [hnone] at hsome
    cases hsome
  · obtain ⟨hi1, hi2, hi3, hi4, hi5⟩ := g.rmap_layout hr
    have hp := h.logAgbno
    rw [Geometry.freeStart] at hlt
    rw [Geometry.initialOwner]
    split_ifs with h1 h2 h3 h4 h5 h6
    all_goals first | rfl | exfalso
    cases hf : g.features.reflink with
    | false =>
        rw [hf, Bool.toNat_false] at hi5
        split_ifs at hlt <;> omega
    | true =>
        have hne : b ≠ g.refcBlock := fun hb => h5 ⟨hf, hb⟩
        rw [hf, Bool.toNat_true] at hi5
        split_ifs at hlt <;> omega

end

/-- **A plan partitions its AG.** -/
theorem planAg_partitions (params : Params) (dev : UInt64) (logical physical : UInt32)
    (g : Geometry) (agno length : ℕ) (plan : AgPlan)
    (hg : Geometry.compute params dev logical physical = .ok g) (hag : agno < g.agcount)
    (hlen : g.agBlocks agno = .ok length) (hmin : agMinBlocks g.blocklog ≤ length)
    (hplan : planAg g agno = .ok plan) : plan.Partitions g agno length := by
  have h := compute_eq_ok.mp hg
  obtain ⟨hno, hl, hstart, hp⟩ := h.planned_of_min dev.toNat_lt hag hlen hmin hplan
  refine ⟨hno, hl, fun b => ?_, hp.agfl_length, ?_, hno ▸ hp.chunk, h.rootChunk_aligned,
    hp.disjoint.free_runs⟩
  · have hfree := hp.free b
    have hlog := h.logAgbno
    rw [hno, hl] at hfree
    rw [Geometry.freeStart] at hfree hstart
    by_cases ha : agno = g.logagno
    · simp only [ha, if_true, true_and] at hfree hstart ⊢
      split_ifs at hfree ⊢ <;> omega
    · simp only [ha, if_false, false_and] at hfree hstart ⊢
      split_ifs at hfree ⊢ <;> omega
  · rw [List.nodup_iff_count_le_one]
    intro b
    have hfree := hp.free b
    split_ifs at hfree <;> omega

/-- **Every block of an AG is free or has one reverse mapping, by its owner.** -/
theorem planAg_mapped (params : Params) (dev : UInt64) (logical physical : UInt32)
    (g : Geometry) (agno length : ℕ) (plan : AgPlan)
    (hg : Geometry.compute params dev logical physical = .ok g)
    (hr : g.features.rmapbt = true) (hag : agno < g.agcount)
    (hlen : g.agBlocks agno = .ok length) (hmin : agMinBlocks g.blocklog ≤ length)
    (hplan : planAg g agno = .ok plan) : plan.Mapped g length := by
  have h := compute_eq_ok.mp hg
  obtain ⟨hno, hl, hstart, hp⟩ := h.planned_of_min dev.toNat_lt hag hlen hmin hplan
  have hsum : ∀ b, cover plan.rmap b + cover plan.free b = if b < length then 1 else 0 := by
    intro b
    have hfree := hp.free b
    have howned : cover plan.rmap b = _ := hp.owned (fun _ => true) b
    simp only [hr, h.initialOwner_isSome hr, true_and, if_true] at howned
    rw [hl] at hfree
    rw [hno] at hfree howned
    rw [howned]
    split_ifs at hfree ⊢ <;> omega
  refine ⟨fun b hb => ?_, fun b hb => ?_, fun r hmem b hb => ?_, hp.disjoint.rmap_runs⟩
  · rw [hsum b, if_pos hb]
  · rw [hsum b, if_neg (by omega)]
  · -- some term of the count of the owner's records is not zero
    have hpos : owned (fun o => o == r.owner) plan.rmap b ≠ 0 :=
      fun h0 => tally_eq_zero.mp h0 r hmem (by simp) hb
    rw [hp.owned] at hpos
    have hfree := hp.free b
    have hnone : g.freeStart plan.agno ≤ b → g.initialOwner plan.agno b = none := by
      intro hge
      by_contra ho
      have := h.lt_freeStart hr ho
      omega
    rw [AgPlan.ownerOf]
    by_cases hinit : (g.initialOwner plan.agno b).any (fun o => o == r.owner)
    · obtain ⟨o, ho, hor⟩ := (Option.any_eq_true _ _).mp hinit
      rw [ho, beq_iff_eq.mp hor]
    · rw [if_neg (fun hc => hinit hc.2), Nat.zero_add] at hpos
      by_cases hagfl : b ∈ plan.agfl
      · have hcount := List.count_pos_iff.mpr hagfl
        have hno : g.initialOwner plan.agno b = none := by
          refine hnone ?_
          by_contra hlt
          rw [if_neg (by omega)] at hfree
          omega
        have hout : ¬ plan.inChunk g b := by
          intro hin
          rw [if_pos hin] at hfree
          split_ifs at hfree
          omega
        have howner : owner.ag = r.owner := by
          by_contra hne
          rw [if_neg (by simp [hne]), if_neg (by simp [hout])] at hpos
          exact hpos rfl
        simp only [hno, hagfl, if_true, howner]
      · rw [List.count_eq_zero.mpr hagfl, ite_self, Nat.zero_add] at hpos
        have hin : g.features.rmapbt = true ∧ (owner.inodes == r.owner) = true
            ∧ plan.inChunk g b = true := by
          by_contra hne
          exact hpos (if_neg hne)
        rw [if_pos hin.2.2] at hfree
        have hno : g.initialOwner plan.agno b = none := by
          refine hnone ?_
          by_contra hlt
          rw [if_neg (by omega)] at hfree
          omega
        simp only [hno, hagfl, hin.2.2, if_false, if_true, beq_iff_eq.mp hin.2.1]

/-! ### The default layout of 512 MiB -/

/-- The geometry of 512 MiB. -/
def geo512m : Geometry where
  blocksize := 4096
  blocklog := 12
  sectsize := 512
  sectlog := 9
  lsectsize := 512
  lsectlog := 9
  inodesize := 512
  inodelog := 9
  inopblock := 8
  inopblog := 3
  dirblocklog := 12
  dblocks := 131072
  agsize := 32768
  agcount := 4
  agblklog := 15
  imaxpct := 25
  logblocks := 16384
  logagno := 2
  logAgbno := 7
  features := {}
  label := padLabel []

lemma compute_geo512m : Geometry.compute {} 536870912 512 512 = .ok geo512m := rfl

/-- The plan of its first AG. -/
def plan512m : AgPlan where
  agno := 0
  length := 32768
  free := [⟨13, 3⟩, ⟨24, 32744⟩]
  agfl := [7, 8, 9, 10, 11, 12]
  rmap := [⟨0, 1, owner.fs⟩, ⟨1, 2, owner.ag⟩, ⟨3, 2, owner.inobt⟩, ⟨5, 1, owner.ag⟩,
    ⟨6, 1, owner.refc⟩, ⟨7, 6, owner.ag⟩, ⟨16, 8, owner.inodes⟩]
  chunk := some 16

lemma planAg_geo512m : planAg geo512m 0 = .ok plan512m := rfl

/-- The first AG of 512 MiB is partitioned. -/
theorem planAg_partitions_512m : plan512m.Partitions geo512m 0 32768 :=
  planAg_partitions {} 536870912 512 512 geo512m 0 32768 plan512m compute_geo512m (by decide) rfl
    (by decide) planAg_geo512m

/-- Its reverse mappings are exact. -/
theorem planAg_mapped_512m : plan512m.Mapped geo512m 32768 :=
  planAg_mapped {} 536870912 512 512 geo512m 0 32768 plan512m compute_geo512m rfl (by decide) rfl
    (by decide) planAg_geo512m

end MkfsXfs
