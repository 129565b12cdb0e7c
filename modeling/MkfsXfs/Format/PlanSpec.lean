import Mathlib.Data.List.MinMax
import MkfsXfs.Format.FreeSpace
import MkfsXfs.Geometry.LogPlace

/-!
The passes of `planAg`, each described once.

* `Disjoint`: the free extents and the reverse mappings are in order and share no block,
  the state all passes keep.
* `allocate_spec`: taking blocks and mapping them to an owner moves exactly these blocks
  from the free extents to the owner.
* `fillFreelist_spec`: the loop moves as many blocks as the list needs, and they are the
  blocks of the list.
* `initialFree_cover`, `initialRmap_tally`: the state the passes start from.
-/

namespace MkfsXfs

open Checked Extents Extents.Extent

/-- How many records of an owner with the property `p` cover the block. -/
abbrev owned (p : ℕ → Bool) (rmap : List RmapRec) (b : ℕ) : ℕ :=
  tally (fun a : RmapRec => p a.owner) rmap b

/-- The free extents and the reverse mappings of an AG of `n` blocks are in order and share
no block. -/
structure Disjoint (n : ℕ) (free : List AllocRec) (rmap : List RmapRec) : Prop where
  free_runs : FreeRuns True free
  free_within : Within n free
  rmap_runs : RmapRuns rmap
  rmap_within : Within n rmap
  cover_le : ∀ b, cover free b + cover rmap b ≤ 1

section Passes

variable {n : ℕ} {rmapbt : Bool} {free free' : List AllocRec} {rmap : List RmapRec}

/-- **Blocks taken from the free extents and mapped to an owner move from the ones to the
other.** -/
lemma allocate_spec (rmapbt : Bool) (o : ℕ) {start len : ℕ} (hn : n < 2 ^ 32)
    (h : Disjoint n free rmap) (hlen : 0 < len) (htake : take free start len = .ok free') :
    start + len ≤ n ∧
      (∀ b, cover free b = cover free' b + if start ≤ b ∧ b < start + len then 1 else 0) ∧
      ∃ rmap', mapBlocks rmapbt rmap ⟨start, len, o⟩ = .ok rmap' ∧ Disjoint n free' rmap' ∧
        ∀ p b, owned p rmap' b
          = owned p rmap b + if rmapbt ∧ p o ∧ start ≤ b ∧ b < start + len then 1 else 0 := by
  have hw : Within (2 ^ 32 - 1) free := fun a ha => (h.free_within a ha).trans (by omega)
  have hcov := take_cover hw htake
  have hend : start + len ≤ n := by
    obtain ⟨l₁, r, l₂, rfl, -, he, -, -⟩ := (take_eq_ok hw).mp htake
    have hr : past r ≤ n := h.free_within r (by simp)
    rw [AllocRec.past_eq] at hr
    omega
  have hfree' : FreeRuns True free' := take_runs hw h.free_runs hlen htake
  have hwithin' : Within n free' := take_within hn h.free_within htake
  refine ⟨hend, hcov, ?_⟩
  cases rmapbt with
  | false =>
      refine ⟨rmap, rfl, ⟨hfree', hwithin', h.rmap_runs, h.rmap_within, fun b => ?_⟩,
        fun p b => by simp⟩
      have h1 := h.cover_le b
      have h2 := hcov b
      omega
  | true =>
      have hnone : ∀ b, Holds (⟨start, len, o⟩ : RmapRec) b → cover rmap b = 0 := by
        rintro b ⟨hb1, hb2⟩
        have h1 := h.cover_le b
        have h2 := hcov b
        rw [if_pos ⟨hb1, hb2⟩] at h2
        omega
      obtain ⟨rmap', hins, hruns, hw', htally⟩ :=
        rmapInsert_spec h.rmap_runs hn h.rmap_within hlen hend hnone
      refine ⟨rmap', hins, ⟨hfree', hwithin', hruns, hw', fun b => ?_⟩, fun p b => ?_⟩
      · have h1 := h.cover_le b
        have h2 := hcov b
        have h3 : cover rmap' b = cover rmap b + if start ≤ b ∧ b < start + len then 1 else 0 := by
          simpa [cover] using htally (fun _ => true) b
        omega
      · simpa using htally p b

/-- The extent picked is a free one. -/
lemma pickExtent_mem {want : ℕ} {r : AllocRec} (h : pickExtent free want = some r) :
    r ∈ free := by
  rw [pickExtent, Option.or_eq_some_iff] at h
  rcases h with h | ⟨-, h⟩
  · exact List.mem_of_mem_filter (List.argmin_mem h)
  · exact List.argmax_mem h

/-- A block is listed once in a run of blocks that holds it. -/
lemma count_range_map (s len b : ℕ) :
    ((List.range len).map (s + ·)).count b = if s ≤ b ∧ b < s + len then 1 else 0 := by
  have hnd : ((List.range len).map (s + ·)).Nodup :=
    List.Nodup.map (fun _ _ => Nat.add_left_cancel) List.nodup_range
  by_cases hb : s ≤ b ∧ b < s + len
  · rw [if_pos hb]
    refine List.count_eq_one_of_mem hnd (List.mem_map.mpr ⟨b - s, ?_, by omega⟩)
    exact List.mem_range.mpr (by omega)
  · rw [if_neg hb, List.count_eq_zero]
    intro hmem
    obtain ⟨a, ha, rfl⟩ := List.mem_map.mp hmem
    have := List.mem_range.mp ha
    omega

/-- **The loop that fills the free list** moves as many blocks as the list needs from the
free extents to the list, and maps them to the AG. -/
lemma fillFreelist_spec {agno need : ℕ} (hn : n < 2 ^ 32) :
    ∀ {fuel : ℕ} {free : List AllocRec} {agfl : List ℕ} {rmap : List RmapRec}
      {free' : List AllocRec} {agfl' : List ℕ} {rmap' : List RmapRec},
      Disjoint n free rmap → agfl.length ≤ need →
      fillFreelist agno need rmapbt fuel free agfl rmap = .ok (free', agfl', rmap') →
      Disjoint n free' rmap' ∧ agfl'.length = need ∧
        (∀ b, cover free b + agfl.count b = cover free' b + agfl'.count b) ∧
        ∀ p b, owned p rmap' b + (if rmapbt ∧ p owner.ag then agfl.count b else 0)
          = owned p rmap b + if rmapbt ∧ p owner.ag then agfl'.count b else 0
  | 0, _, _, _, _, _, _, _, _, h => by cases h
  | fuel + 1, free, agfl, rmap, free', agfl', rmap', hd, hle, h => by
      rw [fillFreelist] at h
      by_cases hmore : agfl.length < need
      · rw [if_pos hmore] at h
        cases hpick : pickExtent free (need - agfl.length) with
        | none =>
            rw [hpick] at h
            cases h
        | some r =>
            rw [hpick] at h
            obtain ⟨free₁, htake, h⟩ := bind_eq_ok.mp h
            have hr := hd.free_runs.nonempty r (pickExtent_mem hpick)
            rw [AllocRec.first_eq, AllocRec.past_eq] at hr
            obtain ⟨hend, hcov, rmap₁, hmap, hd₁, htally⟩ :=
              allocate_spec rmapbt owner.ag hn hd (by omega) htake
            obtain ⟨rmap₂, hmap₂, h⟩ := bind_eq_ok.mp h
            rw [toU32_of_lt (by omega)] at hmap₂
            obtain rfl : rmap₁ = rmap₂ := Except.ok.inj (hmap.symm.trans hmap₂)
            obtain ⟨hd', hlen', hcov', htally'⟩ := fillFreelist_spec hn hd₁
              (by rw [List.length_append, List.length_map, List.length_range]; omega) h
            refine ⟨hd', hlen', fun b => ?_, fun p b => ?_⟩
            · have h1 := hcov b
              have h2 := hcov' b
              rw [List.count_append, count_range_map] at h2
              omega
            · have h1 := htally p b
              have h2 := htally' p b
              rw [List.count_append, count_range_map] at h2
              by_cases hp : rmapbt = true ∧ p owner.ag = true
              · simp only [hp.1, hp.2, true_and, and_self, if_true] at h1 h2 ⊢
                omega
              · rw [if_neg hp] at h2 ⊢
                rw [if_neg hp] at h2 ⊢
                rw [if_neg (fun hc => hp ⟨hc.1, hc.2.1⟩)] at h1
                omega
      · rw [if_neg hmore] at h
        simp only [Except.ok.injEq, Prod.mk.injEq] at h
        obtain ⟨rfl, rfl, rfl⟩ := h
        exact ⟨hd, by omega, fun _ => rfl, fun _ _ => rfl⟩

end Passes

/-! ### The state the passes start from -/

/-- Who owns the block before anything is allocated. -/
def Geometry.initialOwner (g : Geometry) (agno b : ℕ) : Option ℕ :=
  if b < g.bnoBlock then some owner.fs
  else if b < g.ibtBlock then some owner.ag
  else if b < g.rmapBlock then some owner.inobt
  else if b = g.rmapBlock then some owner.ag
  else if g.features.reflink ∧ b = g.refcBlock then some owner.refc
  else if agno = g.logagno ∧ g.logAgbno ≤ b ∧ b < g.logAgbno + g.logblocks then some owner.log
  else none

section Initial

variable {params : Params} {dev logical physical : ℕ} {g : Geometry}

/-- The first blocks with reverse mappings: each btree root follows the one before. -/
lemma Geometry.rmap_layout (g : Geometry) (hr : g.features.rmapbt = true) :
    g.ibtBlock = g.bnoBlock + 2 ∧ g.ibtBlock < g.rmapBlock ∧ g.rmapBlock ≤ g.ibtBlock + 2 ∧
      g.refcBlock = g.rmapBlock + 1 ∧
      g.preallocBlocks = g.rmapBlock + 1 + g.features.reflink.toNat := by
  simp only [preallocBlocks, refcBlock, rmapBlock, fibtBlock, ibtBlock, cntBlock, hr]
  cases g.features.finobt <;> cases g.features.reflink <;> simp

/-- The static records are in order, each next to the one before. -/
lemma Accepted.staticRmap_eq (h : Accepted params dev logical physical g)
    (hr : g.features.rmapbt = true) : staticRmap g =
      [⟨0, g.bnoBlock, owner.fs⟩, ⟨g.bnoBlock, 2, owner.ag⟩,
        ⟨g.ibtBlock, g.rmapBlock - g.ibtBlock, owner.inobt⟩, ⟨g.rmapBlock, 1, owner.ag⟩]
        ++ if g.features.reflink then [⟨g.refcBlock, 1, owner.refc⟩] else [] := by
  have hl := g.rmap_layout hr
  have hh := h.headerBlocks_bounds
  have hb : g.bnoBlock = g.headerBlocks := rfl
  rw [staticRmap]
  simp only [toU32_of_lt (n := 0) (by norm_num), toU32_of_lt (n := 1) (by norm_num),
    toU32_of_lt (n := 2) (by norm_num), toU32_of_lt (n := g.bnoBlock) (by omega),
    toU32_of_lt (n := g.ibtBlock) (by omega), toU32_of_lt (n := g.rmapBlock) (by omega),
    toU32_of_lt (n := g.refcBlock) (by omega),
    toU32_of_lt (n := g.rmapBlock - g.ibtBlock) (by omega)]

/-- An accepted log is not empty. -/
lemma Accepted.logblocks_pos (h : Accepted params dev logical physical g) :
    0 < g.logblocks := by
  have h1 := (min_thresholds g.blocklog h.blocklog_le).2.2.2.2
  have h2 := agMinBlocks_ge h.blocklog_le
  have h3 := h.logblocks_ge
  omega

/-- The log's place fits 32 bits. -/
lemma Accepted.log_lt (h : Accepted params dev logical physical g) :
    g.logAgbno + g.logblocks < 2 ^ 30 := by
  have h1 := h.logblocks_le
  have h2 := h.agsize_lt
  rw [h.logAgbno]
  omega

/-- The records before anything is allocated. -/
lemma Accepted.initialRmap_eq (h : Accepted params dev logical physical g) (agno : ℕ)
    (hr : g.features.rmapbt = true) : initialRmap g agno =
      ([⟨0, g.bnoBlock, owner.fs⟩, ⟨g.bnoBlock, 2, owner.ag⟩,
        ⟨g.ibtBlock, g.rmapBlock - g.ibtBlock, owner.inobt⟩, ⟨g.rmapBlock, 1, owner.ag⟩]
        ++ if g.features.reflink then [⟨g.refcBlock, 1, owner.refc⟩] else [])
        ++ if agno = g.logagno then [⟨g.logAgbno, g.logblocks, owner.log⟩] else [] := by
  have hlog := h.log_lt
  rw [initialRmap, if_pos hr, h.staticRmap_eq hr, toU32_of_lt (by omega),
    toU32_of_lt (by omega)]

/-- The reverse mappings start in order. -/
lemma Accepted.initialRmap_runs (h : Accepted params dev logical physical g) (agno : ℕ) :
    RmapRuns (initialRmap g agno) := by
  cases hr : g.features.rmapbt with
  | false =>
      rw [initialRmap, hr]
      exact Runs.nil
  | true =>
      obtain ⟨hi1, hi2, hi3, hi4, hi5⟩ := g.rmap_layout hr
      have hh := h.headerBlocks_bounds
      have hb : g.bnoBlock = g.headerBlocks := rfl
      have hp := h.logAgbno
      have hlog := h.logblocks_pos
      rw [h.initialRmap_eq agno hr]
      cases hf : g.features.reflink <;> by_cases ha : agno = g.logagno <;>
        simp [ha, runs_cons, Apart, RmapRec.first_eq, RmapRec.past_eq, owner.fs, owner.ag,
          owner.inobt, owner.refc, owner.log, hf] at hi5 ⊢ <;> omega

/-- The records cover each of the first blocks, and the log, by its owner. -/
lemma Accepted.initialOwner_some (h : Accepted params dev logical physical g)
    (hr : g.features.rmapbt = true) {agno b o : ℕ} (ho : g.initialOwner agno b = some o) :
    ∃ r ∈ initialRmap g agno, Holds r b ∧ r.owner = o := by
  obtain ⟨hi1, hi2, hi3, hi4, -⟩ := g.rmap_layout hr
  rw [h.initialRmap_eq agno hr]
  simp only [Holds, RmapRec.first_eq, RmapRec.past_eq]
  rw [Geometry.initialOwner] at ho
  split_ifs at ho with h1 h2 h3 h4 h5 h6 <;> obtain rfl := Option.some.inj ho
  · exact ⟨⟨0, g.bnoBlock, owner.fs⟩, by simp, by dsimp only; omega⟩
  · exact ⟨⟨g.bnoBlock, 2, owner.ag⟩, by simp, by dsimp only; omega⟩
  · exact ⟨⟨g.ibtBlock, g.rmapBlock - g.ibtBlock, owner.inobt⟩, by simp, by dsimp only; omega⟩
  · exact ⟨⟨g.rmapBlock, 1, owner.ag⟩, by simp, by dsimp only; omega⟩
  · exact ⟨⟨g.refcBlock, 1, owner.refc⟩, by simp [h5.1], by dsimp only; omega⟩
  · exact ⟨⟨g.logAgbno, g.logblocks, owner.log⟩, by simp [h6.1], by dsimp only; omega⟩

/-- The records cover nothing else. -/
lemma Accepted.initialOwner_none (h : Accepted params dev logical physical g)
    {agno b : ℕ} (ho : g.initialOwner agno b = none) :
    ∀ r ∈ initialRmap g agno, ¬ Holds r b := by
  cases hr : g.features.rmapbt with
  | false => simp [initialRmap, hr]
  | true =>
      obtain ⟨hi1, hi2, hi3, hi4, -⟩ := g.rmap_layout hr
      rw [h.initialRmap_eq agno hr]
      rw [Geometry.initialOwner] at ho
      split_ifs at ho with h1 h2 h3 h4 h5 h6
      rw [List.forall_mem_append, List.forall_mem_append]
      refine ⟨⟨?_, ?_⟩, ?_⟩
      · simp only [List.forall_mem_cons, Holds, RmapRec.first_eq, RmapRec.past_eq]
        exact ⟨by omega, by omega, by omega, by omega, by simp⟩
      · intro r hmem
        cases hf : g.features.reflink with
        | false => simp [hf] at hmem
        | true =>
            obtain rfl : r = ⟨g.refcBlock, 1, owner.refc⟩ := by simpa [hf] using hmem
            have hne : b ≠ g.refcBlock := fun hb => h5 ⟨hf, hb⟩
            simp only [Holds, RmapRec.first_eq, RmapRec.past_eq]
            omega
      · intro r hmem
        by_cases ha : agno = g.logagno
        · obtain rfl : r = ⟨g.logAgbno, g.logblocks, owner.log⟩ := by simpa [ha] using hmem
          simp only [Holds, RmapRec.first_eq, RmapRec.past_eq]
          omega
        · simp [ha] at hmem

/-- **The reverse mappings start with the first blocks and the log**, each covered once, by
its owner. -/
lemma Accepted.initialRmap_owned (h : Accepted params dev logical physical g) (agno : ℕ)
    (p : ℕ → Bool) (b : ℕ) : owned p (initialRmap g agno) b
      = if g.features.rmapbt ∧ (g.initialOwner agno b).any p then 1 else 0 := by
  cases hr : g.features.rmapbt with
  | false =>
      rw [initialRmap, hr]
      simp
  | true =>
      cases ho : g.initialOwner agno b with
      | none =>
          have hnone := h.initialOwner_none ho
          rw [if_neg (by simp), tally_eq_zero]
          exact fun r hmem _ => hnone r hmem
      | some o =>
          obtain ⟨r, hmem, hb, rfl⟩ := h.initialOwner_some hr ho
          rw [owned, (h.initialRmap_runs agno).tally_eq_of_mem hmem hb]
          simp

/-- Where the free blocks start before anything is allocated. -/
def Geometry.freeStart (g : Geometry) (agno : ℕ) : ℕ :=
  if agno = g.logagno then g.logAgbno + g.logblocks else g.preallocBlocks

/-- The free extents before anything is allocated: one, when the log leaves one. -/
def Geometry.firstFree (g : Geometry) (agno length : ℕ) : List AllocRec :=
  if g.freeStart agno < length then [⟨g.freeStart agno, length - g.freeStart agno⟩] else []

lemma Accepted.initialFree_eq (h : Accepted params dev logical physical g) {agno length : ℕ}
    (hn : length < 2 ^ 32) (hp : g.preallocBlocks < length) :
    initialFree g agno length = .ok (g.firstFree agno length) := by
  have hlog := h.log_lt
  have hnone : ¬ g.logAgbno > g.preallocBlocks := by rw [h.logAgbno]; omega
  rw [initialFree, Geometry.firstFree, Geometry.freeStart]
  by_cases ha : agno = g.logagno
  · simp only [if_pos ha, if_neg hnone, List.nil_append]
    rw [toU32_of_lt (by omega), toU32_of_lt (by omega)]
  · simp only [if_neg ha, if_pos hp]
    rw [sub_of_le hp.le, ok_bind, toU32_of_lt (by omega), toU32_of_lt (by omega)]
    rfl

lemma Geometry.firstFree_cover (g : Geometry) (agno length b : ℕ) :
    cover (g.firstFree agno length) b
      = if g.freeStart agno ≤ b ∧ b < length then 1 else 0 := by
  rw [firstFree]
  by_cases h : g.freeStart agno < length
  · rw [if_pos h]
    simp only [cover, tally_cons, tally_nil, AllocRec.first_eq, AllocRec.past_eq, true_and]
    split_ifs <;> omega
  · rw [if_neg h, if_neg (by omega)]
    rfl

/-- Only blocks before the free ones have an owner. -/
lemma Accepted.lt_freeStart (h : Accepted params dev logical physical g)
    (hr : g.features.rmapbt = true) {agno b : ℕ} (ho : g.initialOwner agno b ≠ none) :
    b < g.freeStart agno := by
  obtain ⟨hi1, hi2, hi3, hi4, hi5⟩ := g.rmap_layout hr
  have hp := h.logAgbno
  have hle : g.preallocBlocks ≤ g.freeStart agno := by
    rw [Geometry.freeStart]
    split_ifs <;> omega
  rw [Geometry.initialOwner] at ho
  split_ifs at ho with h1 h2 h3 h4 h5 h6
  · omega
  · omega
  · omega
  · omega
  · rw [h5.1, Bool.toNat_true] at hi5
    omega
  · rw [Geometry.freeStart, if_pos h6.1]
    omega
  · exact absurd rfl ho

/-- The first free extents and reverse mappings share no block. -/
lemma Accepted.initial_disjoint (h : Accepted params dev logical physical g) {agno length : ℕ}
    (hlen : g.freeStart agno ≤ length) :
    Disjoint length (g.firstFree agno length) (initialRmap g agno) := by
  refine ⟨?_, ?_, h.initialRmap_runs agno, ?_, fun b => ?_⟩
  · rw [Geometry.firstFree]
    by_cases hlt : g.freeStart agno < length
    · rw [if_pos hlt]
      refine runs_singleton.mpr ?_
      simp only [AllocRec.first_eq, AllocRec.past_eq]
      omega
    · rw [if_neg hlt]
      exact Runs.nil
  · intro r hmem
    rw [Geometry.firstFree] at hmem
    split_ifs at hmem with hlt
    · rw [List.mem_singleton] at hmem
      subst hmem
      simp only [AllocRec.past_eq]
      omega
    · cases hmem
  · -- the last block of a record has an owner
    intro r hmem
    have hne := (h.initialRmap_runs agno).nonempty r hmem
    by_contra hlt
    have hr : g.features.rmapbt = true := by
      by_contra hr
      rw [initialRmap, if_neg hr] at hmem
      cases hmem
    refine h.initialOwner_none (b := past r - 1) ?_ r hmem ⟨by omega, by omega⟩
    by_contra ho
    have := h.lt_freeStart hr ho
    omega
  · have hcov : cover (initialRmap g agno) b
        = if g.features.rmapbt ∧ (g.initialOwner agno b).any (fun _ => true) then 1 else 0 :=
      h.initialRmap_owned agno (fun _ => true) b
    rw [g.firstFree_cover, hcov]
    by_cases ho : g.features.rmapbt ∧ (g.initialOwner agno b).any (fun _ => true)
    · have hlt := h.lt_freeStart ho.1 (fun hnone => by rw [hnone] at ho; exact absurd ho.2 (by simp))
      rw [if_neg (by omega), if_pos ho]
    · rw [if_neg ho]
      split_ifs <;> omega

end Initial

/-! ### The plan -/

/-- The block belongs to the root inode chunk. -/
def AgPlan.inChunk (g : Geometry) (plan : AgPlan) (b : ℕ) : Bool :=
  plan.chunk.any fun c => c ≤ b ∧ b < c + g.chunkBlocks

/-- What is known of a plan: where every free block of the start went, and who owns every
block mapped. -/
structure Planned (g : Geometry) (plan : AgPlan) : Prop where
  disjoint : Disjoint plan.length plan.free plan.rmap
  agfl_length : plan.agfl.length = g.minFreelist
  chunk : plan.chunk = if plan.agno = 0 then some g.rootChunkAgbno else none
  free : ∀ b, (if g.freeStart plan.agno ≤ b ∧ b < plan.length then 1 else 0)
    = cover plan.free b + plan.agfl.count b + if plan.inChunk g b then 1 else 0
  owned : ∀ p b, owned p plan.rmap b
    = (if g.features.rmapbt ∧ (g.initialOwner plan.agno b).any p then 1 else 0)
      + (if g.features.rmapbt ∧ p owner.ag then plan.agfl.count b else 0)
      + if g.features.rmapbt ∧ p owner.inodes ∧ plan.inChunk g b then 1 else 0

section Plan

variable {params : Params} {dev logical physical : ℕ} {g : Geometry} {agno : ℕ} {plan : AgPlan}

/-- Nothing is picked from nothing. -/
lemma fillFreelist_nil {need fuel : ℕ} {rmapbt : Bool} {rmap : List RmapRec}
    {r : List AllocRec × List ℕ × List RmapRec} (hneed : 0 < need) :
    fillFreelist agno need rmapbt fuel [] [] rmap ≠ .ok r := by
  intro h
  cases fuel with
  | zero => cases h
  | succ fuel =>
      rw [fillFreelist, if_pos (by simpa using hneed)] at h
      cases h

lemma Geometry.minFreelist_pos (g : Geometry) : 0 < g.minFreelist := by
  rw [minFreelist]
  omega

/-- An inode chunk takes at least one block. -/
lemma Accepted.chunkBlocks_pos (h : Accepted params dev logical physical g) :
    0 < g.chunkBlocks := by
  have h1 := h.inodelog_ge
  have h2 := h.blocklog_le
  rw [Geometry.chunkBlocks, inodesPerChunk, h.inodesize, Nat.shiftRight_eq_div_pow]
  refine Nat.div_pos ?_ (Nat.two_pow_pos _)
  calc 2 ^ g.blocklog ≤ 2 ^ (6 + g.inodelog) := Nat.pow_le_pow_right (by norm_num) (by omega)
    _ = 64 * 2 ^ g.inodelog := by rw [pow_add]; norm_num

lemma takeRootChunk_eq_ok {free free' : List AllocRec} : takeRootChunk g free = .ok free' ↔
    take free g.rootChunkAgbno g.chunkBlocks = .ok free' := by
  rw [takeRootChunk]
  cases htake : take free g.rootChunkAgbno g.chunkBlocks with
  | ok r => rfl
  | error e => cases e <;> simp

/-- A plan is the state the loop leaves, in AG 0 less the root inode chunk. -/
lemma planAg_eq_ok : planAg g agno = .ok plan ↔ ∃ length free free' agfl rmap,
    g.agBlocks agno = .ok length ∧ initialFree g agno length = .ok free ∧
    fillFreelist agno g.minFreelist g.features.rmapbt (g.minFreelist + free.length + 1) free []
      (initialRmap g agno) = .ok (free', agfl, rmap) ∧
    if agno = 0 then ∃ free₂ rmap₂, take free' g.rootChunkAgbno g.chunkBlocks = .ok free₂ ∧
        mapBlocks g.features.rmapbt rmap
          ⟨toU32 g.rootChunkAgbno, toU32 g.chunkBlocks, owner.inodes⟩ = .ok rmap₂ ∧
        plan = ⟨agno, length, free₂, agfl, rmap₂, some g.rootChunkAgbno⟩
      else plan = ⟨agno, length, free', agfl, rmap, none⟩ := by
  rw [planAg]
  refine ⟨fun h => ?_, ?_⟩
  · obtain ⟨length, hlen, h⟩ := bind_eq_ok.mp h
    obtain ⟨free, hfree, h⟩ := bind_eq_ok.mp h
    obtain ⟨⟨free', agfl, rmap⟩, hfill, h⟩ := bind_eq_ok.mp h
    refine ⟨length, free, free', agfl, rmap, hlen, hfree, hfill, ?_⟩
    by_cases h0 : agno = 0
    · simp only [if_pos h0] at h ⊢
      obtain ⟨free₂, htake, h⟩ := bind_eq_ok.mp h
      obtain ⟨rmap₂, hmap, h⟩ := bind_eq_ok.mp h
      exact ⟨free₂, rmap₂, takeRootChunk_eq_ok.mp htake, hmap, (Except.ok.inj h).symm⟩
    · simp only [if_neg h0] at h ⊢
      exact (Except.ok.inj h).symm
  · rintro ⟨length, free, free', agfl, rmap, hlen, hfree, hfill, h⟩
    refine bind_eq_ok.mpr ⟨length, hlen, bind_eq_ok.mpr ⟨free, hfree, ?_⟩⟩
    refine bind_eq_ok.mpr ⟨_, hfill, ?_⟩
    by_cases h0 : agno = 0
    · simp only [if_pos h0] at h ⊢
      obtain ⟨free₂, rmap₂, htake, hmap, rfl⟩ := h
      exact bind_eq_ok.mpr ⟨free₂, takeRootChunk_eq_ok.mpr htake,
        bind_eq_ok.mpr ⟨rmap₂, hmap, rfl⟩⟩
    · simp only [if_neg h0] at h ⊢
      rw [h]
      rfl

/-- **What is known of every plan.** -/
theorem Accepted.planned (h : Accepted params dev logical physical g) {length : ℕ}
    (hplan : planAg g agno = .ok plan) (hlen : g.agBlocks agno = .ok length)
    (hlt : length < 2 ^ 32) (hp : g.preallocBlocks < length) :
    plan.agno = agno ∧ plan.length = length ∧ g.freeStart agno < length ∧ Planned g plan := by
  obtain ⟨length', free, free', agfl, rmap, hlen', hfree, hfill, hplan⟩ :=
    planAg_eq_ok.mp hplan
  obtain rfl := Except.ok.inj (hlen.symm.trans hlen')
  obtain rfl := Except.ok.inj (hfree.symm.trans (h.initialFree_eq hlt hp))
  have hstart : g.freeStart agno < length := by
    by_contra hge
    rw [Geometry.firstFree, if_neg hge] at hfill
    exact fillFreelist_nil g.minFreelist_pos hfill
  obtain ⟨hd, hagfl, hcov, hown⟩ := fillFreelist_spec hlt (h.initial_disjoint hstart.le)
    (Nat.zero_le _) hfill
  by_cases h0 : agno = 0
  · rw [if_pos h0] at hplan
    obtain ⟨free₂, rmap₂, htake, hmap, rfl⟩ := hplan
    obtain ⟨hend, hcov₂, rmap₃, hmap', hd₂, hown₂⟩ :=
      allocate_spec g.features.rmapbt owner.inodes hlt hd h.chunkBlocks_pos htake
    rw [toU32_of_lt (by omega), toU32_of_lt (by omega)] at hmap
    obtain rfl := Except.ok.inj (hmap.symm.trans hmap')
    refine ⟨rfl, rfl, hstart, hd₂, hagfl, by rw [if_pos h0], fun b => ?_, fun p b => ?_⟩
    · have h1 := hcov b
      have h2 := hcov₂ b
      rw [g.firstFree_cover, List.count_nil] at h1
      simp only [AgPlan.inChunk, Option.any_some, decide_eq_true_eq]
      omega
    · have h1 := hown p b
      have h2 := hown₂ p b
      rw [h.initialRmap_owned, List.count_nil] at h1
      simp only [AgPlan.inChunk, Option.any_some, decide_eq_true_eq, ite_self] at h1 ⊢
      omega
  · rw [if_neg h0] at hplan
    subst hplan
    refine ⟨rfl, rfl, hstart, hd, hagfl, by rw [if_neg h0], fun b => ?_, fun p b => ?_⟩
    · have h1 := hcov b
      rw [g.firstFree_cover, List.count_nil] at h1
      simpa [AgPlan.inChunk] using h1
    · have h1 := hown p b
      rw [h.initialRmap_owned, List.count_nil] at h1
      simpa [AgPlan.inChunk] using h1

end Plan

end MkfsXfs
