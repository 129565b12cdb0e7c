import MkfsXfs.Format.Head
import MkfsXfs.Format.Partition

/-!
The free blocks a format records.

* `Planned.freeblks_eq`: a plan accounts for every block of its AG after the preallocated
  ones.
* `AgPlan.agf_eq_ok`: the AGF records the counts of its plan in full.
* `Geometry.Counted`, `planAll_counted`: summed over the AGs, the plans leave what the closed
  formula of the secondary superblocks says, less the root inode chunk.
-/

namespace MkfsXfs

open Checked Extents Extents.Extent

/-- Every AG has the blocks the format asks for. -/
def Geometry.AgsMin (g : Geometry) : Prop :=
  ∀ agno < g.agcount, ∃ len, g.agBlocks agno = .ok len ∧ agMinBlocks g.blocklog ≤ len

/-! ### One AG -/

section Ag

variable {params : Params} {dev logical physical : ℕ} {g : Geometry} {plan : AgPlan}

lemma AgPlan.freeblks_eq (plan : AgPlan) :
    (plan.free.map fun r => past r - first r).sum = plan.freeblks := by
  rw [AgPlan.freeblks]
  refine congrArg List.sum (List.map_congr_left fun r _ => ?_)
  rw [AllocRec.past_eq, AllocRec.first_eq, Nat.add_sub_cancel_left]

/-- The blocks of a list, counted. -/
lemma sum_count {n : ℕ} : ∀ {l : List ℕ}, (∀ b ∈ l, b < n) →
    ∑ b ∈ Finset.range n, l.count b = l.length
  | [], _ => by simp
  | a :: l, h => by
      have ih := sum_count fun b hb => h b (List.mem_cons_of_mem a hb)
      have ha : a ∈ Finset.range n := Finset.mem_range.2 (h a List.mem_cons_self)
      simp only [List.count_cons, Finset.sum_add_distrib, ih, beq_iff_eq, Finset.sum_ite_eq,
        ha, if_true, List.length_cons]

/-- The blocks the root inode chunk takes out of an AG. -/
def Geometry.chunkBlocksIn (g : Geometry) (agno : ℕ) : ℕ := if agno = 0 then g.chunkBlocks else 0

/-- The root inode chunk lies in the AG. -/
lemma Planned.chunk_le (h : Accepted params dev logical physical g) (hp : Planned g plan)
    {c : ℕ} (hc : plan.chunk = some c) :
    g.freeStart plan.agno ≤ c ∧ c + g.chunkBlocks ≤ plan.length := by
  have hpos := h.chunkBlocks_pos
  have hin : ∀ b, c ≤ b → b < c + g.chunkBlocks →
      g.freeStart plan.agno ≤ b ∧ b < plan.length := fun b hl hr => by
    have hfree := hp.free b
    have hchunk : plan.inChunk g b = true := by
      rw [AgPlan.inChunk, hc, Option.any_some, decide_eq_true_eq]
      exact ⟨hl, hr⟩
    rw [hchunk, if_pos rfl] at hfree
    by_contra hout
    rw [if_neg hout] at hfree
    omega
  have hfirst := hin c le_rfl (by omega)
  have hlast := hin (c + g.chunkBlocks - 1) (by omega) (by omega)
  omega

/-- **A plan accounts for every block** after the preallocated ones and the log. -/
lemma Planned.freeblks_eq (h : Accepted params dev logical physical g) (hp : Planned g plan) :
    plan.freeblks + plan.agfl.length + g.chunkBlocksIn plan.agno
      = plan.length - g.freeStart plan.agno := by
  have hfree : ∑ b ∈ Finset.range plan.length, cover plan.free b = plan.freeblks := by
    rw [sum_cover hp.disjoint.free_within, plan.freeblks_eq]
  have hagfl : ∑ b ∈ Finset.range plan.length, plan.agfl.count b = plan.agfl.length := by
    refine sum_count fun b hb => ?_
    have hcount := List.count_pos_iff.2 hb
    have hblock := hp.free b
    by_contra hout
    rw [if_neg (by omega)] at hblock
    omega
  have hchunk : ∑ b ∈ Finset.range plan.length, (if plan.inChunk g b then 1 else 0)
      = g.chunkBlocksIn plan.agno := by
    rcases hc : plan.chunk with - | c
    · have hagno := hp.chunk
      rw [hc] at hagno
      rw [Geometry.chunkBlocksIn, if_neg fun h0 => by rw [if_pos h0] at hagno; cases hagno]
      refine Finset.sum_eq_zero fun b _ => ?_
      rw [AgPlan.inChunk, hc, Option.any_none, if_neg Bool.false_ne_true]
    · have hagno := hp.chunk
      rw [hc] at hagno
      have h0 : plan.agno = 0 := by
        by_contra hne
        rw [if_neg hne] at hagno
        cases hagno
      have hle := (hp.chunk_le h hc).2
      rw [Geometry.chunkBlocksIn, if_pos h0]
      calc ∑ b ∈ Finset.range plan.length, (if plan.inChunk g b then 1 else 0)
          = ∑ b ∈ Finset.range plan.length, (if c ≤ b ∧ b < c + g.chunkBlocks then 1 else 0) := by
            refine Finset.sum_congr rfl fun b _ => ?_
            simp only [AgPlan.inChunk, hc, Option.any_some, decide_eq_true_eq]
        _ = g.chunkBlocks := by rw [sum_interval hle, Nat.add_sub_cancel_left]
  calc plan.freeblks + plan.agfl.length + g.chunkBlocksIn plan.agno
      = ∑ b ∈ Finset.range plan.length,
          (cover plan.free b + plan.agfl.count b + if plan.inChunk g b then 1 else 0) := by
        rw [Finset.sum_add_distrib, Finset.sum_add_distrib, hfree, hagfl, hchunk]
    _ = ∑ b ∈ Finset.range plan.length,
          (if g.freeStart plan.agno ≤ b ∧ b < plan.length then 1 else 0) :=
        Finset.sum_congr rfl fun b _ => (hp.free b).symm
    _ = plan.length - g.freeStart plan.agno := sum_interval le_rfl

/-- The longest free extent is among the free ones. -/
lemma AgPlan.longest_le (plan : AgPlan) : plan.longest ≤ plan.freeblks := by
  rw [AgPlan.longest, AgPlan.freeblks]
  cases hmax : (plan.free.map fun r => r.count).max? with
  | none => exact Nat.zero_le _
  | some m => exact List.single_le_sum (fun _ _ => Nat.zero_le _) m (List.max?_mem hmax)

/-- The free list of a plan is one of four or six blocks. -/
lemma Geometry.minFreelist_le (g : Geometry) : g.minFreelist ≤ 6 := by
  rw [minFreelist]
  split_ifs <;> omega

/-- The slots of the free list: a sector less its header. -/
lemma Accepted.agflSize_eq (h : Accepted params dev logical physical g) :
    g.agflSize = .ok ((g.sectsize - agflHeader) / 4) ∧ 119 ≤ (g.sectsize - agflHeader) / 4 := by
  have hsect := h.sectsize_ge
  rw [Geometry.agflSize, agflHeader, sub_of_le (by omega), ok_bind]
  exact ⟨rfl, by omega⟩

/-- The counts in the AGF are those of the plan, in full. -/
structure AgPlan.Recorded (plan : AgPlan) (g : Geometry) (agf : Agf) : Prop where
  agf_eq : plan.agf g = .ok agf
  freeblks : agf.freeblks = plan.freeblks
  longest : agf.longest = plan.longest
  flcount : agf.flcount = plan.agfl.length

/-- **The AGF records the counts of its plan.** -/
lemma Planned.recorded (h : Accepted params dev logical physical g) (hp : Planned g plan)
    (hlen : plan.length < 2 ^ 32) : ∃ agf, plan.Recorded g agf := by
  obtain ⟨hsize, hslots⟩ := h.agflSize_eq
  have hfree := hp.freeblks_eq h
  have hlong := plan.longest_le
  have hfl := hp.agfl_length
  have hneed := g.minFreelist_le
  have hagf : ∃ agf, plan.agf g = .ok agf ∧ agf.freeblks = toU32 plan.freeblks ∧
      agf.longest = toU32 plan.longest ∧ agf.flcount = toU32 plan.agfl.length := by
    rw [AgPlan.agf, hsize, ok_bind, mod_of_pos (by omega), ok_bind]
    exact ⟨_, rfl, rfl, rfl, rfl⟩
  obtain ⟨agf, hok, h1, h2, h3⟩ := hagf
  refine ⟨agf, hok, ?_, ?_, ?_⟩
  · rw [h1, toU32_of_lt (by omega)]
  · rw [h2, toU32_of_lt (by omega)]
  · rw [h3, toU32_of_lt (by omega)]

end Ag

/-! ### How many records -/

section Records

variable {free free' : List AllocRec} {rmap rmap' : List RmapRec} {agfl agfl' : List ℕ}

/-- Taking blocks out of an extent leaves two at most. -/
lemma length_take_le {start len : ℕ} (h : take free start len = .ok free') :
    free'.length ≤ free.length + 1 := by
  rw [take] at h
  cases hidx : free.findIdx? (fun r => r.start ≤ start ∧ start + len ≤ r.start + r.count) with
  | none =>
      rw [hidx] at h
      cases h
  | some i =>
      simp only [hidx] at h
      cases hr : free[i]? with
      | none =>
          rw [hr] at h
          cases h
      | some r =>
          rw [hr] at h
          obtain ⟨hi, -⟩ := List.getElem?_eq_some_iff.mp hr
          rw [← Except.ok.inj h]
          simp only [List.length_append, List.length_take, List.length_drop,
            List.length_eraseIdx, if_pos hi]
          split_ifs <;> simp only [List.length_cons, List.length_nil] <;> omega

/-- A reverse mapping put in is one more at most. -/
lemma length_rmapInsert_le {rec : RmapRec} (h : rmapInsert rmap rec = .ok rmap') :
    rmap'.length ≤ rmap.length + 1 := by
  rw [rmapInsert] at h
  obtain ⟨left, -, h⟩ := bind_eq_ok.mp h
  obtain ⟨right, -, h⟩ := bind_eq_ok.mp h
  rcases left with - | l <;> rcases right with - | r
  · rw [← Except.ok.inj h, List.length_insertIdx]
    split_ifs <;> omega
  · obtain ⟨-, h⟩ := fit_bind_eq_ok.mp h
    rw [← Except.ok.inj h, List.length_set]
    omega
  · obtain ⟨-, h⟩ := fit_bind_eq_ok.mp h
    rw [← Except.ok.inj h, List.length_set]
    omega
  · obtain ⟨-, h⟩ := fit_bind_eq_ok.mp h
    obtain ⟨-, h⟩ := fit_bind_eq_ok.mp h
    rw [← Except.ok.inj h, List.length_eraseIdx, List.length_set]
    split_ifs <;> omega

lemma length_mapBlocks_le {rmapbt : Bool} {rec : RmapRec}
    (h : mapBlocks rmapbt rmap rec = .ok rmap') : rmap'.length ≤ rmap.length + 1 := by
  rw [mapBlocks] at h
  split_ifs at h
  · exact length_rmapInsert_le h
  · rw [← Except.ok.inj h]
    omega

/-- Every round of the loop puts a block on the free list, and adds one record of each kind
at most. -/
lemma length_fillFreelist_le {n agno need : ℕ} {rmapbt : Bool} (hn : n < 2 ^ 32) :
    ∀ {fuel : ℕ} {free : List AllocRec} {agfl : List ℕ} {rmap : List RmapRec},
      Disjoint n free rmap →
      fillFreelist agno need rmapbt fuel free agfl rmap = .ok (free', agfl', rmap') →
      free'.length + agfl.length ≤ free.length + agfl'.length ∧
        rmap'.length + agfl.length ≤ rmap.length + agfl'.length
  | 0, _, _, _, _, h => by cases h
  | fuel + 1, free, agfl, rmap, hd, h => by
      rw [fillFreelist] at h
      by_cases hmore : agfl.length < need
      · rw [if_pos hmore] at h
        cases hpick : pickExtent free (need - agfl.length) with
        | none =>
            rw [hpick] at h
            cases h
        | some r =>
            rw [hpick] at h
            obtain ⟨free₁, htake, h⟩ := bind_eq_ok.mp h
            obtain ⟨rmap₁, hmap, h⟩ := bind_eq_ok.mp h
            have hr := hd.free_runs.nonempty r (pickExtent_mem hpick)
            rw [AllocRec.first_eq, AllocRec.past_eq] at hr
            obtain ⟨hend, -, rmap₂, hmap₂, hd₁, -⟩ :=
              allocate_spec rmapbt owner.ag hn hd (by omega) htake
            have hmap' := hmap
            rw [toU32_of_lt (by omega)] at hmap'
            obtain rfl : rmap₂ = rmap₁ := Except.ok.inj (hmap₂.symm.trans hmap')
            have ih := length_fillFreelist_le hn hd₁ h
            have hfree := length_take_le htake
            have hrmap := length_mapBlocks_le hmap
            rw [List.length_append, List.length_map, List.length_range] at ih
            omega
      · rw [if_neg hmore] at h
        simp only [Except.ok.injEq, Prod.mk.injEq] at h
        obtain ⟨rfl, rfl, rfl⟩ := h
        exact ⟨le_rfl, le_rfl⟩

end Records

section Sizes

variable {params : Params} {dev logical physical : ℕ} {g : Geometry} {agno length : ℕ}
  {plan : AgPlan}

/-- A plan has few records, which fit one block. -/
lemma Accepted.plan_lengths (h : Accepted params dev logical physical g)
    (hplan : planAg g agno = .ok plan) (hlen : g.agBlocks agno = .ok length)
    (hlt : length < 2 ^ 32) (hp : g.preallocBlocks < length) :
    plan.free.length ≤ 8 ∧ plan.rmap.length ≤ 13 := by
  obtain ⟨length', free, free', agfl, rmap, hlen', hfree, hfill, hplan⟩ :=
    planAg_eq_ok.mp hplan
  obtain rfl := Except.ok.inj (hlen.symm.trans hlen')
  obtain rfl := Except.ok.inj (hfree.symm.trans (h.initialFree_eq hlt hp))
  have hstart : g.freeStart agno < length := by
    by_contra hge
    rw [Geometry.firstFree, if_neg hge] at hfill
    exact fillFreelist_nil g.minFreelist_pos hfill
  have hd := h.initial_disjoint hstart.le
  have hsizes := length_fillFreelist_le hlt hd hfill
  have hagfl := (fillFreelist_spec hlt hd (Nat.zero_le _) hfill).2.1
  have hneed := g.minFreelist_le
  have hfirst : (g.firstFree agno length).length ≤ 1 := by
    rw [Geometry.firstFree, if_pos hstart]
    simp
  have hinitial : (initialRmap g agno).length ≤ 6 := by
    rw [initialRmap, staticRmap]
    split_ifs <;> simp
  rw [List.length_nil] at hsizes
  by_cases h0 : agno = 0
  · rw [if_pos h0] at hplan
    obtain ⟨free₂, rmap₂, htake, hmap, rfl⟩ := hplan
    have hfree₂ := length_take_le htake
    have hrmap₂ := length_mapBlocks_le hmap
    show free₂.length ≤ 8 ∧ rmap₂.length ≤ 13
    omega
  · rw [if_neg h0] at hplan
    subst hplan
    show free'.length ≤ 8 ∧ rmap.length ≤ 13
    omega

/-- The free extents of a plan fit their fields. -/
lemma Planned.free_lt (hp : Planned g plan) (hlen : plan.length < 2 ^ 32) {r : AllocRec}
    (hr : r ∈ plan.free) : r.start < 2 ^ 32 ∧ r.count < 2 ^ 32 := by
  have hle := hp.disjoint.free_within r hr
  rw [AllocRec.past_eq] at hle
  omega

/-- The reverse mappings of a plan fit their fields. -/
lemma Planned.rmap_lt (hp : Planned g plan) (hlen : plan.length < 2 ^ 32) {r : RmapRec}
    (hr : r ∈ plan.rmap) : r.start < 2 ^ 32 ∧ r.count < 2 ^ 32 ∧ r.owner < 2 ^ 64 := by
  have hle := hp.disjoint.rmap_within r hr
  have hne := hp.disjoint.rmap_runs.nonempty r hr
  rw [RmapRec.past_eq] at hle
  refine ⟨by omega, by omega, ?_⟩
  -- no record has an owner past 64 bits, since the owners are known
  by_contra hbig
  have hinit : ∀ agno b, (g.initialOwner agno b).any (fun o => decide (2 ^ 64 ≤ o)) = false := by
    intro agno b
    rw [Geometry.initialOwner]
    split_ifs <;> rfl
  have hag : decide (2 ^ 64 ≤ owner.ag) = false := rfl
  have hinodes : decide (2 ^ 64 ≤ owner.inodes) = false := rfl
  have hnone := hp.owned (fun o => decide (2 ^ 64 ≤ o)) r.start
  simp only [hinit, hag, hinodes, Bool.false_eq_true, and_false, false_and, if_false,
    Nat.add_zero] at hnone
  exact tally_eq_zero.mp hnone r hr (decide_eq_true (Nat.not_lt.mp hbig)) ⟨le_rfl, hne⟩

end Sizes

/-! ### All AGs -/

/-- What the superblocks and the AGFs record of the free blocks: the formula of the secondary
superblocks, of which the plans leave all but the root inode chunk. -/
structure Geometry.Counted (g : Geometry) (plans : List AgPlan) : Prop where
  initial : g.initialFdblocks = .ok (g.dblocks - g.agcount * g.preallocBlocks - g.logblocks)
  /-- nothing goes below zero -/
  room : g.agcount * g.preallocBlocks + g.logblocks + g.chunkBlocks ≤ g.dblocks
  fdblocks : AgPlan.fdblocks plans
    = g.dblocks - g.agcount * g.preallocBlocks - g.logblocks - g.chunkBlocks
  agfs : ∀ plan ∈ plans, ∃ agf, plan.Recorded g agf

section All

variable {params : Params} {dev logical physical : ℕ} {g : Geometry} {plans : List AgPlan}

/-- Results that add up element by element add up as lists. -/
lemma sum_forall₂ {α β : Type*} {R : α → β → Prop} (val : β → ℕ) (x y : α → ℕ) {l : List α}
    {r : List β} (h : List.Forall₂ R l r) (hR : ∀ a ∈ l, ∀ b, R a b → val b + x a = y a) :
    (r.map val).sum + (l.map x).sum = (l.map y).sum := by
  induction h with
  | nil => rfl
  | @cons a b l r hab _ ih =>
      have hhead := hR a List.mem_cons_self b hab
      have htail := ih fun a' ha' => hR a' (List.mem_cons_of_mem a ha')
      simp only [List.map_cons, List.sum_cons]
      omega

/-- AGs of the least size or more cover the filesystem. -/
lemma Accepted.covered_of_min (h : Accepted params dev logical physical g) (hdev : dev < 2 ^ 64)
    (hmin : g.AgsMin) : g.Covered := by
  have hn := h.agcount_ge
  have hpos := agMinBlocks_ge h.blocklog_le
  obtain ⟨len, hlen, hge⟩ := hmin (g.agcount - 1) (by omega)
  have hd : g.dblocks < 2 ^ 64 := by
    have h1 := h.dblocks_le
    have h2 := h.asked_lt hdev
    rw [h.askedBlocks_eq] at h2
    omega
  obtain ⟨hle, rfl⟩ := (Geometry.agBlocks_last_eq_ok (by omega) hd).mp hlen
  rw [Geometry.Covered]
  omega

/-- The plan of an AG of the least size or more. -/
structure AgPlan.Of (plan : AgPlan) (g : Geometry) (agno : ℕ) : Prop where
  agno_eq : plan.agno = agno
  blocks : g.agBlocks agno = .ok plan.length
  start : g.freeStart agno < plan.length
  length_lt : plan.length < 2 ^ 32
  planned : Planned g plan

/-- What is known of the plan of an AG of the least size or more. -/
lemma Accepted.plan_of_len (h : Accepted params dev logical physical g) (hdev : dev < 2 ^ 64)
    {agno len : ℕ} {plan : AgPlan} (hag : agno < g.agcount) (hlen : g.agBlocks agno = .ok len)
    (hge : agMinBlocks g.blocklog ≤ len) (hplan : planAg g agno = .ok plan) :
    plan.Of g agno := by
  have hle := h.agBlocks_le hdev hag hlen
  have hs := h.agsize_lt
  obtain ⟨hno, hl, hstart, hp⟩ := h.planned_of_min hdev hag hlen hge hplan
  rw [← hl] at hlen hstart hle
  exact ⟨hno, hlen, hstart, by omega, hp⟩

/-- What is known of the plan of one AG. -/
lemma Accepted.plan_of (h : Accepted params dev logical physical g) (hdev : dev < 2 ^ 64)
    (hmin : g.AgsMin) {agno : ℕ} {plan : AgPlan} (hag : agno < g.agcount)
    (hplan : planAg g agno = .ok plan) : plan.Of g agno := by
  obtain ⟨len, hlen, hge⟩ := hmin agno hag
  exact h.plan_of_len hdev hag hlen hge hplan

/-- What is known of the plan of AG 0, which is never the last. -/
lemma Accepted.plan_zero (h : Accepted params dev logical physical g) (hdev : dev < 2 ^ 64)
    {plan : AgPlan} (hplan : planAg g 0 = .ok plan) : plan.Of g 0 ∧ plan.length = g.agsize := by
  have hn := h.agcount_ge
  have hlen : g.agBlocks 0 = .ok g.agsize := Geometry.agBlocks_of_lt (by omega)
  have hp := h.plan_of_len hdev (by omega) hlen h.agsize_min hplan
  exact ⟨hp, Except.ok.inj (hp.blocks.symm.trans hlen)⟩

/-- What is known of each of the plans. -/
lemma Accepted.planned_all (h : Accepted params dev logical physical g) (hdev : dev < 2 ^ 64)
    (hmin : g.AgsMin) (hplans : planAll g = .ok plans) :
    List.Forall₂ (fun agno plan => plan.Of g agno) (List.range g.agcount) plans := by
  have hmem : ∀ agno ∈ List.range g.agcount, agno < g.agcount := fun agno => List.mem_range.mp
  have hall := mapM_eq_ok_iff.mp hplans
  exact ((List.forall₂_and_left _ _).mpr ⟨hmem, hall⟩).imp fun agno plan hplan =>
    h.plan_of hdev hmin hplan.1 hplan.2

/-- The plan at a place in the list is the plan of that AG. -/
lemma Accepted.planned_at (h : Accepted params dev logical physical g) (hdev : dev < 2 ^ 64)
    (hmin : g.AgsMin) (hplans : planAll g = .ok plans) :
    plans.length = g.agcount ∧ ∀ (agno : ℕ) (plan : AgPlan), plans[agno]? = some plan →
      plan.Of g agno := by
  obtain ⟨hlen, hget⟩ := List.forall₂_iff_get.mp (h.planned_all hdev hmin hplans)
  rw [List.length_range] at hlen
  refine ⟨hlen.symm, fun agno plan hplan => ?_⟩
  obtain ⟨hlt, rfl⟩ := List.getElem?_eq_some_iff.mp hplan
  simpa using hget agno (by rw [List.length_range]; omega) hlt

/-- The AG lengths add up to the data blocks, the blocks before the free ones to the
preallocated ones and the log. -/
lemma Accepted.sum_blocks (h : Accepted params dev logical physical g) (hdev : dev < 2 ^ 64)
    (hc : g.Covered) : ∃ len : ℕ → ℕ, (∀ agno < g.agcount, g.agBlocks agno = .ok (len agno)) ∧
      ((List.range g.agcount).map len).sum = g.dblocks := by
  obtain ⟨lens, hlens, hsum⟩ := ((h.tiles_iff hdev).mpr hc).sum
  refine ⟨_, fun agno hag => h.agBlocks_eq hdev hc hag, ?_⟩
  have hmap := mapM_eq_ok fun agno hag => h.agBlocks_eq hdev hc (List.mem_range.mp hag)
  rw [← Except.ok.inj (hlens.symm.trans hmap), hsum]

/-- A sum over the AGs of what one of them has more. -/
lemma sum_range_single {n k a : ℕ} (hk : k < n) (c : ℕ) :
    ((List.range n).map fun i => c + if i = k then a else 0).sum = n * c + a := by
  calc ((List.range n).map fun i => c + if i = k then a else 0).sum
      = ∑ i ∈ Finset.range n, (c + if i = k then a else 0) := rfl
    _ = n * c + a := by
      rw [Finset.sum_add_distrib, Finset.sum_const, Finset.card_range, smul_eq_mul,
        Finset.sum_ite_eq' (Finset.range n) k, if_pos (Finset.mem_range.mpr hk)]

/-- **The plans leave what the closed formula says**, less the root inode chunk. -/
lemma Accepted.counted (h : Accepted params dev logical physical g) (hdev : dev < 2 ^ 64)
    (hmin : g.AgsMin) (hplans : planAll g = .ok plans) : g.Counted plans := by
  have hn := h.agcount_ge
  have hlogag := h.logagno
  have hall := h.planned_all hdev hmin hplans
  obtain ⟨len, hlen, hsum⟩ := h.sum_blocks hdev (h.covered_of_min hdev hmin)
  have hstart : ∀ agno, g.freeStart agno
      = g.preallocBlocks + if agno = g.logagno then g.logblocks else 0 := fun agno => by
    rw [Geometry.freeStart, h.logAgbno]
    split_ifs <;> omega
  -- each AG: what is free, the chunk and what comes before them make up the length
  have htotal : AgPlan.fdblocks plans + ((List.range g.agcount).map fun agno =>
      g.freeStart agno + g.chunkBlocksIn agno).sum = g.dblocks := by
    rw [← hsum]
    refine sum_forall₂ _ _ _ hall fun agno hag plan hof => ?_
    have hl := Except.ok.inj (hof.blocks.symm.trans (hlen agno (List.mem_range.mp hag)))
    have hfree := hof.planned.freeblks_eq h
    have hlt := hof.start
    rw [hof.agno_eq] at hfree
    omega
  have hused : ((List.range g.agcount).map fun agno =>
      g.freeStart agno + g.chunkBlocksIn agno).sum
        = g.agcount * g.preallocBlocks + g.logblocks + g.chunkBlocks := by
    have hlog := sum_range_single (by omega : g.logagno < g.agcount) g.preallocBlocks
      (a := g.logblocks)
    have hchunk := sum_range_single (by omega : 0 < g.agcount) 0 (a := g.chunkBlocks)
    simp only [hstart, Geometry.chunkBlocksIn, List.sum_map_add]
    simp only [List.sum_map_add, Nat.zero_add] at hlog hchunk
    omega
  have hd : g.dblocks < 2 ^ 64 := by
    have h1 := h.dblocks_le
    have h2 := h.asked_lt hdev
    rw [h.askedBlocks_eq] at h2
    omega
  refine ⟨?_, by omega, by omega, fun plan hplan => ?_⟩
  · rw [Geometry.initialFdblocks, fit_of_lt (by omega), ok_bind, sub_of_le (by omega), ok_bind,
      sub_of_le (by omega)]
  · obtain ⟨agno, hat⟩ := List.getElem?_of_mem hplan
    have hof := (h.planned_at hdev hmin hplans).2 agno plan hat
    exact hof.planned.recorded h hof.length_lt

end All

/-- **The free blocks a format records are those its plans leave**: the count of the primary
superblock, summed over the plans, is the formula of the secondary ones less the root inode
chunk, and the AGFs record the counts of their plans in full. -/
theorem planAll_counted (params : Params) (dev : UInt64) (logical physical : UInt32)
    (g : Geometry) (plans : List AgPlan)
    (hg : Geometry.compute params dev logical physical = .ok g) (hmin : g.AgsMin)
    (hplans : planAll g = .ok plans) : g.Counted plans :=
  (compute_eq_ok.mp hg).counted dev.toNat_lt hmin hplans

/-! ### 512 MiB -/

/-- The plans of 512 MiB. -/
def plans512m : List AgPlan :=
  [plan512m,
    { agno := 1, length := 32768, free := [⟨13, 32755⟩], agfl := [7, 8, 9, 10, 11, 12],
      rmap := [⟨0, 1, owner.fs⟩, ⟨1, 2, owner.ag⟩, ⟨3, 2, owner.inobt⟩, ⟨5, 1, owner.ag⟩,
        ⟨6, 1, owner.refc⟩, ⟨7, 6, owner.ag⟩],
      chunk := none },
    { agno := 2, length := 32768, free := [⟨16397, 16371⟩],
      agfl := [16391, 16392, 16393, 16394, 16395, 16396],
      rmap := [⟨0, 1, owner.fs⟩, ⟨1, 2, owner.ag⟩, ⟨3, 2, owner.inobt⟩, ⟨5, 1, owner.ag⟩,
        ⟨6, 1, owner.refc⟩, ⟨7, 16384, owner.log⟩, ⟨16391, 6, owner.ag⟩],
      chunk := none },
    { agno := 3, length := 32768, free := [⟨13, 32755⟩], agfl := [7, 8, 9, 10, 11, 12],
      rmap := [⟨0, 1, owner.fs⟩, ⟨1, 2, owner.ag⟩, ⟨3, 2, owner.inobt⟩, ⟨5, 1, owner.ag⟩,
        ⟨6, 1, owner.refc⟩, ⟨7, 6, owner.ag⟩],
      chunk := none }]

lemma planAll_geo512m : planAll geo512m = .ok plans512m := rfl

lemma agsMin_geo512m : geo512m.AgsMin := by
  intro agno hag
  have hlt : agno < 4 := hag
  interval_cases agno
  all_goals exact ⟨32768, rfl, by decide⟩

/-- The counts of 512 MiB. -/
theorem planAll_counted_512m : geo512m.Counted plans512m :=
  planAll_counted {} 536870912 512 512 geo512m plans512m compute_geo512m agsMin_geo512m
    planAll_geo512m

end MkfsXfs
