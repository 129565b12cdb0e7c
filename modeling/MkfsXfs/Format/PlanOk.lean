import MkfsXfs.Format.Partition

/-!
When planning succeeds.

* `Accepted.planAg_isOk_iff`: an AG can be planned exactly when its free list fits behind
  the preallocated blocks and, in its AG, the log.
* `Params.FreelistFits`: the parameters under which it does in every AG
  (`compute_planAg_iff`).
* `compute_default`: what is computed and planned when nothing but the block size is asked
  for.
-/

namespace MkfsXfs

open Checked Extents Extents.Extent

/-! ### Planning one AG -/

/-- Only one extent can be picked from one. -/
lemma pickExtent_singleton (r : AllocRec) (want : ℕ) : pickExtent [r] want = some r := by
  rw [pickExtent]
  by_cases h : want ≤ r.count
  · rw [List.filter_cons_of_pos (by simpa using h), List.filter_nil, List.argmin_singleton]
    rfl
  · rw [List.filter_cons_of_neg (by simpa using h), List.filter_nil, List.argmin_nil,
      List.argmax_singleton]
    rfl

/-- One extent that holds the whole free list fills it in one round. -/
lemma fillFreelist_single {agno need n fuel s c : ℕ} {rmapbt : Bool} {rmap : List RmapRec}
    (hn : n < 2 ^ 32) (hd : Disjoint n [⟨s, c⟩] rmap) (h0 : 0 < need) (hc : need ≤ c) :
    ∃ agfl rmap', fillFreelist agno need rmapbt (fuel + 2) [⟨s, c⟩] [] rmap
      = .ok ((⟨s, c⟩ : AllocRec).after (s + need), agfl, rmap') := by
  have hw : Within (2 ^ 32 - 1) [(⟨s, c⟩ : AllocRec)] := fun a ha =>
    (hd.free_within a ha).trans (by omega)
  have hbefore : (⟨s, c⟩ : AllocRec).before s = [] := if_neg (by simp)
  have htake : take [⟨s, c⟩] s need = .ok ((⟨s, c⟩ : AllocRec).after (s + need)) := by
    refine (take_eq_ok hw).mpr ⟨[], ⟨s, c⟩, [], rfl, le_refl _, ?_, by simp, ?_⟩
    · exact Nat.add_le_add_left hc s
    · rw [hbefore, List.nil_append, List.nil_append, List.append_nil]
  obtain ⟨hend, -, rmap', hmap, -, -⟩ := allocate_spec rmapbt owner.ag hn hd h0 htake
  refine ⟨[] ++ (List.range need).map (s + ·), rmap', ?_⟩
  rw [fillFreelist, if_pos (by simpa using h0), pickExtent_singleton]
  simp only [List.length_nil, Nat.sub_zero, min_eq_left hc, htake, ok_bind,
    toU32_of_lt (show need < 2 ^ 32 by omega), hmap]
  rw [fillFreelist, if_neg (by simp)]

/-- Without free extents a list that is not full cannot be filled. -/
lemma fillFreelist_none {agno need fuel : ℕ} {rmapbt : Bool} {agfl : List ℕ}
    {rmap : List RmapRec} (h : agfl.length < need) :
    fillFreelist agno need rmapbt (fuel + 1) [] agfl rmap
      = .error (.error (.invalidParams s!"AG {agno} has no space for its free list")) := by
  rw [fillFreelist, if_pos h]
  rfl

/-- One extent that is too short is used up, and the free list is not full. -/
lemma fillFreelist_short {agno need n fuel s c : ℕ} {rmapbt : Bool} {rmap : List RmapRec}
    (hn : n < 2 ^ 32) (hd : Disjoint n [⟨s, c⟩] rmap) (h0 : 0 < c) (hc : c < need) :
    fillFreelist agno need rmapbt (fuel + 2) [⟨s, c⟩] [] rmap
      = .error (.error (.invalidParams s!"AG {agno} has no space for its free list")) := by
  have hend : s + c ≤ n := hd.free_within _ List.mem_cons_self
  have hw : Within (2 ^ 32 - 1) [(⟨s, c⟩ : AllocRec)] := fun a ha =>
    (hd.free_within a ha).trans (by omega)
  have htake : take [⟨s, c⟩] s c = .ok [] := by
    refine (take_eq_ok hw).mpr ⟨[], ⟨s, c⟩, [], rfl, le_refl _, le_refl _, ?_⟩
    have hbefore : (⟨s, c⟩ : AllocRec).before s = [] := if_neg (by simp)
    have hafter : (⟨s, c⟩ : AllocRec).after (s + c) = [] := if_neg (by simp)
    simp [hbefore, hafter]
  obtain ⟨-, -, rmap', hmap, -, -⟩ := allocate_spec rmapbt owner.ag hn hd h0 htake
  rw [fillFreelist, if_pos (by simp; omega), pickExtent_singleton]
  simp only [List.length_nil, Nat.sub_zero, min_eq_right hc.le, htake, ok_bind,
    toU32_of_lt (show c < 2 ^ 32 by omega), hmap]
  exact fillFreelist_none (by simpa using hc)

/-- Distinct blocks of an interval are at most as many as the interval has. -/
lemma length_le_of_nodup {l : List ℕ} {s e : ℕ} (hl : l.Nodup) (h : ∀ b ∈ l, s ≤ b ∧ b < e) :
    l.length ≤ e - s := by
  rw [← List.toFinset_card_of_nodup hl, ← Nat.card_Ico]
  refine Finset.card_le_card fun b hb => ?_
  exact Finset.mem_Ico.mpr (h b (List.mem_toFinset.mp hb))

section PlanOne

variable {params : Params} {dev logical physical : ℕ} {g : Geometry} {agno length : ℕ}
  {plan : AgPlan}

/-- An AG without room for the preallocated blocks is not planned. -/
lemma Accepted.not_planAg_of_lt (h : Accepted params dev logical physical g)
    (hlen : g.agBlocks agno = .ok length) (hlt : length < g.preallocBlocks) :
    planAg g agno ≠ .ok plan := by
  intro hplan
  obtain ⟨length', free, free', agfl, rmap, hlen', hfree, hfill, -⟩ := planAg_eq_ok.mp hplan
  obtain rfl := Except.ok.inj (hlen.symm.trans hlen')
  have hp := h.logAgbno
  rw [initialFree] at hfree
  by_cases ha : agno = g.logagno
  · simp only [if_pos ha] at hfree
    rw [if_neg (by omega), if_neg (by omega)] at hfree
    obtain rfl := Except.ok.inj hfree
    exact fillFreelist_nil g.minFreelist_pos hfill
  · simp only [if_neg ha] at hfree
    rw [sub_of_lt hlt] at hfree
    cases hfree

/-- A planned free list lies in the free blocks of the start. -/
lemma Planned.freelist_le (hp : Planned g plan) :
    g.minFreelist ≤ plan.length - g.freeStart plan.agno := by
  have hle : ∀ b, plan.agfl.count b
      ≤ if g.freeStart plan.agno ≤ b ∧ b < plan.length then 1 else 0 := by
    intro b
    have hfree := hp.free b
    omega
  rw [← hp.agfl_length]
  refine length_le_of_nodup (List.nodup_iff_count_le_one.mpr fun b => ?_) fun b hb => ?_
  · have h1 := hle b
    split_ifs at h1 <;> omega
  · have h1 := hle b
    have h2 := List.count_pos_iff.mpr hb
    by_contra hout
    rw [if_neg hout] at h1
    omega

lemma roundup_bounds {n m : ℕ} (hm : 0 < m) : n ≤ roundup n m ∧ roundup n m < n + m := by
  refine ⟨le_divCeil_mul hm, ?_⟩
  have h := Nat.div_mul_le_self (n + m - 1) m
  rw [roundup, divCeil]
  omega

/-- The root inode chunk lies within the first 80 blocks of its AG. -/
lemma Accepted.rootChunk_bounds (h : Accepted params dev logical physical g) :
    g.preallocBlocks + g.minFreelist ≤ g.rootChunkAgbno ∧
      g.rootChunkAgbno + g.chunkBlocks ≤ 80 := by
  have hn := h.agcount_ge
  have hp := h.preallocBlocks_bounds
  have hf : g.minFreelist ≤ 6 := by
    rw [Geometry.minFreelist]
    split_ifs <;> omega
  have hshift := inodes_shiftRight_le h.inodelog_lt
  have hchunk : g.chunkBlocks ≤ 32 := by
    rw [Geometry.chunkBlocks, inodesPerChunk, h.inodesize]
    exact hshift
  have halign : g.inoalignmt ≤ 32 := by
    rw [Geometry.inoalignmt]
    split_ifs with hs
    · exact hchunk
    · refine le_trans ?_ hshift
      rw [Geometry.clusterAlign, inodeBigClusterSize, dinodeMinSize, h.inodesize,
        Nat.shiftRight_eq_div_pow, Nat.shiftRight_eq_div_pow]
      exact Nat.div_le_div_right (by omega)
  rw [g.rootChunkAgbno_eq (by rw [h.logagno]; omega)]
  split_ifs with hal
  · obtain ⟨h1, h2⟩ := roundup_bounds (n := g.preallocBlocks + g.minFreelist)
      (m := g.inoalignmt) (by omega)
    omega
  · omega

/-- **An AG can be planned exactly when its free list fits.** -/
theorem Accepted.planAg_isOk_iff (h : Accepted params dev logical physical g)
    (hlen : g.agBlocks agno = .ok length) (hn : length < 2 ^ 32) (hmin : 1024 ≤ length) :
    (∃ plan, planAg g agno = .ok plan) ↔ g.freeStart agno + g.minFreelist ≤ length := by
  have hp := h.preallocBlocks_bounds
  refine ⟨?_, fun hfit => ?_⟩
  · rintro ⟨plan, hplan⟩
    obtain ⟨hno, hl, hstart, hpl⟩ := h.planned hplan hlen hn (by omega)
    have hle := hpl.freelist_le
    rw [hl, hno] at hle
    omega
  · have hneed := g.minFreelist_pos
    have hd : Disjoint length (g.firstFree agno length) (initialRmap g agno) :=
      h.initial_disjoint (by omega)
    have hfirst : g.firstFree agno length = [⟨g.freeStart agno, length - g.freeStart agno⟩] :=
      if_pos (by omega)
    rw [hfirst] at hd
    have hfree : initialFree g agno length = .ok (g.firstFree agno length) :=
      h.initialFree_eq hn (by omega)
    rw [hfirst] at hfree
    have hfill : ∃ agfl rmap, fillFreelist agno g.minFreelist g.features.rmapbt
        (g.minFreelist + 1 + 1) [⟨g.freeStart agno, length - g.freeStart agno⟩] []
        (initialRmap g agno) = .ok ((⟨g.freeStart agno, length - g.freeStart agno⟩ :
          AllocRec).after (g.freeStart agno + g.minFreelist), agfl, rmap) :=
      fillFreelist_single hn hd hneed (by omega)
    obtain ⟨agfl, rmap, hfill⟩ := hfill
    have hd' := (fillFreelist_spec hn hd (Nat.zero_le _) hfill).1
    by_cases h0 : agno = 0
    · -- the rest of the AG holds the root inode chunk
      have hroot := h.rootChunk_bounds
      have hstart : g.freeStart agno = g.preallocBlocks := by
        have hn2 := h.agcount_ge
        rw [Geometry.freeStart, if_neg (by rw [h.logagno]; omega)]
      rw [hstart] at hfill hfree hd' hfit
      rw [AllocRec.after, if_pos (by dsimp only; omega)] at hfill hd'
      have htake : ∃ free₂, take [⟨g.preallocBlocks + g.minFreelist, g.preallocBlocks
          + (length - g.preallocBlocks) - (g.preallocBlocks + g.minFreelist)⟩]
          g.rootChunkAgbno g.chunkBlocks = .ok free₂ :=
        take_isOk List.mem_cons_self (by dsimp only; omega) (by dsimp only; omega)
      obtain ⟨free₂, htake⟩ := htake
      obtain ⟨hend, -, rmap₂, hmap, -, -⟩ :=
        allocate_spec g.features.rmapbt owner.inodes hn hd' h.chunkBlocks_pos htake
      refine ⟨⟨agno, length, free₂, agfl, rmap₂, some g.rootChunkAgbno⟩,
        planAg_eq_ok.mpr ⟨length, _, _, agfl, rmap, hlen, hfree, hfill, ?_⟩⟩
      rw [if_pos h0, toU32_of_lt (by omega), toU32_of_lt (by omega)]
      exact ⟨free₂, rmap₂, htake, hmap, rfl⟩
    · exact ⟨_, planAg_eq_ok.mpr
        ⟨length, _, _, agfl, rmap, hlen, hfree, hfill, by rw [if_neg h0]⟩⟩

/-- Without the room the AG has no space for its free list. -/
lemma Accepted.planAg_eq_error (h : Accepted params dev logical physical g)
    (hlen : g.agBlocks agno = .ok length) (hn : length < 2 ^ 32) (hmin : 1024 ≤ length)
    (hshort : length < g.freeStart agno + g.minFreelist) :
    planAg g agno
      = .error (.error (.invalidParams s!"AG {agno} has no space for its free list")) := by
  have hp := h.preallocBlocks_bounds
  have hneed := g.minFreelist_pos
  have hfree : initialFree g agno length = .ok (g.firstFree agno length) :=
    h.initialFree_eq hn (by omega)
  rw [planAg, hlen, ok_bind, hfree, ok_bind]
  by_cases hlt : g.freeStart agno < length
  · have hd : Disjoint length (g.firstFree agno length) (initialRmap g agno) :=
      h.initial_disjoint hlt.le
    rw [Geometry.firstFree, if_pos hlt] at hd ⊢
    have hfill : fillFreelist agno g.minFreelist g.features.rmapbt (g.minFreelist + 1 + 1)
        [⟨g.freeStart agno, length - g.freeStart agno⟩] [] (initialRmap g agno) = _ :=
      fillFreelist_short hn hd (by omega) (by omega)
    simp only [List.length_singleton, hfill]
    rfl
  · have hfill : fillFreelist agno g.minFreelist g.features.rmapbt (g.minFreelist + 1) [] []
        (initialRmap g agno) = _ := fillFreelist_none hneed
    rw [Geometry.firstFree, if_neg hlt]
    simp only [List.length_nil, Nat.add_zero, hfill]
    rfl

end PlanOne

/-! ### Planning every AG -/

/-- The AG size that follows from what is asked for. -/
def Params.explicitAgsize (params : Params) (dev : ℕ) : Option ℕ :=
  match params.agsize, params.agcount with
  | some b, _ => some (b.toNat / params.blocksize)
  | none, some n => some (divCeil (params.askedBlocks dev) n.toNat)
  | none, none => none

/-- The blocks left of those asked for when a last AG of less than 16 MiB is dropped. -/
def Params.usedBlocks (params : Params) (dev agsize : ℕ) : ℕ :=
  let d := params.askedBlocks dev
  if d % agsize ≠ 0 ∧ d % agsize < agMinBytes / params.blocksize then d / agsize * agsize else d

/-- The log wanted for `d` blocks, within the limits of the format. -/
def Params.logWanted (params : Params) (d : ℕ) : ℕ :=
  min (params.logBlocks d) (min maxLogBlocks (maxLogBytes / params.blocksize))

/-- The blocks of a free list under the parameters. -/
def Params.minFreelist (params : Params) : ℕ := 2 + 2 + if params.features.rmapbt then 2 else 0

/-- Every AG has blocks, and the AG of the log has room for the free list behind it: with
reverse mappings in an AG of the size asked for, and in a second AG cut short. -/
structure Params.FreelistFits (params : Params) (dev logical physical : ℕ) : Prop where
  covers : params.CountCovers dev
  full : ∀ s, params.explicitAgsize dev = some s → params.features.rmapbt = true →
    params.preallocBlocks logical physical + params.logWanted (params.usedBlocks dev s) + 6 ≤ s
  last : ∀ b, params.agsize = some b →
    b.toNat / params.blocksize < params.askedBlocks dev →
    params.askedBlocks dev < 2 * (b.toNat / params.blocksize) →
    params.preallocBlocks logical physical + params.logBlocks (params.askedBlocks dev)
      + params.minFreelist ≤ params.askedBlocks dev - b.toNat / params.blocksize

section PlanAll

variable {params : Params} {dev logical physical : ℕ} {g : Geometry}

lemma Accepted.minFreelist_eq (h : Accepted params dev logical physical g) :
    g.minFreelist = params.minFreelist := by
  rw [Geometry.minFreelist, Params.minFreelist, h.features]

/-- The data blocks are those left when a last AG too small is dropped. -/
lemma Accepted.dblocks_eq (h : Accepted params dev logical physical g) :
    g.dblocks = params.usedBlocks dev g.agsize := by
  have hs := h.agsize_ge
  have hal := h.aligned
  rw [h.askedBlocks_eq] at hal
  have hmin : agMinBytes / params.blocksize = agMinBlocks g.blocklog := by
    rw [h.blocksize_eq, agMinBlocks, Nat.shiftRight_eq_div_pow]
  simp only [Params.usedBlocks, hmin]
  by_cases hlast : LastTooSmall g.blocklog (params.askedBlocks dev) g.agsize
  · rw [if_pos hlast] at hal
    obtain ⟨hnone, hcount, hd⟩ := hal
    rw [askedAgcount_of_chosen (fun _ => hnone), divCeil_eq (by omega), if_pos hlast.1] at hcount
    rw [if_pos (show _ ∧ _ from hlast), hd]
    congr 1
    omega
  · rw [if_neg hlast] at hal
    rw [if_neg (show ¬ (_ ∧ _) from hlast), hal.2]

/-- With an AG count asked for, no AG is dropped. -/
lemma Accepted.dblocks_eq_of_count (h : Accepted params dev logical physical g) {n : UInt64}
    (hn : params.agcount = some n) : g.dblocks = params.askedBlocks dev := by
  have hal := h.aligned
  rw [h.askedBlocks_eq] at hal
  split_ifs at hal
  · rw [hn] at hal
    cases hal.1
  · exact hal.2

lemma Accepted.agcount_eq_of_count (h : Accepted params dev logical physical g) {n : UInt64}
    (hs : params.agsize = none) (hn : params.agcount = some n) : g.agcount = n.toNat := by
  have hal := h.aligned
  rw [askedAgcount_of_count hs hn] at hal
  split_ifs at hal
  · rw [hn] at hal
    cases hal.1
  · exact hal.1

/-- The log is the size wanted, unless the AG size limits it. -/
lemma Accepted.logblocks_eq (h : Accepted params dev logical physical g) (hdev : dev < 2 ^ 64) :
    g.logblocks = min (params.logWanted g.dblocks) (g.agsize - (g.preallocBlocks + 5)) := by
  have hbytes : maxLogBytes >>> g.blocklog = maxLogBytes / params.blocksize := by
    rw [h.blocksize_eq, Nat.shiftRight_eq_div_pow]
  rw [h.logblocks, Geometry.logSize, h.logTarget_eq hdev, Geometry.logCap, hbytes,
    Params.logWanted, min_right_comm]

/-- **Every AG can be planned exactly when all have blocks and the log's AG has room for the
log and the free list.** -/
lemma Accepted.planAll_iff (h : Accepted params dev logical physical g) (hdev : dev < 2 ^ 64) :
    (∀ agno < g.agcount, ∃ plan, planAg g agno = .ok plan) ↔ g.Covered ∧
      g.preallocBlocks + g.logblocks + g.minFreelist
        ≤ if g.agcount = 2 then g.dblocks - g.agsize else g.agsize := by
  have hn := h.agcount_ge
  have hp := h.preallocBlocks_bounds
  have hs := h.agsize_lt
  have hm := agMinBlocks_ge h.blocklog_le
  have hag := h.logagno
  have hstart : ∀ agno, g.freeStart agno = if agno = g.agcount / 2
      then g.preallocBlocks + g.logblocks else g.preallocBlocks := by
    intro agno
    rw [Geometry.freeStart, hag, h.logAgbno]
  have hf : g.minFreelist ≤ 6 := by
    rw [Geometry.minFreelist]
    split_ifs <;> omega
  have hone : g.Covered → ∀ agno < g.agcount,
      ((∃ plan, planAg g agno = .ok plan) ↔ g.freeStart agno + g.minFreelist ≤
        if agno + 1 = g.agcount then g.dblocks - (g.agcount - 1) * g.agsize else g.agsize) := by
    intro hc agno hlt
    have hlast := h.lastLen_bounds hc
    have hmin := h.agsize_min
    refine h.planAg_isOk_iff (h.agBlocks_eq hdev hc hlt) ?_ ?_ <;> split_ifs <;> omega
  refine ⟨fun hall => ?_, fun hand agno hlt => ?_⟩
  · have hc : g.Covered := by
      by_contra hc
      obtain ⟨plan, hplan⟩ := hall (g.agcount - 1) (by omega)
      obtain ⟨length, -, -, -, -, hlen, -⟩ := planAg_eq_ok.mp hplan
      have hd : g.dblocks < 2 ^ 64 := by
        have h1 := h.dblocks_le
        have h2 := h.asked_lt hdev
        rw [h.askedBlocks_eq] at h2
        omega
      obtain ⟨-, hl⟩ := (Geometry.agBlocks_last_eq_ok (by omega) hd).mp hlen
      rw [Geometry.Covered] at hc
      exact h.not_planAg_of_lt hlen (by omega) hplan
    refine ⟨hc, ?_⟩
    have hfit := (hone hc (g.agcount / 2) (by omega)).mp (hall _ (by omega))
    rw [hstart, if_pos rfl] at hfit
    by_cases h2 : g.agcount = 2
    · rw [if_pos h2]
      rw [if_pos (by omega), h2, Nat.one_mul] at hfit
      exact hfit
    · rw [if_neg h2]
      rw [if_neg (by omega)] at hfit
      exact hfit
  · obtain ⟨hc, hfit⟩ := hand
    have hlast := h.lastLen_bounds hc
    have hmin := h.agsize_min
    rw [hone hc agno hlt, hstart]
    by_cases hlog : agno = g.agcount / 2
    · rw [if_pos hlog]
      by_cases h2 : g.agcount = 2
      · rw [if_pos h2] at hfit
        rw [if_pos (by omega), h2, Nat.one_mul]
        exact hfit
      · rw [if_neg h2] at hfit
        rw [if_neg (by omega)]
        exact hfit
    · rw [if_neg hlog]
      split_ifs <;> omega

/-- The plan of all AGs fails at the AG of the log when that is short of room. -/
lemma Accepted.planAll_eq_error (h : Accepted params dev logical physical g) (hdev : dev < 2 ^ 64)
    (hc : g.Covered) (hroom : ¬ g.preallocBlocks + g.logblocks + g.minFreelist
      ≤ if g.agcount = 2 then g.dblocks - g.agsize else g.agsize) :
    planAll g
      = .error (.error (.invalidParams s!"AG {g.logagno} has no space for its free list")) := by
  have hag := h.logagno
  have hn := h.agcount_ge
  have hp := h.preallocBlocks_bounds
  have hs := h.agsize_lt
  have hm := agMinBlocks_ge h.blocklog_le
  have hmin := h.agsize_min
  have hlast := h.lastLen_bounds hc
  have hf : g.minFreelist ≤ 6 := by
    rw [Geometry.minFreelist]
    split_ifs <;> omega
  have hsplit : List.range g.agcount = List.range g.logagno ++ g.logagno ::
      (List.range (g.agcount - g.logagno - 1)).map (g.logagno + 1 + ·) := by
    conv_lhs => rw [show g.agcount = g.logagno + 1 + (g.agcount - g.logagno - 1) by omega,
      List.range_add, List.range_succ, List.append_assoc, List.singleton_append]
  have hbefore : ∀ agno ∈ List.range g.logagno, ∃ plan, planAg g agno = .ok plan := by
    intro agno hmem
    have hlt := List.mem_range.mp hmem
    have hlen := h.agBlocks_eq hdev hc (show agno < g.agcount by omega)
    rw [if_neg (by omega)] at hlen
    refine (h.planAg_isOk_iff hlen (by omega) (by omega)).mpr ?_
    rw [Geometry.freeStart, if_neg (by omega)]
    omega
  have hlen := h.agBlocks_eq hdev hc (show g.logagno < g.agcount by omega)
  rw [planAll, hsplit]
  refine mapM_eq_error hbefore (h.planAg_eq_error hlen ?_ ?_ ?_)
  · split_ifs <;> omega
  · split_ifs <;> omega
  · rw [Geometry.freeStart, if_pos rfl, h.logAgbno]
    by_cases h2 : g.agcount = 2
    · rw [if_pos h2] at hroom
      rw [if_pos (by omega), h2, Nat.one_mul]
      omega
    · rw [if_neg h2] at hroom
      rw [if_neg (by omega)]
      omega

/-- Sixty-four MiB are four minimal AGs. -/
lemma Accepted.min_log_eq (h : Accepted params dev logical physical g) :
    64 * mib / params.blocksize = 4 * agMinBlocks g.blocklog := by
  rw [h.blocksize_eq, ← Nat.shiftRight_eq_div_pow]
  exact (min_thresholds g.blocklog h.blocklog_le).2.2.2.2

/-- In two halves the log wanted leaves room for the free list. -/
lemma Accepted.logBlocks_half (h : Accepted params dev logical physical g)
    (hd : g.dblocks ≤ 2 * g.agsize) :
    g.preallocBlocks + params.logBlocks g.dblocks + 7 ≤ g.agsize := by
  have hp := h.preallocBlocks_bounds
  have hm := agMinBlocks_ge h.blocklog_le
  have h300 := (min_thresholds g.blocklog h.blocklog_le).2.1
  have hge := h.dblocks_ge
  rw [Params.logBlocks, h.min_log_eq]
  omega

/-- The default log leaves room for the free list. -/
lemma Accepted.logBlocks_default (h : Accepted params dev logical physical g)
    (hs : params.agsize = none) (hn : params.agcount = none) :
    g.preallocBlocks + params.logWanted g.dblocks + 6 ≤ g.agsize := by
  have hp := h.preallocBlocks_bounds
  have hm := agMinBlocks_ge h.blocklog_le
  have hd := h.dblocks_le
  have hge := h.dblocks_ge.trans hd
  have hagsize := h.agsize
  rw [h.askedBlocks_eq, Params.askedAgsize, hs, hn] at hagsize
  have hlow := (defaultAgSize_spec h.blocklog_le hge hagsize).1
  have hquarter := hagsize.trans (defaultAgSize_eq h.blocklog_le hge)
  have hcap : ∀ bl ≤ 14, maxLogBytes >>> bl + 16 ≤ agMaxBlocks bl ∧
      agMinBlocks bl = 4 * (4 * mib) >>> bl := by
    decide
  obtain ⟨hcap, h4⟩ := hcap g.blocklog h.blocklog_le
  have hceil : divCeil (params.askedBlocks dev) 4 = (params.askedBlocks dev + 3) / 4 := rfl
  have hbytes : maxLogBytes / params.blocksize = maxLogBytes >>> g.blocklog := by
    rw [h.blocksize_eq, Nat.shiftRight_eq_div_pow]
  rw [Params.logWanted, Params.logBlocks, h.min_log_eq, hbytes]
  omega

/-- In an AG of the full size only a log cut to the AG size leaves too little, and only for
the longer free list that comes with reverse mappings. -/
lemma Accepted.room_full (h : Accepted params dev logical physical g) (hdev : dev < 2 ^ 64) :
    g.preallocBlocks + g.logblocks + g.minFreelist ≤ g.agsize ↔
      (params.features.rmapbt = true →
        g.preallocBlocks + params.logWanted g.dblocks + 6 ≤ g.agsize) := by
  have hle := h.logblocks_le
  have hlog := h.logblocks_eq hdev
  rw [h.minFreelist_eq, Params.minFreelist]
  cases params.features.rmapbt with
  | false =>
      simp only [Bool.false_eq_true, if_false, false_implies, iff_true]
      omega
  | true =>
      simp only [if_true, forall_const]
      omega

/-- The AG of the log has the full size, but for a second AG that is shorter. -/
lemma Accepted.room_eq (h : Accepted params dev logical physical g)
    (hroom : 2 < g.agcount ∨ g.dblocks = 2 * g.agsize) :
    (if g.agcount = 2 then g.dblocks - g.agsize else g.agsize) = g.agsize := by
  have hn := h.agcount_ge
  rcases hroom with h3 | h2
  · rw [if_neg (by omega)]
  · split_ifs <;> omega

/-- With an AG count asked for, a second AG is shorter by a block at most, and there is room
for any log it can get. -/
lemma Accepted.room_count (h : Accepted params dev logical physical g) (hdev : dev < 2 ^ 64)
    (hs : params.agsize = none) {n : UInt64} (hn : params.agcount = some n) :
    (g.preallocBlocks + g.logblocks + g.minFreelist
        ≤ if g.agcount = 2 then g.dblocks - g.agsize else g.agsize) ↔
      (params.features.rmapbt = true →
        g.preallocBlocks + params.logWanted g.dblocks + 6 ≤ g.agsize) := by
  by_cases h2 : g.agcount = 2
  · have hd := h.dblocks_eq_of_count hn
    have hhalf : g.agsize = (g.dblocks + 1) / 2 := by
      have hagsize := h.agsize
      have hcount := h.agcount_eq_of_count hs hn
      rw [h.askedBlocks_eq, askedAgsize_of_count hs hn, ← hcount, h2, ← hd] at hagsize
      exact hagsize
    have hhalf2 := h.logBlocks_half (by omega)
    have hlog := h.logblocks_eq hdev
    have hmin : g.minFreelist ≤ 6 := by
      rw [Geometry.minFreelist]
      split_ifs <;> omega
    rw [Params.logWanted] at hlog ⊢
    rw [if_pos h2]
    refine iff_of_true ?_ fun _ => ?_ <;> omega
  · have hn2 := h.agcount_ge
    rw [h.room_eq (.inl (by omega)), h.room_full hdev]

/-- With an AG size asked for, a second AG can be any shorter, and must have the room
itself. -/
lemma Accepted.room_size (h : Accepted params dev logical physical g) (hdev : dev < 2 ^ 64)
    (hc : g.Covered) :
    (g.preallocBlocks + g.logblocks + g.minFreelist
        ≤ if g.agcount = 2 then g.dblocks - g.agsize else g.agsize) ↔
      (params.features.rmapbt = true →
        g.preallocBlocks + params.logWanted g.dblocks + 6 ≤ g.agsize) ∧
      (g.agsize < params.askedBlocks dev → params.askedBlocks dev < 2 * g.agsize →
        g.preallocBlocks + params.logBlocks (params.askedBlocks dev) + g.minFreelist
          ≤ params.askedBlocks dev - g.agsize) := by
  have hn := h.agcount_ge
  have hle := h.dblocks_le
  have hmul := h.dblocks_le_mul
  have hal := h.aligned
  rw [h.askedBlocks_eq] at hal
  rw [Geometry.Covered] at hc
  have hdropped : g.dblocks = params.askedBlocks dev ∨ g.dblocks = g.agcount * g.agsize := by
    split_ifs at hal
    · exact .inr hal.2.2
    · exact .inl hal.2
  by_cases hshort : g.agsize < params.askedBlocks dev ∧ params.askedBlocks dev < 2 * g.agsize
  · -- more than one AG size and less than two: two AGs, none dropped
    have h2 : g.agcount = 2 := by
      by_contra h3
      have hge := Nat.mul_le_mul_right g.agsize (show 2 ≤ g.agcount - 1 by omega)
      omega
    have hd : g.dblocks = params.askedBlocks dev := by
      rcases hdropped with hd | hd
      · exact hd
      · rw [h2] at hd
        omega
    have hlog := h.logblocks_two hdev (by omega)
    have hmin : g.minFreelist = params.minFreelist := h.minFreelist_eq
    rw [if_pos h2, ← hd, ← hlog]
    refine ⟨fun hf => ⟨fun hr => ?_, fun _ _ => hf⟩, fun hf => hf.2 (by omega) (by omega)⟩
    rw [Params.minFreelist, if_pos hr] at hmin
    rw [Params.logWanted]
    omega
  · rw [h.room_eq ?_, h.room_full hdev]
    · refine ⟨fun hf => ⟨hf, fun h1 h2 => absurd ⟨h1, h2⟩ hshort⟩, fun hf => hf.1⟩
    · by_cases h2 : g.agcount = 2
      · rw [h2] at hc hmul hdropped
        omega
      · omega

end PlanAll

/-- **`plan_ag` succeeds for every AG of a geometry `compute` makes exactly when the free lists
fit.** -/
theorem compute_planAg_iff (params : Params) (dev : UInt64) (logical physical : UInt32)
    (g : Geometry) (hg : Geometry.compute params dev logical physical = .ok g) :
    (∀ agno < g.agcount, ∃ plan, planAg g agno = .ok plan) ↔
      params.FreelistFits dev.toNat logical.toNat physical.toNat := by
  have h := compute_eq_ok.mp hg
  have hdev := dev.toNat_lt
  have hagsize := h.agsize
  rw [h.askedBlocks_eq] at hagsize
  rw [h.planAll_iff hdev]
  have hlast : params.agsize = none → ∀ b, params.agsize = some b → False := by
    intro hnone b hb
    rw [hnone] at hb
    cases hb
  rcases hps : params.agsize with - | b
  · rcases hpn : params.agcount with - | n
    · -- nothing is asked for: there is room
      have h4 := h.four_le_agcount hps hpn
      rw [h.room_eq (.inl (by omega)), h.room_full hdev, h.covered_iff]
      refine ⟨fun hf => ⟨hf.1, fun s hsome => ?_, fun b hb => (hlast hps b hb).elim⟩,
        fun hf => ⟨hf.covers, fun _ => h.logBlocks_default hps hpn⟩⟩
      rw [Params.explicitAgsize, hps, hpn] at hsome
      cases hsome
    · have hexp : params.explicitAgsize dev.toNat = some g.agsize := by
        rw [Params.explicitAgsize, hps, hpn, hagsize, askedAgsize_of_count hps hpn]
      rw [h.room_count hdev hps hpn, h.covered_iff, h.dblocks_eq, h.preallocBlocks_eq]
      refine ⟨fun hf => ⟨hf.1, fun s hsome hr => ?_, fun b hb => (hlast hps b hb).elim⟩,
        fun hf => ⟨hf.covers, fun hr => hf.full _ hexp hr⟩⟩
      obtain rfl := Option.some.inj (hexp.symm.trans hsome)
      exact hf.2 hr
  · have hbs : b.toNat / params.blocksize = g.agsize := by
      rw [hagsize, Params.askedAgsize, hps, h.asked_blocksize]
      rfl
    have hexp : params.explicitAgsize dev.toNat = some g.agsize := by
      rw [← hbs, Params.explicitAgsize, hps]
    have hc : g.Covered := h.covered_iff.mpr fun hnone => (hlast hnone b hps).elim
    rw [h.room_size hdev hc, h.dblocks_eq, h.preallocBlocks_eq, h.minFreelist_eq]
    refine ⟨fun hf => ⟨h.covered_iff.mp hc, fun s hsome hr => ?_, fun b' hb' => ?_⟩,
      fun hf => ⟨hc, fun hr => hf.full _ hexp hr, ?_⟩⟩
    · obtain rfl := Option.some.inj (hexp.symm.trans hsome)
      exact hf.2.1 hr
    · obtain rfl := Option.some.inj (hps.symm.trans hb')
      rw [hbs]
      exact hf.2.2
    · rw [← hbs]
      exact hf.last b hps

/-- Every AG of 512 MiB in AGs of 128 MiB is planned. -/
theorem compute_planAg_128m : ∃ g,
    Geometry.compute { agsize := some 134217728 } 536870912 512 512 = .ok g ∧
      ∀ agno < g.agcount, ∃ plan, planAg g agno = .ok plan := by
  refine ⟨geo512m, rfl, (compute_planAg_iff { agsize := some 134217728 } 536870912 512 512
    geo512m rfl).mpr ⟨?_, ?_, ?_⟩⟩
  · rintro ⟨⟩
  · rintro s ⟨⟩ -
    decide +kernel
  · rintro b ⟨⟩
    decide +kernel

/-- The geometry of five AGs of 16396 blocks: the log is cut to the AG size and leaves five
blocks for a free list of six. -/
def geoFive : Geometry :=
  { geo512m with dblocks := 81980, agsize := 16396, agcount := 5 }

lemma planAg_geoFive : planAg geoFive 2
    = .error (.error (.invalidParams "AG 2 has no space for its free list")) := rfl

/-- `compute` accepts the five AGs, and the third cannot be planned. -/
theorem compute_not_planAg : ¬ ∀ (params : Params) (dev : UInt64) (logical physical : UInt32)
    (g : Geometry), Geometry.compute params dev logical physical = .ok g →
      ∀ agno < g.agcount, ∃ plan, planAg g agno = .ok plan := by
  intro h
  obtain ⟨plan, hplan⟩ :=
    h { agsize := some 67158016 } 335790080 512 512 geoFive rfl 2 (by decide)
  rw [planAg_geoFive] at hplan
  cases hplan

/-! ### The defaults -/

/-- What the defaults make of a device of `dev` bytes. -/
structure Geometry.DefaultLayout (g : Geometry) (dev : ℕ) : Prop where
  agcount : 2 ≤ g.agcount
  ags : ∀ agno < g.agcount, ∃ len, g.agBlocks agno = .ok len ∧ agMinBlocks g.blocklog ≤ len
  used : g.dblocks ≤ dev / g.blocksize
  unused : dev / g.blocksize - g.dblocks < agMinBlocks g.blocklog
  log_agno : g.logagno + 1 < g.agcount
  log_inside : g.LogFits
  log_min : 64 * mib ≤ g.logblocks * g.blocksize
  log_blocks : g.logblocks ≤ maxLogBlocks
  log_bytes : g.logblocks * g.blocksize ≤ maxLogBytes
  plans : ∀ agno < g.agcount, ∃ plan, planAg g agno = .ok plan

/-- Dropping a last AG too small leaves fewer blocks than it takes to make one. -/
lemma Accepted.unused_lt {params : Params} {dev logical physical : ℕ} {g : Geometry}
    (h : Accepted params dev logical physical g) :
    params.askedBlocks dev - g.dblocks < agMinBlocks g.blocklog := by
  have hm := agMinBlocks_ge h.blocklog_le
  have hmin : agMinBytes / params.blocksize = agMinBlocks g.blocklog := by
    rw [h.blocksize_eq, agMinBlocks, Nat.shiftRight_eq_div_pow]
  rw [h.dblocks_eq, Params.usedBlocks, hmin]
  have hdm := Nat.div_add_mod (params.askedBlocks dev) g.agsize
  rw [Nat.mul_comm] at hdm
  split_ifs with hlast <;> omega

/-- **The defaults make a filesystem of every device of 300 MiB or more**, with its log before
the last AG, and every AG of it can be planned. -/
theorem compute_default (params : Params) (dev : UInt64) (logical physical : UInt32)
    (hreq : DefaultRequest params logical.toNat physical.toNat)
    (hdev : 300 * mib ≤ dev.toNat) :
    ∃ g, Geometry.compute params dev logical physical = .ok g ∧ g.DefaultLayout dev.toNat := by
  have hdev64 := dev.toNat_lt
  obtain ⟨g, h⟩ := default_accepted hreq hdev64 hdev
  have h4 := h.four_le_agcount hreq.agsize hreq.agcount
  have hn : 3 ≤ g.agcount := by omega
  have hag := h.logagno
  have hlog := h.logblocks_le
  have hc : g.Covered := h.covered_iff.mpr fun _ n hn => by
    rw [hreq.agcount] at hn
    cases hn
  have hasked : params.askedBlocks dev.toNat = dev.toNat / g.blocksize := by
    rw [Params.askedBlocks, Params.askedBytes, hreq.size, h.blocksize_eq, h.blocksize]
    rfl
  have hsize : ∀ bl ≤ 14, 64 * mib ≤ (64 * mib) >>> bl * 2 ^ bl := by decide
  have hcap : g.logblocks ≤ min maxLogBlocks (maxLogBytes >>> g.blocklog) := by
    rw [h.logblocks]
    exact min_le_right _ _
  refine ⟨g, h.compute_eq, by omega, ?_, ?_, ?_, by omega, ?_, ?_, ?_, ?_, ?_⟩
  · intro agno hlt
    obtain ⟨len, hlen, hge, -⟩ := ((h.tiles_iff hdev64).mpr hc).agBlocks agno hlt
    exact ⟨len, hlen, hge⟩
  · rw [← hasked]
    exact h.dblocks_le
  · rw [← hasked]
    exact h.unused_lt
  · exact (h.logFits_iff hdev64).mpr fun h2 => by omega
  · calc 64 * mib ≤ (64 * mib) >>> g.blocklog * 2 ^ g.blocklog := hsize _ h.blocklog_le
      _ ≤ g.logblocks * g.blocksize := by
          rw [h.blocksize]
          exact Nat.mul_le_mul_right _ h.logblocks_ge
  · exact hcap.trans (min_le_left _ _)
  · calc g.logblocks * g.blocksize ≤ maxLogBytes >>> g.blocklog * 2 ^ g.blocklog := by
          rw [h.blocksize]
          exact Nat.mul_le_mul_right _ (hcap.trans (min_le_right _ _))
      _ ≤ maxLogBytes := by
          rw [Nat.shiftRight_eq_div_pow]
          exact Nat.div_mul_le_self _ _
  · refine (h.planAll_iff hdev64).mpr ⟨hc, ?_⟩
    rw [h.room_eq (.inl (by omega)), h.room_full hdev64]
    exact fun _ => h.logBlocks_default hreq.agsize hreq.agcount

/-- Four TiB less a byte, in blocks of 1 KiB: the last AG is dropped. -/
theorem compute_default_four_tib : ∃ g,
    Geometry.compute { blockSize := some 1024 } 4398046511103 512 4096 = .ok g ∧
      g.DefaultLayout 4398046511103 :=
  compute_default { blockSize := some 1024 } 4398046511103 512 4096
    { size := rfl, agsize := rfl, agcount := rfl, sectorSize := rfl, inodeSize := rfl,
      features := rfl, blocksize := ⟨10, by decide, by decide, rfl⟩,
      imaxpct := fun _ h => (by cases h), label := fun _ h => (by cases h),
      logical_pow := ⟨9, by decide, rfl⟩, logical_le := by decide,
      physical_pow := ⟨12, rfl⟩ } (by decide)

end MkfsXfs
