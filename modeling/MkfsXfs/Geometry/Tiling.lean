import MkfsXfs.Geometry.Accepted

/-!
The AGs of an accepted geometry tile its data blocks, and `compute` returns on every
input.

* `Geometry.Tiles`: every AG has a length between the minimum and the AG size, the lengths
  add up to the data blocks, and the data blocks lie on the device.
* `Geometry.Covered`: the AGs before the last leave blocks for it, which is all that
  tiling asks of an accepted geometry (`Accepted.tiles_iff`).
* `Params.CountCovers`: what the parameters must satisfy for it (`Accepted.covered_iff`).
  Only an AG count given without an AG size can fail it, since rounding the AG size up may
  use up the blocks before the last AG is reached.
* `compute_returns`: no arithmetic of `compute` overflows, underflows or divides by zero.
-/

namespace MkfsXfs

open Checked

/-- The block size asked for. -/
def Params.blocksize (params : Params) : ℕ := (params.blockSize.map UInt32.toNat).getD 4096

/-- The whole blocks asked for. -/
def Params.askedBlocks (params : Params) (dev : ℕ) : ℕ :=
  params.askedBytes dev / params.blocksize

/-- An AG count given without an AG size leaves blocks for the last AG once the AG size is
rounded up. -/
def Params.CountCovers (params : Params) (dev : ℕ) : Prop :=
  params.agsize = none → ∀ n, params.agcount = some n →
    (n.toNat - 1) * divCeil (params.askedBlocks dev) n.toNat < params.askedBlocks dev

/-- The AGs before the last leave data blocks for it. -/
def Geometry.Covered (g : Geometry) : Prop := (g.agcount - 1) * g.agsize < g.dblocks

/-- The AGs tile the data blocks, which lie on the device and within the size asked for. -/
structure Geometry.Tiles (g : Geometry) (deviceSize : ℕ) (size : Option UInt64) : Prop where
  agBlocks : ∀ agno < g.agcount, ∃ len, g.agBlocks agno = .ok len ∧
    agMinBlocks g.blocklog ≤ len ∧ len ≤ g.agsize
  sum : ∃ lens, (List.range g.agcount).mapM g.agBlocks = .ok lens ∧ lens.sum = g.dblocks
  bytes : g.dblocks * g.blocksize ≤ deviceSize
  bytes_size : ∀ b, size = some b → g.dblocks * g.blocksize ≤ b.toNat

/-! ### The AG lengths -/

section Lengths

variable {params : Params} {dev logical physical : ℕ} {g : Geometry}

lemma Accepted.askedBlocks_eq (h : Accepted params dev logical physical g) :
    params.askedBytes dev >>> g.blocklog = params.askedBlocks dev := by
  rw [Params.askedBlocks, Params.blocksize, ← h.asked_blocksize, h.blocksize,
    Nat.shiftRight_eq_div_pow]

/-- The blocks asked for lie within the size asked for. -/
lemma Accepted.askedBlocks_mul_le (h : Accepted params dev logical physical g) :
    params.askedBlocks dev * g.blocksize ≤ params.askedBytes dev := by
  rw [← h.askedBlocks_eq, h.blocksize, Nat.shiftRight_eq_div_pow]
  exact Nat.div_mul_le_self _ _

/-- The blocks asked for lie on the device. -/
lemma Accepted.asked_mul_le (h : Accepted params dev logical physical g) :
    params.askedBlocks dev * g.blocksize ≤ dev := by
  rw [← h.askedBlocks_eq, h.blocksize]
  calc params.askedBytes dev >>> g.blocklog * 2 ^ g.blocklog
      ≤ dev >>> g.blocklog * 2 ^ g.blocklog := Nat.mul_le_mul_right _ h.asked_le
    _ ≤ dev := by rw [Nat.shiftRight_eq_div_pow]; exact Nat.div_mul_le_self _ _

/-- Without an AG count to honour, the count is the quotient rounded up. -/
lemma askedAgcount_of_chosen {d s : ℕ} (h : params.agsize = none → params.agcount = none) :
    params.askedAgcount d s = divCeil d s := by
  rw [Params.askedAgcount]
  rcases hs : params.agsize with - | b
  · rw [h hs]
  · rfl

/-- With the AG size left to `compute`, the AG count asked for is the AG count. -/
lemma askedAgcount_of_count {d s : ℕ} {n : UInt64} (hs : params.agsize = none)
    (hn : params.agcount = some n) : params.askedAgcount d s = n.toNat := by
  rw [Params.askedAgcount, hs, hn]

lemma askedAgsize_of_count {bs bl d : ℕ} {n : UInt64} (hs : params.agsize = none)
    (hn : params.agcount = some n) : params.askedAgsize bs bl d = divCeil d n.toNat := by
  rw [Params.askedAgsize, hs, hn]

/-- Dropping a last AG that is too small only gives blocks up. -/
lemma Accepted.dblocks_le (h : Accepted params dev logical physical g) :
    g.dblocks ≤ params.askedBlocks dev := by
  have hs := h.agsize_ge
  have hal := h.aligned
  rw [h.askedBlocks_eq] at hal
  split_ifs at hal with hlast
  · obtain ⟨hnone, hcount, hd⟩ := hal
    rw [askedAgcount_of_chosen (fun _ => hnone)] at hcount
    have hpos : 0 < params.askedBlocks dev := by
      have hlt := Nat.mod_le (params.askedBlocks dev) g.agsize
      have hne := hlast.1
      omega
    have hlt := divCeil_pred_mul_lt hpos (by omega : 0 < g.agsize)
    rw [← hcount, Nat.add_sub_cancel] at hlt
    omega
  · exact hal.2.le

/-- The AGs cover the data blocks. -/
lemma Accepted.dblocks_le_mul (h : Accepted params dev logical physical g) :
    g.dblocks ≤ g.agcount * g.agsize := by
  have hs := h.agsize_ge
  have hal := h.aligned
  have hagsize := h.agsize
  rw [h.askedBlocks_eq] at hal hagsize
  split_ifs at hal with hlast
  · exact hal.2.2.le
  · obtain ⟨hcount, hd⟩ := hal
    rw [hcount, hd]
    by_cases hsel : params.agsize = none → params.agcount = none
    · rw [askedAgcount_of_chosen hsel]
      exact le_divCeil_mul (by omega)
    · push Not at hsel
      obtain ⟨hnone, hsome⟩ := hsel
      obtain ⟨n, hn⟩ := Option.ne_none_iff_exists'.mp hsome
      have hc2 := h.agcount_ge
      rw [askedAgcount_of_count hnone hn] at hcount ⊢
      rw [hagsize, askedAgsize_of_count hnone hn, Nat.mul_comm]
      exact le_divCeil_mul (by omega)

/-- Either an AG count was given without an AG size, and the AGs are that many of the blocks
over the count, rounded up; or the AGs before the last leave blocks for it. -/
lemma Accepted.count_cases (h : Accepted params dev logical physical g) :
    (∃ n, params.agsize = none ∧ params.agcount = some n ∧ g.agcount = n.toNat ∧
      g.agsize = divCeil (params.askedBlocks dev) n.toNat ∧
      g.dblocks = params.askedBlocks dev) ∨
    ((params.agsize = none → params.agcount = none) ∧ g.Covered) := by
  have hs := h.agsize_ge
  have hc := h.agcount_ge
  have hal := h.aligned
  have hagsize := h.agsize
  rw [h.askedBlocks_eq] at hal hagsize
  rw [Geometry.Covered]
  split_ifs at hal with hlast
  · -- the last AG was dropped: every AG has the full size, and no count was given
    obtain ⟨hnone, -, hd⟩ := hal
    refine .inr ⟨fun _ => hnone, ?_⟩
    rw [hd]
    exact (Nat.mul_lt_mul_right (by omega)).mpr (by omega)
  · obtain ⟨hcount, hd⟩ := hal
    have hpos : 0 < params.askedBlocks dev := by have := h.agsize_le; omega
    by_cases hsel : params.agsize = none → params.agcount = none
    · refine .inr ⟨hsel, ?_⟩
      rw [hd, hcount, askedAgcount_of_chosen hsel]
      exact divCeil_pred_mul_lt hpos (by omega)
    · push Not at hsel
      obtain ⟨hnone, hsome⟩ := hsel
      obtain ⟨n, hn⟩ := Option.ne_none_iff_exists'.mp hsome
      rw [askedAgcount_of_count hnone hn] at hcount
      rw [askedAgsize_of_count hnone hn] at hagsize
      exact .inl ⟨n, hnone, hn, hcount, hagsize, hd⟩

/-- **The AGs before the last leave blocks for it exactly when the count asked for
does.** -/
theorem Accepted.covered_iff (h : Accepted params dev logical physical g) :
    g.Covered ↔ params.CountCovers dev := by
  rcases h.count_cases with ⟨n, hnone, hn, hcount, hsize, hd⟩ | ⟨hsel, hcov⟩
  · rw [Geometry.Covered, hcount, hsize, hd]
    constructor
    · intro hlt _ m hm
      obtain rfl : n = m := Option.some.inj (hn.symm.trans hm)
      exact hlt
    · intro hcov
      exact hcov hnone n hn
  · refine iff_of_true hcov ?_
    intro hnone n hn
    rw [hsel hnone] at hn
    cases hn

/-- What is left for the last AG is an AG. -/
lemma Accepted.lastLen_bounds (h : Accepted params dev logical physical g) (hc : g.Covered) :
    agMinBlocks g.blocklog ≤ g.dblocks - (g.agcount - 1) * g.agsize ∧
      g.dblocks - (g.agcount - 1) * g.agsize ≤ g.agsize := by
  have hs := h.agsize_ge
  have hmin := h.agsize_min
  have hle := h.dblocks_le_mul
  have hn := h.agcount_ge
  have hsplit : g.agcount * g.agsize = (g.agcount - 1) * g.agsize + g.agsize := by
    obtain ⟨n, hn'⟩ : ∃ n, g.agcount = n + 1 := ⟨g.agcount - 1, by omega⟩
    rw [hn', Nat.add_sub_cancel, Nat.add_mul, Nat.one_mul]
  rw [Geometry.Covered] at hc
  refine ⟨?_, by omega⟩
  by_cases hfull : g.dblocks = g.agcount * g.agsize
  · omega
  · -- a short last AG is the remainder, which was not too small
    have hrest : g.dblocks % g.agsize = g.dblocks - (g.agcount - 1) * g.agsize := by
      have hlt : g.dblocks - (g.agcount - 1) * g.agsize < g.agsize := by omega
      have hsum : g.dblocks
          = (g.dblocks - (g.agcount - 1) * g.agsize) + g.agsize * (g.agcount - 1) := by
        rw [Nat.mul_comm g.agsize]; omega
      conv_lhs => rw [hsum]
      rw [Nat.add_mul_mod_self_left, Nat.mod_eq_of_lt hlt]
    have hal := h.aligned
    split_ifs at hal with hlast
    · exact absurd hal.2.2 hfull
    · rw [← hal.2, LastTooSmall, hrest] at hlast
      omega

/-- Every AG of a covered geometry has its length. -/
lemma Accepted.agBlocks_eq (h : Accepted params dev logical physical g) (hdev : dev < 2 ^ 64)
    (hc : g.Covered) {agno : ℕ} (hag : agno < g.agcount) :
    g.agBlocks agno = .ok
      (if agno + 1 = g.agcount then g.dblocks - (g.agcount - 1) * g.agsize else g.agsize) := by
  by_cases hlast : agno + 1 = g.agcount
  · have hd : g.dblocks < 2 ^ 64 := by
      have h1 := h.dblocks_le
      have h2 := h.asked_lt hdev
      rw [h.askedBlocks_eq] at h2
      omega
    rw [if_pos hlast, Geometry.agBlocks_last_eq_ok hlast hd]
    rw [Geometry.Covered] at hc
    rw [show g.agcount - 1 = agno by omega] at hc ⊢
    exact ⟨hc.le, rfl⟩
  · rw [if_neg hlast, Geometry.agBlocks_of_lt (by omega)]

/-- **An accepted geometry tiles exactly when the AGs before the last leave blocks for
it.** -/
theorem Accepted.tiles_iff (h : Accepted params dev logical physical g) (hdev : dev < 2 ^ 64) :
    g.Tiles dev params.size ↔ g.Covered := by
  have hn := h.agcount_ge
  constructor
  · intro ht
    have hmin := agMinBlocks_ge h.blocklog_le
    obtain ⟨len, hlen, hge, -⟩ := ht.agBlocks (g.agcount - 1) (by omega)
    have hd : g.dblocks < 2 ^ 64 := by
      have h1 := h.dblocks_le
      have h2 := h.asked_lt hdev
      rw [h.askedBlocks_eq] at h2
      omega
    obtain ⟨-, hl⟩ := (Geometry.agBlocks_last_eq_ok (by omega) hd).mp hlen
    rw [Geometry.Covered]
    omega
  · intro hc
    have hlast := h.lastLen_bounds hc
    refine ⟨fun agno hag => ⟨_, h.agBlocks_eq hdev hc hag, ?_⟩, ?_, ?_, ?_⟩
    · split_ifs
      · exact hlast
      · exact ⟨h.agsize_min, le_refl _⟩
    · obtain ⟨n, hn'⟩ : ∃ n, g.agcount = n + 1 := ⟨g.agcount - 1, by omega⟩
      refine ⟨_, mapM_eq_ok fun agno hag => h.agBlocks_eq hdev hc (List.mem_range.mp hag), ?_⟩
      rw [hn', List.range_succ, List.map_append, List.sum_append]
      have hfull : (List.range n).map (fun agno => if agno + 1 = n + 1
          then g.dblocks - (n + 1 - 1) * g.agsize else g.agsize)
          = List.replicate n g.agsize := by
        rw [List.eq_replicate_iff]
        refine ⟨by simp, ?_⟩
        intro b hb
        obtain ⟨a, ha, rfl⟩ := List.mem_map.mp hb
        have := List.mem_range.mp ha
        rw [if_neg (by omega)]
      rw [Geometry.Covered, hn', Nat.add_sub_cancel] at hc
      rw [hfull, List.sum_replicate, Nat.add_sub_cancel, smul_eq_mul]
      simp only [List.map_cons, List.map_nil, if_true, List.sum_cons, List.sum_nil]
      omega
    · exact (Nat.mul_le_mul_right _ h.dblocks_le).trans h.asked_mul_le
    · intro b hb
      have hbytes : params.askedBytes dev = b.toNat := by
        rw [Params.askedBytes, hb, Option.map_some, Option.getD_some]
      rw [← hbytes]
      exact (Nat.mul_le_mul_right _ h.dblocks_le).trans h.askedBlocks_mul_le

end Lengths

/-! ### `compute` returns -/

section Returns

variable {params : Params} {dev : UInt64} {logical physical : UInt32}

lemma validateBlocksize_returns : Returns (validateBlocksize params) := by
  refine Returns.bind (Returns.refuseIf _ _) fun _ _ => ?_
  refine Returns.bind (Returns.refuseIf _ _) fun _ _ => ?_
  exact Returns.bind (Returns.refuseIf _ _) fun _ _ => Returns.ok _

lemma validateSectorsize_returns {bs l p : ℕ} : Returns (validateSectorsize params bs l p) := by
  refine Returns.bind (Returns.refuseIf _ _) fun _ _ => ?_
  refine Returns.bind (Returns.refuseIf _ _) fun _ _ => ?_
  exact Returns.bind (Returns.refuseIf _ _) fun _ _ => Returns.ok _

lemma validateInodesize_returns {bs : ℕ} : Returns (validateInodesize params bs) :=
  Returns.bind (Returns.refuseIf _ _) fun _ _ => Returns.ok _

lemma validateDatadev_returns {size bl : ℕ} : Returns (validateDatadev params size bl) := by
  unfold validateDatadev
  rcases params.size with - | b
  · exact Returns.bind (Returns.ok _) fun _ _ =>
      Returns.bind (Returns.refuseIf _ _) fun _ _ => Returns.ok _
  · refine Returns.bind (Returns.refuseIf _ _) fun _ _ => Returns.bind (Returns.ok _) ?_
    exact fun _ _ => Returns.bind (Returns.refuseIf _ _) fun _ _ => Returns.ok _

/-- The default AG size is at least one AG in 32. -/
lemma defaultAgShift_le {bl d : ℕ} {m : Bool} : defaultAgShift bl d m ≤ 5 := by
  unfold defaultAgShift
  simp only
  split_ifs <;> omega

/-- The default AG size of a filesystem with at least one minimal AG is not zero. -/
lemma defaultAgSize_pos {bl d : ℕ} (hbl : bl ≤ 14) (hd : 1024 ≤ d) :
    0 < defaultAgSize bl d false := by
  have hmost : 0 < agMaxBlocks bl := by
    rw [agMaxBlocks, Nat.shiftRight_eq_div_pow]
    refine Nat.div_pos ?_ (Nat.two_pow_pos bl)
    have hpow : 2 ^ bl ≤ 2 ^ 14 := Nat.pow_le_pow_right (by norm_num) hbl
    rw [agMaxBytes]
    omega
  have hshift : 0 < d >>> defaultAgShift bl d false := by
    rw [Nat.shiftRight_eq_div_pow]
    have hpow : 2 ^ defaultAgShift bl d false ≤ 2 ^ 5 :=
      Nat.pow_le_pow_right (by norm_num) defaultAgShift_le
    exact Nat.div_pos (by omega) (Nat.two_pow_pos _)
  unfold defaultAgSize
  simp only
  split_ifs
  · exact hmost
  · exact hmost
  · omega
  · exact hshift

lemma calculateInitialAgGeometry_returns {bs bl d : ℕ} (hbs : 0 < bs) (hbl : bl ≤ 14)
    (hd : 1024 ≤ d) : Returns (calculateInitialAgGeometry params bs bl d) := by
  unfold calculateInitialAgGeometry
  split
  · refine Returns.bind (Returns.mod hbs) fun _ _ => ?_
    refine Returns.bind (Returns.refuseIf _ _) fun _ _ => ?_
    refine Returns.bind (Returns.div hbs) fun s _ => ?_
    refine Returns.bind (Returns.refuseIf _ _) fun _ h => ?_
    have hs := refuseIf_eq_ok.mp h
    exact Returns.bind (Returns.ceilDiv (by omega)) fun _ _ => Returns.ok _
  · refine Returns.bind (Returns.refuseIf _ _) fun _ h => ?_
    have hn := refuseIf_eq_ok.mp h
    exact Returns.bind (Returns.ceilDiv (by omega)) fun _ _ => Returns.ok _
  · have hpos := defaultAgSize_pos hbl hd
    refine Returns.bind (Returns.div hpos) fun _ _ => ?_
    exact Returns.bind (Returns.mod hpos) fun _ _ => Returns.ok _

lemma alignAgGeometry_returns {bl d s n : ℕ} (hs : 0 < s) (hd0 : 0 < d) (hd : d < 2 ^ 64)
    (hn : params.agcount = none → n = divCeil d s) :
    Returns (alignAgGeometry params bl d s n) := by
  rw [alignAgGeometry, mod_of_pos hs, ok_bind]
  by_cases h : d % s ≠ 0 ∧ d % s < agMinBlocks bl
  · rw [if_pos h]
    refine Returns.bind (Returns.refuseIf _ _) fun _ h => ?_
    have hnone : params.agcount = none := by simpa using refuseIf_eq_ok.mp h
    have hlt := divCeil_pred_mul_lt hd0 hs
    rw [hn hnone]
    refine Returns.bind (Returns.sub (divCeil_pos hd0 hs)) fun full hfull => ?_
    obtain ⟨-, rfl⟩ := sub_eq_ok.mp hfull
    exact Returns.bind (Returns.fit (by omega)) fun _ _ => Returns.ok _
  · rw [if_neg h]
    exact Returns.ok _

lemma validateAgGeometry_returns {bl d s n : ℕ} : Returns (validateAgGeometry bl d s n) := by
  refine Returns.bind (Returns.refuseIf _ _) fun _ _ => ?_
  refine Returns.bind (Returns.refuseIf _ _) fun _ _ => ?_
  exact Returns.bind (Returns.refuseIf _ _) fun _ _ => Returns.refuseIf _ _

lemma calculateImaxpct_returns {d bl : ℕ} : Returns (calculateImaxpct params d bl) := by
  unfold calculateImaxpct
  split
  · exact Returns.bind (Returns.refuseIf _ _) fun _ _ => Returns.ok _
  · split_ifs <;> exact Returns.ok _

lemma labelBytes_returns : Returns (labelBytes params) := by
  unfold labelBytes
  split
  · exact Returns.bind (Returns.refuseIf _ _) fun _ _ => Returns.ok _
  · exact Returns.ok _

/-- Sizing the log stays above zero in any AG of 1024 blocks: it gives up at most 15 of them
and the room of four inode chunks. -/
lemma Geometry.calculateLogSize_returns {g : Geometry} (hs : 1024 ≤ g.agsize)
    (hp : g.preallocBlocks ≤ 10) (hi : 64 * g.inodesize < 2 ^ 32)
    (hc : (64 * g.inodesize) >>> g.blocklog ≤ 32) : Returns g.calculateLogSize := by
  rw [calculateLogSize, agMaxUsable_eq]
  refine Returns.bind (Returns.refuseIf _ _) fun _ _ => ?_
  refine Returns.bind (Returns.sub (by omega)) fun usable hu => ?_
  obtain ⟨-, rfl⟩ := sub_eq_ok.mp hu
  refine Returns.bind (Returns.sub (by omega)) fun most hm => ?_
  obtain ⟨-, rfl⟩ := sub_eq_ok.mp hm
  refine Returns.bind (Returns.sub (by omega)) fun room _ => ?_
  refine Returns.bind (Returns.refuseIf _ _) fun _ _ => ?_
  by_cases h0 : g.agcount / 2 = 0
  · rw [if_pos h0]
    refine Returns.bind (Returns.fit hi) fun chunk hchunk => ?_
    obtain ⟨-, rfl⟩ := fit_eq_ok.mp hchunk
    rw [inodesPerChunk]
    exact Returns.bind (Returns.sub (by omega)) fun _ _ => Returns.ok _
  · rw [if_neg h0]
    exact Returns.ok _

lemma validateSupported_returns {g : Geometry} : Returns (validateSupported g) := by
  refine Returns.bind (Returns.refuseIf _ _) fun _ _ => ?_
  exact Returns.bind (Returns.refuseIf _ _) fun _ _ => Returns.refuseIf _ _

/-- **`compute` returns on every input**: no step overflows, underflows or divides by
zero. -/
theorem compute_returns : Returns (Geometry.compute params dev logical physical) := by
  rw [Geometry.compute]
  refine Returns.bind (Returns.refuseIf _ _) fun _ _ => ?_
  refine Returns.bind validateBlocksize_returns fun bs hbs => ?_
  obtain ⟨-, bl, hbl, hbl', rfl⟩ := validateBlocksize_eq_ok.mp hbs
  refine Returns.bind validateSectorsize_returns fun ss hss => ?_
  obtain ⟨-, ⟨sl, hsl, hsl', rfl⟩, hssle, -⟩ := validateSectorsize_eq_ok.mp hss
  refine Returns.bind validateInodesize_returns fun is his => ?_
  obtain ⟨-, ⟨il, hil, hil', rfl⟩, hisle⟩ := validateInodesize_eq_ok.mp his
  rw [pow2Log_two_pow bl (by omega), pow2Log_two_pow il (by omega)]
  refine Returns.bind validateDatadev_returns fun d hd => ?_
  obtain ⟨rfl, hle, hge⟩ := validateDatadev_eq_ok.mp hd
  have hmin := agMinBlocks_ge hbl'
  have hd64 : params.askedBytes dev.toNat >>> bl < 2 ^ 64 := by
    have h1 : dev.toNat >>> bl ≤ dev.toNat := Nat.shiftRight_le _ _
    have h2 := dev.toNat_lt
    omega
  have hbs0 := Nat.two_pow_pos bl
  refine Returns.bind (calculateInitialAgGeometry_returns hbs0 hbl' (by omega)) fun r hr => ?_
  obtain ⟨s, n⟩ := r
  obtain ⟨-, hn, hs, hn0, -⟩ := (calculateInitialAgGeometry_eq_ok hbs0 (by omega)).mp hr
  have hnone : params.agcount = none → n = divCeil (params.askedBytes dev.toNat >>> bl) s :=
    fun h => hn.trans (askedAgcount_of_chosen fun _ => h)
  refine Returns.bind (alignAgGeometry_returns hs (by omega) hd64 hnone) fun r hr => ?_
  refine Returns.bind validateAgGeometry_returns fun _ hag => ?_
  obtain ⟨hsmin, hsmax, -, -⟩ := validateAgGeometry_eq_ok.mp hag
  refine Returns.bind calculateImaxpct_returns fun pct _ => ?_
  refine Returns.bind labelBytes_returns fun lab _ => ?_
  have hil2 : il < bl := by
    have h2 : 2 ^ bl = 2 ^ (bl - 1) * 2 := by rw [← pow_succ]; congr 1; omega
    rw [h2, Nat.mul_div_cancel _ (by norm_num)] at hisle
    have := (Nat.pow_le_pow_iff_right (by norm_num : 1 < 2)).mp hisle
    omega
  refine Returns.bind (Returns.div (Nat.two_pow_pos il)) fun _ _ => ?_
  refine Returns.bind (Returns.sub hil2.le) fun _ _ => ?_
  have hs30 := agMaxBlocks_lt hbl
  obtain ⟨l, hl, -⟩ := log2Roundup_spec (i := s) (by omega)
  rw [hl, ok_bind]
  refine Returns.bind (Geometry.calculateLogSize_returns ?_ ?_ ?_ ?_) fun _ _ => ?_
  · exact hmin.trans hsmin
  · exact (Geometry.preallocBlocks_bounds (Nat.two_pow_pos sl) hssle).2
  · have hpow : 2 ^ il ≤ 2 ^ 11 := Nat.pow_le_pow_right (by norm_num) hil'
    change 64 * 2 ^ il < 2 ^ 32
    omega
  · exact inodes_shiftRight_le hil2
  · exact Returns.bind validateSupported_returns fun _ _ => Returns.ok _

end Returns

/-! ### The tiling of what `compute` returns -/

/-- **`compute` returns on every input, and the AGs of a geometry it makes tile the
filesystem exactly when an AG count given without an AG size leaves blocks for the last
AG.** -/
theorem compute_tiles_iff (params : Params) (dev : UInt64) (logical physical : UInt32) :
    Returns (Geometry.compute params dev logical physical) ∧
      ∀ g, Geometry.compute params dev logical physical = .ok g →
        (g.Tiles dev.toNat params.size ↔ params.CountCovers dev.toNat) := by
  refine ⟨compute_returns, fun g hg => ?_⟩
  have h := compute_eq_ok.mp hg
  exact (h.tiles_iff dev.toNat_lt).trans h.covered_iff

/-- Ten GiB in three AGs are tiled. -/
theorem compute_tiles_three : ∃ g, Geometry.compute { agcount := some 3 } 10737418240 512 512
    = .ok g ∧ g.Tiles 10737418240 none := by
  refine ⟨_, rfl, ((compute_tiles_iff { agcount := some 3 } 10737418240 512 512).2 _ rfl).mpr ?_⟩
  rintro - n ⟨⟩
  decide +kernel

/-- Twenty thousand AGs asked for on 327983600 blocks: 19999 AGs of 16400 blocks use them
up, and `compute` returns a last AG of no blocks. -/
theorem compute_not_tiles : ¬ ∀ (params : Params) (dev : UInt64) (logical physical : UInt32),
    Returns (Geometry.compute params dev logical physical) ∧
      ∀ g, Geometry.compute params dev logical physical = .ok g →
        g.Tiles dev.toNat params.size := by
  intro h
  obtain ⟨-, h⟩ := h { agcount := some 20000 } 1343420825600 512 512
  obtain ⟨len, hlen, hge, -⟩ := (h _ rfl).agBlocks 19999 (by decide)
  obtain rfl : 0 = len := Except.ok.inj hlen
  exact absurd hge (by decide)

end MkfsXfs
