import MkfsXfs.Geometry.Steps

/-!
What `Geometry::compute` accepts: `Accepted` collects, as named facts, what the steps of
`compute` leave behind, and `compute_eq_ok` says that `compute` returns `g` exactly when
`g` is accepted.  The section after it reads off the bounds the later proofs share: the
preallocated blocks are at most ten (`Accepted.prealloc_le`), an AG has at least 1024
blocks and fewer than `2^30` (`Accepted.agsize_ge`, `Accepted.agsize_lt`), the data blocks
fit the device (`Accepted.bytes_le`).
-/

namespace MkfsXfs

open Checked

/-- The geometry `g` is what `compute` makes of the parameters on a device of `dev` bytes
with the given sectors. -/
structure Accepted (params : Params) (dev logical physical : ℕ) (g : Geometry) : Prop where
  features : g.features = params.features
  inobtcount : ¬ (params.features.inobtcount ∧ !params.features.finobt)
  asked_blocksize : g.blocksize = (params.blockSize.map UInt32.toNat).getD 4096
  blocklog_ge : 10 ≤ g.blocklog
  blocklog_le : g.blocklog ≤ 14
  blocksize : g.blocksize = 2 ^ g.blocklog
  asked_sectsize : g.sectsize
    = chooseSectorsize params g.blocksize (max logical minSectorsize) physical
  sectlog_ge : 9 ≤ g.sectlog
  sectlog_le : g.sectlog ≤ g.blocklog
  sectsize : g.sectsize = 2 ^ g.sectlog
  logical_le : max logical minSectorsize ≤ g.sectsize
  lsectsize : g.lsectsize = g.sectsize
  lsectlog : g.lsectlog = g.sectlog
  asked_inodesize : g.inodesize = (params.inodeSize.map UInt32.toNat).getD 512
  inodelog_ge : 9 ≤ g.inodelog
  inodelog_le : g.inodelog ≤ 11
  inodelog_lt : g.inodelog < g.blocklog
  inodesize : g.inodesize = 2 ^ g.inodelog
  inopblock : g.inopblock = g.blocksize / g.inodesize
  inopblog : g.inopblog = g.blocklog - g.inodelog
  dirblocklog : g.dirblocklog = if g.blocksize < 4096 then 12 else g.blocklog
  /-- the blocks asked for are on the device -/
  asked_le : params.askedBytes dev >>> g.blocklog ≤ dev >>> g.blocklog
  asked_ge : agMinBlocks g.blocklog ≤ params.askedBytes dev >>> g.blocklog
  agsize : g.agsize
    = params.askedAgsize g.blocksize g.blocklog (params.askedBytes dev >>> g.blocklog)
  agsize_whole : ∀ b, params.agsize = some b → b.toNat % g.blocksize = 0
  /-- the blocks and AGs left after a last AG too small is dropped -/
  aligned : if LastTooSmall g.blocklog (params.askedBytes dev >>> g.blocklog) g.agsize
    then params.agcount = none ∧
      g.agcount + 1 = params.askedAgcount (params.askedBytes dev >>> g.blocklog) g.agsize ∧
      g.dblocks = g.agcount * g.agsize
    else g.agcount = params.askedAgcount (params.askedBytes dev >>> g.blocklog) g.agsize ∧
      g.dblocks = params.askedBytes dev >>> g.blocklog
  agsize_min : agMinBlocks g.blocklog ≤ g.agsize
  agsize_max : g.agsize ≤ agMaxBlocks g.blocklog
  agsize_le : g.agsize ≤ g.dblocks
  agcount_le : g.agcount ≤ maxAgnumber
  imaxpct : calculateImaxpct params g.dblocks g.blocklog = .ok g.imaxpct
  label : labelBytes params = .ok g.label
  agblklog : log2Roundup g.agsize = .ok g.agblklog
  logagno : g.logagno = g.agcount / 2
  logAgbno : g.logAgbno = g.preallocBlocks
  logblocks : g.logblocks = g.logSize
  dblocks_ge : (300 * mib) >>> g.blocklog ≤ g.dblocks
  logblocks_ge : (64 * mib) >>> g.blocklog ≤ g.logblocks
  agcount_ge : 2 ≤ g.agcount

/-! ### Bounds on the positions -/

/-- The four header sectors take one to four blocks. -/
lemma Geometry.headerBlocks_bounds {g : Geometry} (h0 : 0 < g.sectsize)
    (h : g.sectsize ≤ g.blocksize) : 1 ≤ g.headerBlocks ∧ g.headerBlocks ≤ 4 := by
  have hbs : 0 < g.blocksize := by omega
  rw [headerBlocks, bs, divCeil]
  constructor
  · rw [Nat.one_le_div_iff hbs]; omega
  · have hlt : (4 * g.sectsize + g.blocksize - 1) / g.blocksize < 5 := by
      rw [Nat.div_lt_iff_lt_mul hbs]; omega
    omega

/-- The preallocated blocks are four to ten. -/
lemma Geometry.preallocBlocks_bounds {g : Geometry} (h0 : 0 < g.sectsize)
    (h : g.sectsize ≤ g.blocksize) : 4 ≤ g.preallocBlocks ∧ g.preallocBlocks ≤ 10 := by
  have hh := g.headerBlocks_bounds h0 h
  have hf := Bool.toNat_le g.features.finobt
  have hr := Bool.toNat_le g.features.rmapbt
  have hc := Bool.toNat_le g.features.reflink
  rw [preallocBlocks_eq]
  omega

/-- An AG of at least 16 MiB has at least 1024 blocks. -/
lemma agMinBlocks_ge {bl : ℕ} (hbl : bl ≤ 14) : 1024 ≤ agMinBlocks bl := by
  rw [agMinBlocks, agMinBytes, Nat.shiftRight_eq_div_pow, Nat.le_div_iff_mul_le (by positivity)]
  calc 1024 * 2 ^ bl ≤ 1024 * 2 ^ 14 :=
        Nat.mul_le_mul_left _ (Nat.pow_le_pow_right (by norm_num) hbl)
    _ = 2 ^ 24 := by norm_num

/-- An AG under 1 TiB has fewer than `2^30` blocks. -/
lemma agMaxBlocks_lt {bl : ℕ} (hbl : 10 ≤ bl) : agMaxBlocks bl < 2 ^ 30 := by
  rw [agMaxBlocks, agMaxBytes, Nat.shiftRight_eq_div_pow, Nat.div_lt_iff_lt_mul (by positivity)]
  have h : 2 ^ 30 * 2 ^ 10 ≤ 2 ^ 30 * 2 ^ bl :=
    Nat.mul_le_mul_left _ (Nat.pow_le_pow_right (by norm_num) hbl)
  omega

/-! ### Bounds on an accepted geometry -/

section Bounds

variable {params : Params} {dev logical physical : ℕ} {g : Geometry}

/-- An accepted AG has at least 1024 blocks. -/
lemma Accepted.agsize_ge (h : Accepted params dev logical physical g) : 1024 ≤ g.agsize :=
  (agMinBlocks_ge h.blocklog_le).trans h.agsize_min

/-- An accepted AG has fewer than `2^30` blocks. -/
lemma Accepted.agsize_lt (h : Accepted params dev logical physical g) : g.agsize < 2 ^ 30 :=
  lt_of_le_of_lt h.agsize_max (agMaxBlocks_lt h.blocklog_ge)

lemma Accepted.sectsize_pos (h : Accepted params dev logical physical g) :
    0 < g.sectsize := by
  rw [h.sectsize]; positivity

lemma Accepted.blocksize_pos (h : Accepted params dev logical physical g) :
    0 < g.blocksize := by
  rw [h.blocksize]; positivity

lemma Accepted.sectsize_ge (h : Accepted params dev logical physical g) : 2 ^ 9 ≤ g.sectsize := by
  rw [h.sectsize]
  exact Nat.pow_le_pow_right (by norm_num) h.sectlog_ge

lemma Accepted.sectsize_le (h : Accepted params dev logical physical g) :
    g.sectsize ≤ g.blocksize := by
  rw [h.sectsize, h.blocksize]
  exact Nat.pow_le_pow_right (by norm_num) h.sectlog_le

lemma Accepted.headerBlocks_bounds (h : Accepted params dev logical physical g) :
    1 ≤ g.headerBlocks ∧ g.headerBlocks ≤ 4 :=
  g.headerBlocks_bounds h.sectsize_pos h.sectsize_le

lemma Accepted.preallocBlocks_bounds (h : Accepted params dev logical physical g) :
    4 ≤ g.preallocBlocks ∧ g.preallocBlocks ≤ 10 :=
  g.preallocBlocks_bounds h.sectsize_pos h.sectsize_le

/-- The preallocated blocks and the five kept back fit an AG. -/
lemma Accepted.prealloc_le (h : Accepted params dev logical physical g) :
    g.preallocBlocks + 5 ≤ g.agsize := by
  have h1 := h.preallocBlocks_bounds
  have h2 := h.agsize_ge
  omega

/-- The blocks asked for are counted in a 64-bit word. -/
lemma Accepted.asked_lt (h : Accepted params dev logical physical g) (hdev : dev < 2 ^ 64) :
    params.askedBytes dev >>> g.blocklog < 2 ^ 64 := by
  have h1 : dev >>> g.blocklog ≤ dev := Nat.shiftRight_le _ _
  have h2 := h.asked_le
  omega

end Bounds

/-! ### `compute` accepts exactly the accepted geometries -/

/-- The AG count and data blocks after alignment, in the form `alignAgGeometry` gives. -/
lemma aligned_iff {params : Params} {bl d s : ℕ} {r : ℕ × ℕ} (hd : d < 2 ^ 64)
    (hd0 : 0 < d) (hs : 0 < s) (hn : 0 < params.askedAgcount d s) :
    alignAgGeometry params bl d s (params.askedAgcount d s) = .ok r ↔
      if LastTooSmall bl d s
        then params.agcount = none ∧ r.2 + 1 = params.askedAgcount d s ∧ r.1 = r.2 * s
        else r.2 = params.askedAgcount d s ∧ r.1 = d := by
  rw [alignAgGeometry_eq_ok hs]
  obtain ⟨a, c⟩ := r
  by_cases h : LastTooSmall bl d s
  · simp only [if_pos h, Prod.mk.injEq]
    constructor
    · rintro ⟨hnone, -, -, rfl, rfl⟩
      exact ⟨hnone, by omega, rfl⟩
    · rintro ⟨hnone, hc, ha⟩
      have hcount : params.askedAgcount d s = divCeil d s := by
        simp only [Params.askedAgcount, hnone]
        cases params.agsize <;> rfl
      have hlt := divCeil_pred_mul_lt hd0 hs
      rw [← hcount] at hlt
      have hc' : params.askedAgcount d s - 1 = c := by omega
      refine ⟨hnone, hn, by omega, ?_, hc'.symm⟩
      rw [hc']
      exact ha
  · simp only [if_neg h, Prod.mk.injEq, and_comm]

/-- What `compute` returns is accepted. -/
lemma Accepted.of_compute {params : Params} {dev : UInt64} {logical physical : UInt32}
    {g : Geometry} (h : Geometry.compute params dev logical physical = .ok g) :
    Accepted params dev.toNat logical.toNat physical.toNat g := by
  simp only [Geometry.compute, refuseIf_bind_eq_ok] at h
  obtain ⟨hfeat, h⟩ := h
  obtain ⟨bs, hbs, h⟩ := bind_eq_ok.mp h
  obtain ⟨hbs, bl, hbl, hbl', rfl⟩ := validateBlocksize_eq_ok.mp hbs
  rw [pow2Log_two_pow bl (by omega)] at h
  obtain ⟨ss, hss, h⟩ := bind_eq_ok.mp h
  obtain ⟨hss, ⟨sl, hsl, hsl', rfl⟩, hssle, hlog⟩ := validateSectorsize_eq_ok.mp hss
  rw [pow2Log_two_pow sl (by omega)] at h
  obtain ⟨is, his, h⟩ := bind_eq_ok.mp h
  obtain ⟨his, ⟨il, hil, hil', rfl⟩, hisle⟩ := validateInodesize_eq_ok.mp his
  rw [pow2Log_two_pow il (by omega)] at h
  obtain ⟨asked, hasked, h⟩ := bind_eq_ok.mp h
  obtain ⟨rfl, hle, hge⟩ := validateDatadev_eq_ok.mp hasked
  have hge' : 0 < params.askedBytes dev.toNat >>> bl := by
    have := agMinBlocks_ge hbl'; omega
  obtain ⟨⟨s, n⟩, hinit, h⟩ := bind_eq_ok.mp h
  obtain ⟨hs, rfl, hspos, hnpos, hwhole⟩ :=
    (calculateInitialAgGeometry_eq_ok (Nat.two_pow_pos bl) hge').mp hinit
  obtain ⟨⟨d, c⟩, halign, h⟩ := bind_eq_ok.mp h
  have hd64 : params.askedBytes dev.toNat >>> bl < 2 ^ 64 := by
    have h1 : dev.toNat >>> bl ≤ dev.toNat := Nat.shiftRight_le _ _
    have h2 := dev.toNat_lt
    omega
  have halign := (aligned_iff hd64 hge' hspos hnpos).mp halign
  obtain ⟨⟨⟩, hvalid, h⟩ := bind_eq_ok.mp h
  obtain ⟨hmin, hmax, hsd, hcmax⟩ := validateAgGeometry_eq_ok.mp hvalid
  obtain ⟨pct, hpct, h⟩ := bind_eq_ok.mp h
  obtain ⟨lab, hlab, h⟩ := bind_eq_ok.mp h
  simp only [div_bind_eq_ok, sub_bind_eq_ok] at h
  obtain ⟨-, hilbl, h⟩ := h
  obtain ⟨agl, hagl, h⟩ := bind_eq_ok.mp h
  obtain ⟨g', hg', h⟩ := bind_eq_ok.mp h
  obtain ⟨⟨⟩, hsupp, h⟩ := bind_eq_ok.mp h
  obtain rfl : g' = g := by simpa using h
  obtain ⟨hdb, hlb, hc2⟩ := validateSupported_eq_ok.mp hsupp
  rw [Geometry.calculateLogSize_agcount hg'] at hc2
  obtain ⟨-, -, rfl⟩ := (Geometry.calculateLogSize_eq_ok hbl' hc2).mp hg'
  have hslbl : sl ≤ bl := (Nat.pow_le_pow_iff_right (by norm_num)).mp hssle
  have hilt : il < bl := by
    have h2 : 2 ^ bl = 2 ^ (bl - 1) * 2 := by rw [← pow_succ]; congr 1; omega
    rw [h2, Nat.mul_div_cancel _ (by norm_num)] at hisle
    have := (Nat.pow_le_pow_iff_right (by norm_num : 1 < 2)).mp hisle
    omega
  exact
    { features := rfl, inobtcount := hfeat, asked_blocksize := hbs, blocklog_ge := hbl,
      blocklog_le := hbl', blocksize := rfl, asked_sectsize := hss, sectlog_ge := hsl,
      sectlog_le := hslbl, sectsize := rfl, logical_le := hlog, lsectsize := rfl,
      lsectlog := rfl, asked_inodesize := his, inodelog_ge := hil, inodelog_le := hil',
      inodelog_lt := hilt, inodesize := rfl, inopblock := rfl, inopblog := rfl,
      dirblocklog := rfl, asked_le := hle, asked_ge := hge, agsize := hs,
      agsize_whole := hwhole, aligned := halign, agsize_min := hmin, agsize_max := hmax,
      agsize_le := hsd, agcount_le := hcmax, imaxpct := hpct, label := hlab, agblklog := hagl,
      logagno := rfl, logAgbno := rfl, logblocks := rfl, dblocks_ge := hdb,
      logblocks_ge := hlb, agcount_ge := hc2 }

/-- An accepted geometry is what `compute` returns. -/
lemma Accepted.compute_eq {params : Params} {dev : UInt64} {logical physical : UInt32}
    {g : Geometry} (h : Accepted params dev.toNat logical.toNat physical.toNat g) :
    Geometry.compute params dev logical physical = .ok g := by
  have hmin := agMinBlocks_ge h.blocklog_le
  have hge := h.asked_ge
  have hspos : 0 < g.agsize := by have := h.agsize_ge; omega
  have hd64 := h.asked_lt dev.toNat_lt
  have hnpos : 0 < params.askedAgcount (params.askedBytes dev.toNat >>> g.blocklog)
      g.agsize := by
    have hal := h.aligned
    have hc2 := h.agcount_ge
    split_ifs at hal <;> omega
  have hbs := validateBlocksize_eq_ok.mpr
    ⟨h.asked_blocksize, g.blocklog, h.blocklog_ge, h.blocklog_le, h.blocksize⟩
  have hss := validateSectorsize_eq_ok.mpr ⟨h.asked_sectsize,
    ⟨g.sectlog, h.sectlog_ge, by have := h.sectlog_le; have := h.blocklog_le; omega,
      h.sectsize⟩,
    h.sectsize_le, h.logical_le⟩
  have his := validateInodesize_eq_ok.mpr ⟨h.asked_inodesize,
    ⟨g.inodelog, h.inodelog_ge, h.inodelog_le, h.inodesize⟩, show g.inodesize ≤ g.blocksize / 2 by
      rw [h.inodesize, h.blocksize, Nat.le_div_iff_mul_le (by norm_num), ← pow_succ]
      exact Nat.pow_le_pow_right (by norm_num) h.inodelog_lt⟩
  have hblog : pow2Log g.blocksize = g.blocklog := by
    rw [h.blocksize, pow2Log_two_pow _ (by have := h.blocklog_le; omega)]
  have hslog : pow2Log g.sectsize = g.sectlog := by
    rw [h.sectsize, pow2Log_two_pow _ (by have := h.sectlog_le; have := h.blocklog_le; omega)]
  have hilog : pow2Log g.inodesize = g.inodelog := by
    rw [h.inodesize, pow2Log_two_pow _ (by have := h.inodelog_le; omega)]
  have hinit : calculateInitialAgGeometry params g.blocksize g.blocklog
      (params.askedBytes dev.toNat >>> g.blocklog) = .ok (g.agsize,
        params.askedAgcount (params.askedBytes dev.toNat >>> g.blocklog) g.agsize) :=
    (calculateInitialAgGeometry_eq_ok h.blocksize_pos (by omega)).mpr
      ⟨h.agsize, rfl, hspos, hnpos, h.agsize_whole⟩
  have halign := (aligned_iff (r := (g.dblocks, g.agcount)) hd64 (by omega) hspos hnpos).mpr
    h.aligned
  -- the geometry handed to `calculateLogSize`, its log not placed yet
  have hlog : Geometry.calculateLogSize { g with
      logblocks := 0, logagno := 0, logAgbno := 0 } = .ok g := by
    refine (Geometry.calculateLogSize_eq_ok h.blocklog_le h.agcount_ge).mpr
      ⟨h.dblocks_ge, h.prealloc_le, ?_⟩
    rw [← h.logagno, ← h.logblocks, ← h.logAgbno]
  have hi0 : g.inodesize ≠ 0 := by rw [h.inodesize]; positivity
  rw [Geometry.compute]
  refine refuseIf_bind_eq_ok.mpr ⟨h.inobtcount, bind_eq_ok.mpr ⟨_, hbs, ?_⟩⟩
  refine bind_eq_ok.mpr ⟨_, hss, bind_eq_ok.mpr ⟨_, his, ?_⟩⟩
  rw [hblog, hslog, hilog]
  refine bind_eq_ok.mpr ⟨_, validateDatadev_eq_ok.mpr ⟨rfl, h.asked_le, h.asked_ge⟩, ?_⟩
  refine bind_eq_ok.mpr ⟨_, hinit, bind_eq_ok.mpr ⟨_, halign, ?_⟩⟩
  refine bind_eq_ok.mpr ⟨(), validateAgGeometry_eq_ok.mpr
    ⟨h.agsize_min, h.agsize_max, h.agsize_le, h.agcount_le⟩, ?_⟩
  refine bind_eq_ok.mpr ⟨_, h.imaxpct, bind_eq_ok.mpr ⟨_, h.label, ?_⟩⟩
  refine div_bind_eq_ok.mpr ⟨hi0, sub_bind_eq_ok.mpr ⟨le_of_lt h.inodelog_lt, ?_⟩⟩
  refine bind_eq_ok.mpr ⟨_, h.agblklog, bind_eq_ok.mpr ⟨g, ?_, ?_⟩⟩
  · convert hlog using 2
    simp only [h.lsectsize, h.lsectlog, h.inopblock, h.inopblog, h.dirblocklog, h.features]
  · exact bind_eq_ok.mpr
      ⟨(), validateSupported_eq_ok.mpr ⟨h.dblocks_ge, h.logblocks_ge, h.agcount_ge⟩, rfl⟩

/-- **`compute` accepts exactly the accepted geometries.** -/
theorem compute_eq_ok {params : Params} {dev : UInt64} {logical physical : UInt32}
    {g : Geometry} : Geometry.compute params dev logical physical = .ok g ↔
      Accepted params dev.toNat logical.toNat physical.toNat g :=
  ⟨Accepted.of_compute, Accepted.compute_eq⟩

end MkfsXfs
