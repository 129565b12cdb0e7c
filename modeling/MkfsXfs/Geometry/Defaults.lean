import MkfsXfs.Geometry.Tiling

/-!
The default AG geometry.  When neither an AG size nor an AG count is asked for, the AG size
is a quarter of the blocks, at most the largest AG (`defaultAgSize_eq`), and four AGs or
more are left when a last one too small is dropped (`Accepted.four_le_agcount`).
`default_accepted` goes the other way: what the defaults ask for on a device of 300 MiB or
more is accepted.
-/

namespace MkfsXfs

open Checked

/-! ### The thresholds in blocks -/

lemma agMaxBlocks_add_one : ∀ bl ≤ 14, agMaxBlocks bl + 1 = tib >>> bl := by decide

lemma tib_mul_shiftRight : ∀ bl ≤ 14, (32 * tib) >>> bl = 32 * (tib >>> bl) ∧
    (4 * tib) >>> bl = 4 * (tib >>> bl) := by decide

/-- In blocks: 128 MiB is under 300 MiB, 300 MiB is 18 minimal AGs and is far from the
largest AG. -/
lemma min_thresholds : ∀ bl ≤ 14, (128 * mib) >>> bl ≤ (300 * mib) >>> bl ∧
    18 * agMinBlocks bl ≤ (300 * mib) >>> bl ∧ (300 * mib) >>> bl ≤ agMaxBlocks bl ∧
    (300 * mib) >>> bl = 75 * (4 * mib) >>> bl ∧ (64 * mib) >>> bl = 4 * agMinBlocks bl := by
  decide

/-! ### The default AG size -/

/-- The default AG size is a quarter of the blocks, at most the largest AG. -/
lemma defaultAgSize_eq {bl d : ℕ} (hbl : bl ≤ 14) (hd : (300 * mib) >>> bl ≤ d) :
    defaultAgSize bl d false = min (divCeil d 4) (agMaxBlocks bl) := by
  have hmax := agMaxBlocks_add_one bl hbl
  obtain ⟨h32, h4⟩ := tib_mul_shiftRight bl hbl
  have hmin := (min_thresholds bl hbl).1
  have hceil : divCeil d 4 = (d + 3) / 4 := rfl
  have hshift : defaultAgShift bl d false = 2 := by
    rw [defaultAgShift]
    exact if_pos ⟨rfl, hmin.trans hd⟩
  have hand : d &&& ((1 <<< 2) - 1) = d % 4 := Nat.and_two_pow_sub_one_eq_mod d 2
  have hquarter : d >>> 2 = d / 4 := Nat.shiftRight_eq_div_pow d 2
  simp only [defaultAgSize, hshift, hand, hquarter, h32, h4, Bool.not_false, true_and]
  split_ifs <;> omega

/-- The default AG size leaves four AGs or more, also when the last is dropped. -/
lemma defaultAgSize_spec {bl d s : ℕ} (hbl : bl ≤ 14) (hd : (300 * mib) >>> bl ≤ d)
    (hs : s = defaultAgSize bl d false) :
    75 * (4 * mib) >>> bl ≤ 4 * s ∧ s ≤ agMaxBlocks bl ∧
      if LastTooSmall bl d s then 5 ≤ divCeil d s else 4 ≤ divCeil d s := by
  obtain ⟨-, h18, h300, h75, -⟩ := min_thresholds bl hbl
  have hlow : 1024 ≤ agMinBlocks bl := agMinBlocks_ge hbl
  rw [defaultAgSize_eq hbl hd] at hs
  have hceil : divCeil d 4 = (d + 3) / 4 := rfl
  refine ⟨by omega, by omega, ?_⟩
  have hcover := le_divCeil_mul (n := d) (m := s) (by omega)
  have hcount : ∀ k, k * s < d → k < divCeil d s := by
    intro k hk
    by_contra hle
    have := Nat.mul_le_mul_right s (not_lt.mp hle)
    omega
  by_cases hbig : agMaxBlocks bl < divCeil d 4
  · have h5 := hcount 4 (by omega)
    split_ifs <;> omega
  · -- a quarter: the last of four AGs is not too small
    have h4 := hcount 3 (by omega)
    rw [if_neg]
    · omega
    · rintro ⟨hne, hlt⟩
      have hdm := Nat.div_add_mod d s
      have hq3 : 3 ≤ d / s := (Nat.le_div_iff_mul_le (by omega)).mpr (by omega)
      rcases hq3.eq_or_lt with hq | hq
      · rw [← hq] at hdm
        omega
      · have := Nat.mul_le_mul_left s hq
        omega

/-- **Without an AG size and an AG count to honour, there are four AGs or more.** -/
theorem Accepted.four_le_agcount {params : Params} {dev logical physical : ℕ} {g : Geometry}
    (h : Accepted params dev logical physical g) (hs : params.agsize = none)
    (hn : params.agcount = none) : 4 ≤ g.agcount := by
  have hal := h.aligned
  have hagsize := h.agsize
  have hd := h.dblocks_ge.trans h.dblocks_le
  rw [h.askedBlocks_eq] at hal hagsize
  rw [Params.askedAgsize, hs, hn] at hagsize
  obtain ⟨-, -, hcount⟩ := defaultAgSize_spec h.blocklog_le hd hagsize
  rw [askedAgcount_of_chosen fun _ => hn] at hal
  split_ifs at hal hcount with hlast <;> omega

/-! ### The defaults are accepted -/

/-- Nothing is asked for but perhaps a block size, an inode percentage and a label, each one
the format allows, on a device whose logical sector fits a block. -/
structure DefaultRequest (params : Params) (logical physical : ℕ) : Prop where
  size : params.size = none
  agsize : params.agsize = none
  agcount : params.agcount = none
  sectorSize : params.sectorSize = none
  inodeSize : params.inodeSize = none
  features : params.features = {}
  blocksize : ∃ k, 10 ≤ k ∧ k ≤ 14 ∧ params.blocksize = 2 ^ k
  imaxpct : ∀ p, params.imaxpct = some p → p.toNat ≤ 100
  label : ∀ l, params.label = some l → l.utf8ByteSize ≤ 12
  logical_pow : ∃ k, 9 ≤ k ∧ logical = 2 ^ k
  logical_le : logical ≤ params.blocksize
  physical_pow : ∃ k, physical = 2 ^ k

section Request

variable {params : Params} {dev logical physical : ℕ}

/-- The default sector size is a power of two between the logical sector and a block. -/
lemma DefaultRequest.sectsize (h : DefaultRequest params logical physical) :
    ∃ k, 9 ≤ k ∧
      chooseSectorsize params params.blocksize (max logical minSectorsize) physical = 2 ^ k ∧
      logical ≤ 2 ^ k ∧ 2 ^ k ≤ params.blocksize := by
  obtain ⟨l, hl, rfl⟩ := h.logical_pow
  obtain ⟨p, rfl⟩ := h.physical_pow
  have hle := h.logical_le
  have hmin : max (2 ^ l) minSectorsize = 2 ^ l :=
    max_eq_left (Nat.pow_le_pow_right (show 0 < 2 by norm_num) hl)
  have hself : ∃ k, 9 ≤ k ∧ 2 ^ l = 2 ^ k ∧ 2 ^ l ≤ 2 ^ k ∧ 2 ^ k ≤ params.blocksize :=
    ⟨l, hl, rfl, le_refl _, hle⟩
  have hmax : max (2 ^ p) (2 ^ l) = 2 ^ max p l := by
    rcases le_total p l with hpl | hpl
    · rw [max_eq_right hpl, max_eq_right (Nat.pow_le_pow_right (by norm_num) hpl)]
    · rw [max_eq_left hpl, max_eq_left (Nat.pow_le_pow_right (by norm_num) hpl)]
  rw [hmin]
  simp only [chooseSectorsize, h.sectorSize, hmax]
  by_cases hbig : 2 ^ max p l > maxSectorsize
  · rw [if_pos hbig, ite_self]
    exact hself
  · rw [if_neg hbig]
    split_ifs with hb
    · exact hself
    · refine ⟨max p l, hl.trans (le_max_right _ _), rfl,
        Nat.pow_le_pow_right (by norm_num) (le_max_right _ _), ?_⟩
      by_contra hlt
      exact hb ⟨by omega, hle⟩

lemma calculateImaxpct_isOk (d bl : ℕ) (h : ∀ p, params.imaxpct = some p → p.toNat ≤ 100) :
    ∃ pct, calculateImaxpct params d bl = .ok pct := by
  cases hp : params.imaxpct with
  | none =>
      simp only [calculateImaxpct, hp]
      split_ifs <;> exact ⟨_, rfl⟩
  | some p =>
      simp only [calculateImaxpct, hp]
      exact ⟨_, refuseIf_bind_eq_ok.mpr ⟨by have := h p hp; omega, rfl⟩⟩

lemma labelBytes_isOk (h : ∀ l, params.label = some l → l.utf8ByteSize ≤ 12) :
    ∃ bytes, labelBytes params = .ok bytes := by
  cases hl : params.label with
  | none =>
      simp only [labelBytes, hl]
      exact ⟨_, rfl⟩
  | some l =>
      simp only [labelBytes, hl]
      exact ⟨_, refuseIf_bind_eq_ok.mpr ⟨by have := h l hl; omega, rfl⟩⟩

/-- The default AGs of a device are few enough, and hold 300 MiB also with the last
dropped. -/
lemma default_counts {bl d s : ℕ} (hbl : bl ≤ 14) (hd : (300 * mib) >>> bl ≤ d)
    (hd64 : d ≤ (2 ^ 64 - 1) >>> bl) (hs : s = defaultAgSize bl d false) :
    divCeil d s ≤ maxAgnumber ∧
      (LastTooSmall bl d s → (300 * mib) >>> bl ≤ (divCeil d s - 1) * s) := by
  obtain ⟨hlow, hmax, hcount⟩ := defaultAgSize_spec hbl hd hs
  obtain ⟨-, h18, h300, -, -⟩ := min_thresholds bl hbl
  have hm := agMinBlocks_ge hbl
  have hquarter := hs.trans (defaultAgSize_eq hbl hd)
  have hceil : divCeil d 4 = (d + 3) / 4 := rfl
  have hpred := divCeil_pred_mul_lt (n := d) (m := s) (by omega) (by omega)
  have hfew : ∀ k, d ≤ k * s → divCeil d s ≤ k := by
    intro k hk
    have hlt : divCeil d s - 1 < k := lt_of_mul_lt_mul_right (by omega) (Nat.zero_le s)
    omega
  by_cases hbig : agMaxBlocks bl < divCeil d 4
  · have hmost : ∀ bl ≤ 14, (2 ^ 64 - 1) >>> bl ≤ 2 ^ 25 * agMaxBlocks bl := by decide
    have h25 := hmost bl hbl
    have hsmost : s = agMaxBlocks bl := by omega
    refine ⟨(hfew (2 ^ 25) (by rw [hsmost]; omega)).trans (by decide), fun hlast => ?_⟩
    rw [if_pos hlast] at hcount
    calc (300 * mib) >>> bl ≤ 1 * s := by omega
      _ ≤ (divCeil d s - 1) * s := Nat.mul_le_mul_right s (by omega)
  · have h4 := hfew 4 (by omega)
    refine ⟨h4.trans (by decide), fun hlast => ?_⟩
    rw [if_pos hlast] at hcount
    omega

/-- The default layout of `d` blocks: `n` AGs of `s` blocks, `a` blocks in all, a last AG too
small dropped. -/
structure DefaultAgs (bl d s a n : ℕ) : Prop where
  agsize : s = defaultAgSize bl d false
  counted : if LastTooSmall bl d s then n + 1 = divCeil d s ∧ a = n * s
    else n = divCeil d s ∧ a = d
  asked_ge : agMinBlocks bl ≤ d
  dblocks_ge : (300 * mib) >>> bl ≤ a
  agcount_ge : 4 ≤ n
  agcount_le : n ≤ maxAgnumber
  agsize_min : agMinBlocks bl ≤ s
  agsize_max : s ≤ agMaxBlocks bl
  agsize_le : s ≤ a
  /-- an AG has room for the least log -/
  room : (64 * mib) >>> bl + 15 ≤ s

/-- A device of 300 MiB or more has one. -/
lemma exists_defaultAgs {bl dev : ℕ} (hbl : bl ≤ 14) (hdev : dev < 2 ^ 64)
    (h300 : 300 * mib ≤ dev) : ∃ s a n, DefaultAgs bl (dev >>> bl) s a n := by
  have hd : (300 * mib) >>> bl ≤ dev >>> bl := by
    rw [Nat.shiftRight_eq_div_pow, Nat.shiftRight_eq_div_pow]
    exact Nat.div_le_div_right h300
  have hd64 : dev >>> bl ≤ (2 ^ 64 - 1) >>> bl := by
    rw [Nat.shiftRight_eq_div_pow, Nat.shiftRight_eq_div_pow]
    exact Nat.div_le_div_right (by omega)
  generalize dev >>> bl = d at hd hd64 ⊢
  obtain ⟨s, hs⟩ : ∃ s, s = defaultAgSize bl d false := ⟨_, rfl⟩
  obtain ⟨hlow, hmax, hcount⟩ := defaultAgSize_spec hbl hd hs
  obtain ⟨hfew, hdrop⟩ := default_counts hbl hd hd64 hs
  obtain ⟨-, h18, -, h75, h64⟩ := min_thresholds bl hbl
  have hmin : ∀ bl ≤ 14, 256 ≤ (4 * mib) >>> bl ∧ agMinBlocks bl = 4 * (4 * mib) >>> bl := by
    decide
  obtain ⟨h256, hm⟩ := hmin bl hbl
  -- the data blocks and the AG count
  obtain ⟨a, n, hal, ha, hn, hle, hsa⟩ : ∃ a n, (if LastTooSmall bl d s
      then n + 1 = divCeil d s ∧ a = n * s else n = divCeil d s ∧ a = d) ∧
      (300 * mib) >>> bl ≤ a ∧ 4 ≤ n ∧ n ≤ maxAgnumber ∧ s ≤ a := by
    have hone : 4 ≤ divCeil d s → 1 * s ≤ (divCeil d s - 1) * s := fun h4 =>
      Nat.mul_le_mul_right s (by omega)
    by_cases hlast : LastTooSmall bl d s
    · rw [if_pos hlast] at hcount
      have hsa := hone (by omega)
      refine ⟨(divCeil d s - 1) * s, divCeil d s - 1, ?_, hdrop hlast, by omega, by omega,
        by omega⟩
      rw [if_pos hlast]
      exact ⟨by omega, rfl⟩
    · rw [if_neg hlast] at hcount
      have hpred := divCeil_pred_mul_lt (n := d) (m := s) (by omega) (by omega)
      have hsa := hone hcount
      refine ⟨d, divCeil d s, ?_, hd, hcount, hfew, by omega⟩
      rw [if_neg hlast]
      exact ⟨rfl, rfl⟩
  exact ⟨s, a, n, hs, hal, by omega, ha, hn, hle, by omega, hmax, hsa, by omega⟩

/-- The default log has the 64 MiB that are its least. -/
lemma Geometry.logSize_ge {g : Geometry} (hbl : 10 ≤ g.blocklog) (hbl' : g.blocklog ≤ 14)
    (hroom : (64 * mib) >>> g.blocklog + (g.preallocBlocks + 5) ≤ g.agsize) :
    (64 * mib) >>> g.blocklog ≤ g.logSize := by
  have hcaps : ∀ bl ≤ 14, 10 ≤ bl → (64 * mib) >>> bl ≤ maxLogBlocks ∧
      (64 * mib) >>> bl ≤ maxLogBytes >>> bl := by
    decide
  obtain ⟨hblocks, hbytes⟩ := hcaps g.blocklog hbl' hbl
  rw [Geometry.logSize, Geometry.logCap]
  refine le_min (le_min (le_max_right _ _) ?_) (le_min hblocks hbytes)
  omega

/-- **The defaults are accepted on every device of 300 MiB or more.** -/
theorem default_accepted (h : DefaultRequest params logical physical) (hdev : dev < 2 ^ 64)
    (h300 : 300 * mib ≤ dev) : ∃ g, Accepted params dev logical physical g := by
  obtain ⟨bl, hbl, hbl', hbs⟩ := h.blocksize
  obtain ⟨sl, hsl, hss, hlog, hsb⟩ := h.sectsize
  obtain ⟨l, hl, hlogical⟩ := h.logical_pow
  have hsbl : sl ≤ bl := by
    rw [hbs] at hsb
    exact (Nat.pow_le_pow_iff_right (by norm_num)).mp hsb
  obtain ⟨s, a, n, hlay⟩ := exists_defaultAgs hbl' hdev h300
  have hroom := hlay.room
  obtain ⟨pct, hpct⟩ := calculateImaxpct_isOk a bl h.imaxpct
  obtain ⟨lab, hlab⟩ := labelBytes_isOk h.label
  have hs30 : s < 2 ^ 30 := hlay.agsize_max.trans_lt (agMaxBlocks_lt hbl)
  obtain ⟨agl, hagl, -⟩ := log2Roundup_spec (i := s) (by omega)
  have hbytes : params.askedBytes dev = dev := by rw [Params.askedBytes, h.size]; rfl
  have hcounts : params.askedAgcount (dev >>> bl) s = divCeil (dev >>> bl) s :=
    askedAgcount_of_chosen fun _ => h.agcount
  let g : Geometry :=
    { blocksize := params.blocksize, blocklog := bl, sectsize := 2 ^ sl, sectlog := sl,
      lsectsize := 2 ^ sl, lsectlog := sl, inodesize := 512, inodelog := 9,
      inopblock := params.blocksize / 512, inopblog := bl - 9,
      dirblocklog := if params.blocksize < 4096 then 12 else bl, dblocks := a, agsize := s,
      agcount := n, agblklog := agl, imaxpct := pct, logblocks := 0, logagno := 0,
      logAgbno := 0, features := params.features, label := lab }
  have hp : g.preallocBlocks ≤ 10 :=
    (Geometry.preallocBlocks_bounds (g := g) (Nat.two_pow_pos sl) hsb).2
  have hlogsize : (64 * mib) >>> bl ≤ g.logSize := by
    refine Geometry.logSize_ge (g := g) hbl hbl' ?_
    change (64 * mib) >>> bl + (g.preallocBlocks + 5) ≤ s
    omega
  refine ⟨{ g with
    logagno := n / 2, logblocks := g.logSize, logAgbno := g.preallocBlocks }, ?_⟩
  exact
    { features := rfl
      inobtcount := by
        rw [h.features]
        decide
      asked_blocksize := rfl
      blocklog_ge := hbl
      blocklog_le := hbl'
      blocksize := hbs
      asked_sectsize := hss.symm
      sectlog_ge := hsl
      sectlog_le := hsbl
      sectsize := rfl
      logical_le := by
        rw [max_eq_left]
        · exact hlog
        · rw [hlogical, minSectorsize]
          exact Nat.pow_le_pow_right (show 0 < 2 by norm_num) hl
      lsectsize := rfl
      lsectlog := rfl
      asked_inodesize := by rw [h.inodeSize]; rfl
      inodelog_ge := le_refl _
      inodelog_le := by change 9 ≤ 11; norm_num
      inodelog_lt := by change 9 < bl; omega
      inodesize := rfl
      inopblock := rfl
      inopblog := rfl
      dirblocklog := rfl
      asked_le := by rw [hbytes]
      asked_ge := by
        rw [hbytes]
        exact hlay.asked_ge
      agsize := by
        rw [hbytes, Params.askedAgsize, h.agsize, h.agcount]
        exact hlay.agsize
      agsize_whole := by
        intro b hb
        rw [h.agsize] at hb
        cases hb
      aligned := by
        rw [hbytes]
        change if LastTooSmall bl (dev >>> bl) s then params.agcount = none ∧
          n + 1 = params.askedAgcount (dev >>> bl) s ∧ a = n * s
          else n = params.askedAgcount (dev >>> bl) s ∧ a = dev >>> bl
        rw [hcounts]
        have hal := hlay.counted
        split_ifs at hal ⊢
        · exact ⟨h.agcount, hal⟩
        · exact hal
      agsize_min := hlay.agsize_min
      agsize_max := hlay.agsize_max
      agsize_le := hlay.agsize_le
      agcount_le := hlay.agcount_le
      imaxpct := hpct
      label := hlab
      agblklog := hagl
      logagno := rfl
      logAgbno := rfl
      logblocks := rfl
      dblocks_ge := hlay.dblocks_ge
      logblocks_ge := hlogsize
      agcount_ge := hlay.agcount_ge.trans' (by norm_num) }

end Request

end MkfsXfs
