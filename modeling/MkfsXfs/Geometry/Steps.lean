import MkfsXfs.Geometry.Compute

/-!
The steps of `Geometry::compute`.  Each has one lemma that says exactly when it returns
and what: `validateBlocksize_eq_ok`, `validateSectorsize_eq_ok`,
`validateInodesize_eq_ok`, `validateDatadev_eq_ok`, `calculateInitialAgGeometry_eq_ok`,
`alignAgGeometry_eq_ok`, `validateAgGeometry_eq_ok`, `calculateLogSize_eq_ok` and
`validateSupported_eq_ok`; `log2Roundup_spec` is the loop that finds the AG shift.  The
proofs about accepted geometries cite these and never unfold a step.
-/

namespace MkfsXfs

open Checked

/-! ### Powers of two and rounding -/

lemma pow2Log_two_pow : ∀ k < 32, pow2Log (2 ^ k) = k := by decide

/-- A power of two between two powers of two. -/
lemma exists_pow_between {n a b : ℕ} :
    (n.isPowerOfTwo ∧ 2 ^ a ≤ n ∧ n ≤ 2 ^ b) ↔ ∃ k, a ≤ k ∧ k ≤ b ∧ n = 2 ^ k := by
  constructor
  · rintro ⟨⟨k, rfl⟩, ha, hb⟩
    exact ⟨k, (Nat.pow_le_pow_iff_right (by norm_num)).mp ha,
      (Nat.pow_le_pow_iff_right (by norm_num)).mp hb, rfl⟩
  · rintro ⟨k, ha, hb, rfl⟩
    exact ⟨⟨k, rfl⟩, Nat.pow_le_pow_right (by norm_num) ha,
      Nat.pow_le_pow_right (by norm_num) hb⟩

/-- Rounding up adds one to the quotient exactly when there is a remainder. -/
lemma divCeil_eq {n m : ℕ} (hm : 0 < m) :
    divCeil n m = n / m + if n % m ≠ 0 then 1 else 0 := by
  have hdm := Nat.div_add_mod n m
  have hlt := Nat.mod_lt n hm
  rw [divCeil]
  by_cases h : n % m = 0
  · rw [if_neg (by simpa using h), Nat.add_zero]
    refine Nat.div_eq_of_lt_le ?_ ?_
    · rw [Nat.mul_comm]; omega
    · rw [Nat.add_mul, Nat.mul_comm, Nat.one_mul]; omega
  · rw [if_pos h]
    refine Nat.div_eq_of_lt_le ?_ ?_
    · rw [Nat.add_mul, Nat.mul_comm, Nat.one_mul]; omega
    · rw [Nat.add_mul, Nat.add_mul, Nat.mul_comm, Nat.one_mul]; omega

/-- The quotient rounded up covers the dividend. -/
lemma le_divCeil_mul {n m : ℕ} (hm : 0 < m) : n ≤ divCeil n m * m := by
  have h := Nat.lt_mul_div_succ (n + m - 1) hm
  rw [Nat.mul_add, Nat.mul_one] at h
  rw [divCeil, Nat.mul_comm]
  omega

/-- One part less does not. -/
lemma divCeil_pred_mul_lt {n m : ℕ} (hn : 0 < n) (hm : 0 < m) :
    (divCeil n m - 1) * m < n := by
  have h := Nat.div_mul_le_self (n + m - 1) m
  rw [divCeil, Nat.sub_mul, Nat.one_mul]
  omega

lemma divCeil_pos {n m : ℕ} (hn : 0 < n) (hm : 0 < m) : 0 < divCeil n m := by
  have h := le_divCeil_mul (n := n) hm
  by_contra h0
  rw [show divCeil n m = 0 by omega] at h
  omega

/-- Sixty-four inodes of at most half a block each take at most 32 blocks. -/
lemma inodes_shiftRight_le {il bl : ℕ} (h : il < bl) : (64 * 2 ^ il) >>> bl ≤ 32 := by
  rw [Nat.shiftRight_eq_div_pow]
  refine Nat.div_le_of_le_mul ?_
  have hsplit : 2 ^ (bl - 1) * 2 = 2 ^ bl := by rw [← pow_succ]; congr 1; omega
  have hle : 2 ^ il ≤ 2 ^ (bl - 1) := Nat.pow_le_pow_right (by norm_num) (by omega)
  omega

/-! ### The loop of `log2_roundup` -/

/-- From a shift below the answer the loop stops at the smallest shift that covers `i`. -/
lemma log2RoundupFrom_spec {i : ℕ} : ∀ {k l : ℕ}, k + l = 64 → i ≤ 2 ^ 63 →
    (l = 0 ∨ 2 ^ (l - 1) < i) → ∃ r, log2RoundupFrom i k l = .ok r ∧ r < 64 ∧ i ≤ 2 ^ r ∧
      (r = 0 ∨ 2 ^ (r - 1) < i)
  | 0, l, hk, hi, hl => by
      have hlt : 2 ^ 63 < i := by
        have hl64 : l = 64 := by omega
        rcases hl with h | h
        · omega
        · rwa [hl64] at h
      omega
  | k + 1, l, hk, hi, hl => by
      rw [log2RoundupFrom, Nat.one_shiftLeft]
      by_cases h : 2 ^ l < i
      · rw [if_pos h]
        exact log2RoundupFrom_spec (by omega) hi (.inr (by simpa using h))
      · rw [if_neg h]
        exact ⟨l, rfl, by omega, by omega, hl⟩

/-- `log2_roundup` returns the smallest power of two that covers its argument. -/
lemma log2Roundup_spec {i : ℕ} (hi : i ≤ 2 ^ 63) : ∃ r, log2Roundup i = .ok r ∧ r < 64 ∧
    i ≤ 2 ^ r ∧ (r = 0 ∨ 2 ^ (r - 1) < i) :=
  log2RoundupFrom_spec rfl hi (.inl rfl)

/-! ### The steps of `compute` -/

lemma validateBlocksize_eq_ok {params : Params} {bs : ℕ} :
    validateBlocksize params = .ok bs ↔
      bs = (params.blockSize.map UInt32.toNat).getD 4096 ∧
        ∃ k, 10 ≤ k ∧ k ≤ 14 ∧ bs = 2 ^ k := by
  simp only [validateBlocksize, refuseIf_bind_eq_ok, pure_eq_ok, Except.ok.injEq]
  simp only [minCrcBlocksize, maxBlocksize, maxSupportedBlocksize, not_or, not_not, not_lt]
  rw [← exists_pow_between]
  constructor
  · rintro ⟨⟨hp, -⟩, h1, h2, rfl⟩
    exact ⟨rfl, hp, h1, h2⟩
  · rintro ⟨rfl, hp, h1, h2⟩
    exact ⟨⟨hp, by omega, by omega⟩, h1, h2, rfl⟩

lemma validateSectorsize_eq_ok {params : Params} {bs l p ss : ℕ} :
    validateSectorsize params bs l p = .ok ss ↔
      ss = chooseSectorsize params bs (max l minSectorsize) p ∧
        (∃ k, 9 ≤ k ∧ k ≤ 15 ∧ ss = 2 ^ k) ∧ ss ≤ bs ∧ max l minSectorsize ≤ ss := by
  simp only [validateSectorsize, refuseIf_bind_eq_ok, pure_eq_ok, Except.ok.injEq]
  simp only [not_or, not_not, not_lt]
  rw [← exists_pow_between]
  constructor
  · rintro ⟨⟨hp, h1, h2⟩, h3, h4, rfl⟩
    exact ⟨rfl, ⟨hp, h1, h2⟩, h3, h4⟩
  · rintro ⟨rfl, ⟨hp, h1, h2⟩, h3, h4⟩
    exact ⟨⟨hp, h1, h2⟩, h3, h4, rfl⟩

lemma validateInodesize_eq_ok {params : Params} {bs is : ℕ} :
    validateInodesize params bs = .ok is ↔
      is = (params.inodeSize.map UInt32.toNat).getD 512 ∧
        (∃ k, 9 ≤ k ∧ k ≤ 11 ∧ is = 2 ^ k) ∧ is ≤ bs / 2 := by
  simp only [validateInodesize, refuseIf_bind_eq_ok, pure_eq_ok, Except.ok.injEq]
  simp only [dinodeMaxSize, not_or, not_not, not_lt]
  rw [← exists_pow_between]
  constructor
  · rintro ⟨⟨hp, h1, h2, h3⟩, rfl⟩
    exact ⟨rfl, ⟨hp, h1, h2⟩, h3⟩
  · rintro ⟨rfl, ⟨hp, h1, h2⟩, h3⟩
    exact ⟨⟨hp, h1, h2, h3⟩, rfl⟩

/-- The bytes asked for: the size parameter, or the whole device. -/
def Params.askedBytes (params : Params) (deviceSize : ℕ) : ℕ :=
  (params.size.map UInt64.toNat).getD deviceSize

lemma validateDatadev_eq_ok {params : Params} {dev bl d : ℕ} :
    validateDatadev params dev bl = .ok d ↔
      d = params.askedBytes dev >>> bl ∧ d ≤ dev >>> bl ∧ agMinBlocks bl ≤ d := by
  cases hs : params.size with
  | none =>
      simp only [validateDatadev, Params.askedBytes, hs, pure_eq_ok, ok_bind,
        refuseIf_bind_eq_ok, Except.ok.injEq, not_lt, Option.map_none, Option.getD_none]
      constructor
      · rintro ⟨h, rfl⟩
        exact ⟨rfl, le_refl _, h⟩
      · rintro ⟨rfl, -, h⟩
        exact ⟨h, rfl⟩
  | some b =>
      simp only [validateDatadev, Params.askedBytes, hs, pure_eq_ok, ok_bind, bind_eq_ok,
        refuseIf_eq_ok, Except.ok.injEq, not_lt, Option.map_some, Option.getD_some]
      constructor
      · rintro ⟨-, h, -, h', rfl⟩
        exact ⟨rfl, h, h'⟩
      · rintro ⟨rfl, h, h'⟩
        exact ⟨(), h, (), h', rfl⟩

/-- The AG size asked for, or the default for `dblocks` blocks. -/
def Params.askedAgsize (params : Params) (blocksize blocklog dblocks : ℕ) : ℕ :=
  match params.agsize, params.agcount with
  | some bytes, _ => bytes.toNat / blocksize
  | none, some n => divCeil dblocks n.toNat
  | none, none => defaultAgSize blocklog dblocks false

/-- The AG count: the one asked for when it decides, otherwise as many AGs as cover the
data blocks. -/
def Params.askedAgcount (params : Params) (dblocks agsize : ℕ) : ℕ :=
  match params.agsize, params.agcount with
  | none, some n => n.toNat
  | _, _ => divCeil dblocks agsize

lemma calculateInitialAgGeometry_eq_ok {params : Params} {bs bl d s n : ℕ} (hbs : 0 < bs)
    (hd : 0 < d) :
    calculateInitialAgGeometry params bs bl d = .ok (s, n) ↔
      s = params.askedAgsize bs bl d ∧ n = params.askedAgcount d s ∧ 0 < s ∧ 0 < n ∧
        (∀ b, params.agsize = some b → b.toNat % bs = 0) := by
  rcases hs : params.agsize with - | b <;> rcases hn : params.agcount with - | m
  · simp only [calculateInitialAgGeometry, Params.askedAgsize, Params.askedAgcount, hs, hn,
      defaultAgGeometry, div_bind_eq_ok, mod_bind_eq_ok, pure_eq_ok, Except.ok.injEq,
      Prod.mk.injEq, reduceCtorEq, false_implies, implies_true, and_true]
    constructor
    · rintro ⟨hpos, -, rfl, rfl⟩
      have hpos' := Nat.pos_of_ne_zero hpos
      rw [← divCeil_eq hpos']
      exact ⟨rfl, rfl, hpos', divCeil_pos hd hpos'⟩
    · rintro ⟨rfl, rfl, hpos, -⟩
      exact ⟨hpos.ne', hpos.ne', rfl, (divCeil_eq hpos).symm⟩
  · simp only [calculateInitialAgGeometry, Params.askedAgsize, Params.askedAgcount, hs, hn,
      refuseIf_bind_eq_ok, ceilDiv_bind_eq_ok, pure_eq_ok, Except.ok.injEq, Prod.mk.injEq,
      reduceCtorEq, false_implies, implies_true, and_true]
    constructor
    · rintro ⟨h0, -, rfl, rfl⟩
      exact ⟨rfl, rfl, divCeil_pos hd (Nat.pos_of_ne_zero h0), Nat.pos_of_ne_zero h0⟩
    · rintro ⟨rfl, rfl, -, h0⟩
      exact ⟨h0.ne', h0.ne', rfl, rfl⟩
  -- an explicit AG size decides, whatever the count
  all_goals
    simp only [calculateInitialAgGeometry, Params.askedAgsize, Params.askedAgcount, hs, hn,
      refuseIf_bind_eq_ok, ceilDiv_bind_eq_ok, div_bind_eq_ok, mod_bind_eq_ok, pure_eq_ok,
      Except.ok.injEq, Prod.mk.injEq, Option.some.injEq, forall_eq', not_not]
    constructor
    · rintro ⟨-, h1, -, h2, -, rfl, rfl⟩
      have h2' := Nat.pos_of_ne_zero h2
      exact ⟨rfl, rfl, h2', divCeil_pos hd h2', h1⟩
    · rintro ⟨rfl, rfl, h2, -, h1⟩
      exact ⟨hbs.ne', h1, hbs.ne', h2.ne', h2.ne', rfl, rfl⟩

/-- The last AG is there but too small to be one. -/
def LastTooSmall (blocklog dblocks agsize : ℕ) : Prop :=
  dblocks % agsize ≠ 0 ∧ dblocks % agsize < agMinBlocks blocklog

instance (bl d s : ℕ) : Decidable (LastTooSmall bl d s) := by
  unfold LastTooSmall; infer_instance

lemma alignAgGeometry_eq_ok {params : Params} {bl d s n : ℕ} {r : ℕ × ℕ} (hs : 0 < s) :
    alignAgGeometry params bl d s n = .ok r ↔
      if LastTooSmall bl d s
        then params.agcount = none ∧ 1 ≤ n ∧ (n - 1) * s < 2 ^ 64 ∧ r = ((n - 1) * s, n - 1)
        else r = (d, n) := by
  rw [alignAgGeometry, mod_of_pos hs, ok_bind]
  by_cases h : LastTooSmall bl d s
  · rw [if_pos (show d % s ≠ 0 ∧ d % s < agMinBlocks bl from h), if_pos h]
    simp only [refuseIf_bind_eq_ok, sub_bind_eq_ok, fit_bind_eq_ok, pure_eq_ok,
      Except.ok.injEq, Bool.not_eq_true, Option.isSome_eq_false_iff,
      Option.isNone_iff_eq_none, @eq_comm _ r]
  · rw [if_neg (show ¬ (d % s ≠ 0 ∧ d % s < agMinBlocks bl) from h), if_neg h]
    simp only [pure_eq_ok, Except.ok.injEq, @eq_comm _ r]

lemma validateAgGeometry_eq_ok {bl d s n : ℕ} {u : Unit} :
    validateAgGeometry bl d s n = .ok u ↔
      agMinBlocks bl ≤ s ∧ s ≤ agMaxBlocks bl ∧ s ≤ d ∧ n ≤ maxAgnumber := by
  simp only [validateAgGeometry, refuseIf_bind_eq_ok, refuseIf_eq_ok, not_lt]

lemma validateSupported_eq_ok {g : Geometry} {u : Unit} :
    validateSupported g = .ok u ↔ (300 * mib) >>> g.blocklog ≤ g.dblocks ∧
      (64 * mib) >>> g.blocklog ≤ g.logblocks ∧ 2 ≤ g.agcount := by
  simp only [validateSupported, refuseIf_bind_eq_ok, refuseIf_eq_ok, not_lt]

/-! ### The size of the log -/

namespace Geometry

/-- The log size wanted for the data blocks: one block in 2048, at least 64 MiB. -/
def logTarget (g : Geometry) : ℕ :=
  max ((((g.dblocks <<< g.blocklog) % 2 ^ 64) / 2048) >>> g.blocklog)
    ((64 * mib) >>> g.blocklog)

/-- The largest log of the format, in blocks. -/
def logCap (g : Geometry) : ℕ := min maxLogBlocks (maxLogBytes >>> g.blocklog)

/-- The log size of an AG that keeps five blocks back. -/
def logSize (g : Geometry) : ℕ :=
  min (min g.logTarget (g.agsize - (g.preallocBlocks + 5))) g.logCap

/-- Clamping by bytes is clamping by whole blocks. -/
lemma clamp_bytes {l bl : ℕ} (hl : l ≤ maxLogBlocks) (hbl : bl ≤ 14) :
    (if (l <<< bl) % 2 ^ 64 > maxLogBytes then maxLogBytes >>> bl else l)
      = min l (maxLogBytes >>> bl) := by
  have hpow : 2 ^ bl ≤ 2 ^ 14 := Nat.pow_le_pow_right (by norm_num) hbl
  have hsmall : l * 2 ^ bl < 2 ^ 64 := by
    calc l * 2 ^ bl ≤ maxLogBlocks * 2 ^ 14 := Nat.mul_le_mul hl hpow
      _ < 2 ^ 64 := by decide
  rw [Nat.shiftLeft_eq, Nat.mod_eq_of_lt hsmall, Nat.shiftRight_eq_div_pow]
  have hlt := Nat.div_lt_iff_lt_mul (x := maxLogBytes) (y := l) (Nat.two_pow_pos bl)
  by_cases h : l * 2 ^ bl > maxLogBytes
  · rw [if_pos h, min_eq_right (le_of_lt (hlt.mpr h))]
  · rw [if_neg h, min_eq_left (not_lt.mp fun h' => h (hlt.mp h'))]

/-- `calculate_log_size` changes the place and size of the log only. -/
lemma calculateLogSize_agcount {g g' : Geometry} (h : g.calculateLogSize = .ok g') :
    g'.agcount = g.agcount := by
  simp only [calculateLogSize, agMaxUsable_eq, refuseIf_bind_eq_ok, sub_bind_eq_ok] at h
  obtain ⟨-, -, -, -, -, h⟩ := h
  by_cases h0 : g.agcount / 2 = 0
  · simp only [if_pos h0, fit_bind_eq_ok, sub_bind_eq_ok, pure_eq_ok, Except.ok.injEq] at h
    rw [← h.2.2]
  · simp only [if_neg h0, pure_eq_ok, Except.ok.injEq] at h
    rw [← h]

/-- With two AGs or more the log goes into a later one, at the size `logSize`. -/
lemma calculateLogSize_eq_ok {g g' : Geometry} (hbl : g.blocklog ≤ 14)
    (hcount : 2 ≤ g.agcount) :
    g.calculateLogSize = .ok g' ↔ (300 * mib) >>> g.blocklog ≤ g.dblocks ∧
      g.preallocBlocks + 5 ≤ g.agsize ∧
      g' = { g with logagno := g.agcount / 2, logblocks := g.logSize,
                    logAgbno := g.preallocBlocks } := by
  have h0 : g.agcount / 2 ≠ 0 := by omega
  have hsize : min (min (min g.logTarget (g.agsize - (g.preallocBlocks + 4) - 1)) maxLogBlocks)
      (maxLogBytes >>> g.blocklog) = g.logSize := by
    rw [min_assoc, Nat.sub_sub, logSize, logCap]
  simp only [calculateLogSize, agMaxUsable_eq, refuseIf_bind_eq_ok, sub_bind_eq_ok,
    if_neg h0, pure_eq_ok, Except.ok.injEq]
  rw [clamp_bytes (min_le_right _ _) hbl]
  change _ ∧ _ ∧ _ ∧ _ ∧ ¬ min (min (min g.logTarget (g.agsize - (g.preallocBlocks + 4) - 1))
    maxLogBlocks) (maxLogBytes >>> g.blocklog) > _ ∧ { g with
      logagno := g.agcount / 2
      logblocks := min (min (min g.logTarget (g.agsize - (g.preallocBlocks + 4) - 1))
        maxLogBlocks) (maxLogBytes >>> g.blocklog)
      logAgbno := g.preallocBlocks } = g' ↔ _
  rw [hsize]
  constructor
  · rintro ⟨h1, h2, h3, -, -, rfl⟩
    exact ⟨by omega, by omega, rfl⟩
  · rintro ⟨h1, h2, rfl⟩
    refine ⟨by omega, by omega, by omega, by omega, ?_, rfl⟩
    have hle : g.logSize ≤ g.agsize - (g.preallocBlocks + 5) :=
      (min_le_left _ _).trans (min_le_right _ _)
    omega

end Geometry

end MkfsXfs
