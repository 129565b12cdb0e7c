import MkfsXfs.Geometry.Defaults

/-!
Where the log goes.  `compute` puts it after the preallocated blocks of AG `agcount / 2`
and sizes it by the nominal AG size.  That AG is the last one only when there are two, and
only an explicit AG size can then make it much shorter than the other.

* `Accepted.logTarget_eq`, `Accepted.logblocks_le`: the size wanted, and the AG blocks kept
  back from it.
* `Geometry.LogFits`: the log lies within the blocks its AG has.
* `Params.LastHoldsLog`: the parameters under which it does (`compute_logFits_iff`).
-/

namespace MkfsXfs

open Checked

/-- The log lies within the blocks its AG has, after the preallocated ones. -/
structure Geometry.LogFits (g : Geometry) : Prop where
  agno_lt : g.logagno < g.agcount
  inside : ∃ len, g.agBlocks g.logagno = .ok len ∧ g.logAgbno + g.logblocks ≤ len
  after : g.preallocBlocks ≤ g.logAgbno

/-- The preallocated blocks of an AG under the parameters. -/
def Params.preallocBlocks (params : Params) (logical physical : ℕ) : ℕ :=
  let sectsize := chooseSectorsize params params.blocksize (max logical minSectorsize) physical
  divCeil (4 * sectsize) params.blocksize + 3 + (params.features.finobt.toNat
    + params.features.rmapbt.toNat + params.features.reflink.toNat)

/-- The log wanted for `d` blocks: one block in 2048, at least 64 MiB. -/
def Params.logBlocks (params : Params) (d : ℕ) : ℕ :=
  max (d / 2048) (64 * mib / params.blocksize)

/-- When an AG size is given that leaves two AGs, the second one shorter, that second AG has
room for the preallocated blocks and the log. -/
def Params.LastHoldsLog (params : Params) (dev logical physical : ℕ) : Prop :=
  ∀ b, params.agsize = some b →
    b.toNat / params.blocksize < params.askedBlocks dev →
    params.askedBlocks dev < 2 * (b.toNat / params.blocksize) →
    params.preallocBlocks logical physical + params.logBlocks (params.askedBlocks dev)
      ≤ params.askedBlocks dev - b.toNat / params.blocksize

section

variable {params : Params} {dev logical physical : ℕ} {g : Geometry}

lemma Accepted.blocksize_eq (h : Accepted params dev logical physical g) :
    params.blocksize = 2 ^ g.blocklog :=
  h.asked_blocksize.symm.trans h.blocksize

lemma Accepted.preallocBlocks_eq (h : Accepted params dev logical physical g) :
    g.preallocBlocks = params.preallocBlocks logical physical := by
  rw [Geometry.preallocBlocks_eq, Geometry.headerBlocks, Geometry.bs, h.features,
    h.asked_sectsize, h.asked_blocksize]
  rfl

/-- The log wanted is one block in 2048, at least 64 MiB: the shift to bytes loses nothing,
since the data blocks lie on a device of a 64-bit size. -/
lemma Accepted.logTarget_eq (h : Accepted params dev logical physical g)
    (hdev : dev < 2 ^ 64) : g.logTarget = params.logBlocks g.dblocks := by
  have hbytes : g.dblocks * 2 ^ g.blocklog < 2 ^ 64 := by
    have h1 := (Nat.mul_le_mul_right g.blocksize h.dblocks_le).trans h.asked_mul_le
    rw [h.blocksize] at h1
    omega
  rw [Geometry.logTarget, Params.logBlocks, h.blocksize_eq, Nat.shiftLeft_eq,
    Nat.mod_eq_of_lt hbytes, Nat.shiftRight_eq_div_pow, Nat.shiftRight_eq_div_pow,
    Nat.div_right_comm, Nat.mul_div_cancel _ (Nat.two_pow_pos _)]

/-- The log leaves the preallocated blocks and five more of a full AG. -/
lemma Accepted.logblocks_le (h : Accepted params dev logical physical g) :
    g.preallocBlocks + g.logblocks + 5 ≤ g.agsize := by
  have hp := h.prealloc_le
  have hle : g.logSize ≤ g.agsize - (g.preallocBlocks + 5) :=
    (min_le_left _ _).trans (min_le_right _ _)
  rw [h.logblocks]
  omega

/-- With three AGs or more the log's AG has the full size. -/
lemma Accepted.agBlocks_logagno (h : Accepted params dev logical physical g)
    (hn : 3 ≤ g.agcount) : g.agBlocks g.logagno = .ok g.agsize := by
  rw [h.logagno]
  exact Geometry.agBlocks_of_lt (by omega)

/-- With two AGs the log is in the second. -/
lemma Accepted.agBlocks_logagno_two (h : Accepted params dev logical physical g)
    (hdev : dev < 2 ^ 64) (hn : g.agcount = 2) :
    g.agBlocks g.logagno = .ok (g.dblocks - g.agsize) := by
  have hd : g.dblocks < 2 ^ 64 := by
    have h1 := h.dblocks_le
    have h2 := h.asked_lt hdev
    rw [h.askedBlocks_eq] at h2
    omega
  have hle := h.agsize_le
  rw [h.logagno, hn, Geometry.agBlocks_last_eq_ok (by omega) hd]
  omega

/-- The log fits when its AG is not shorter than the log and the preallocated blocks. -/
lemma Accepted.logFits_iff (h : Accepted params dev logical physical g)
    (hdev : dev < 2 ^ 64) :
    g.LogFits ↔ (g.agcount = 2 → g.preallocBlocks + g.logblocks ≤ g.dblocks - g.agsize) := by
  have hn := h.agcount_ge
  have hle := h.logblocks_le
  have hag := h.logAgbno
  constructor
  · intro hf h2
    obtain ⟨len, hlen, hin⟩ := hf.inside
    rw [h.agBlocks_logagno_two hdev h2] at hlen
    obtain rfl := Except.ok.inj hlen
    omega
  · intro h2
    refine ⟨by rw [h.logagno]; omega, ?_, by omega⟩
    by_cases hc : g.agcount = 2
    · exact ⟨_, h.agBlocks_logagno_two hdev hc, by have := h2 hc; omega⟩
    · exact ⟨_, h.agBlocks_logagno (by omega), by omega⟩

/-- In two AGs of which the first is no shorter, no limit but the size wanted applies: an
accepted log has at least 64 MiB, so the AG size does not cut it, and the filesystem is
under 2 TiB. -/
lemma Accepted.logblocks_two (h : Accepted params dev logical physical g) (hdev : dev < 2 ^ 64)
    (hd : g.dblocks ≤ 2 * g.agsize) : g.logblocks = params.logBlocks g.dblocks := by
  have hge := h.logblocks_ge
  have hs := h.agsize_lt
  have hs' := h.agsize_max
  have hp := h.preallocBlocks_bounds
  have hs0 := h.agsize_ge
  have hcaps : ∀ bl ≤ 14, 10 ≤ bl → (64 * mib) >>> bl ≤ maxLogBlocks ∧
      (64 * mib) >>> bl ≤ maxLogBytes >>> bl ∧ agMaxBlocks bl / 1024 ≤ maxLogBytes >>> bl := by
    decide
  obtain ⟨hc1, hc2, hc3⟩ := hcaps g.blocklog h.blocklog_le h.blocklog_ge
  have hfloor : 64 * mib / params.blocksize = (64 * mib) >>> g.blocklog := by
    rw [h.blocksize_eq, Nat.shiftRight_eq_div_pow]
  have h1024 : g.agsize / 1024 ≤ agMaxBlocks g.blocklog / 1024 := Nat.div_le_div_right hs'
  rw [h.logblocks, Geometry.logSize, Geometry.logCap, h.logTarget_eq hdev, Params.logBlocks,
    hfloor] at hge ⊢
  rw [maxLogBlocks] at hc1 hge ⊢
  omega

end

/-- **The log of a geometry `compute` makes lies within the blocks its AG has exactly when a
second AG cut short by an explicit AG size has room for it.** -/
theorem compute_logFits_iff (params : Params) (dev : UInt64) (logical physical : UInt32)
    (g : Geometry) (hg : Geometry.compute params dev logical physical = .ok g) :
    g.LogFits ↔ params.LastHoldsLog dev.toNat logical.toNat physical.toNat := by
  have h := compute_eq_ok.mp hg
  have hdev := dev.toNat_lt
  rw [h.logFits_iff hdev]
  have hal := h.aligned
  have hagsize := h.agsize
  have hs := h.agsize_ge
  have hlog := h.logblocks_le
  rw [h.askedBlocks_eq] at hal hagsize
  rw [Params.LastHoldsLog]
  rcases hps : params.agsize with - | b
  · -- the AG size is the code's own: two AGs are two halves
    refine iff_of_true (fun h2 => ?_) (by rintro b ⟨⟩)
    rcases hpn : params.agcount with - | n
    · have := h.four_le_agcount hps hpn
      omega
    · rw [askedAgsize_of_count hps hpn] at hagsize
      rw [askedAgcount_of_count hps hpn] at hal
      split_ifs at hal with hlast
      · rw [hpn] at hal
        exact absurd hal.1 (by simp)
      · obtain ⟨hn, hd⟩ := hal
        rw [← hn, h2, divCeil] at hagsize
        omega
  · have hbs : b.toNat / params.blocksize = g.agsize := by
      rw [hagsize, Params.askedAgsize, hps, h.asked_blocksize]
      rfl
    rw [askedAgcount_of_chosen (by rw [hps]; exact fun h => absurd h (by simp))] at hal
    have hcover := le_divCeil_mul (n := params.askedBlocks dev.toNat) (m := g.agsize) (by omega)
    have hpos : 0 < params.askedBlocks dev.toNat := by
      have := h.dblocks_le
      have := h.agsize_le
      omega
    have hpred := divCeil_pred_mul_lt hpos (by omega : 0 < g.agsize)
    simp only [Option.some.injEq, forall_eq', hbs]
    have htwo : ∀ c, (c - 1) * g.agsize < params.askedBlocks dev.toNat →
        params.askedBlocks dev.toNat ≤ c * g.agsize →
        (c = 2 ↔ g.agsize < params.askedBlocks dev.toNat ∧
          params.askedBlocks dev.toNat ≤ 2 * g.agsize) := by
      intro c hlt hle
      rcases c with - | - | - | c
      · omega
      · omega
      · omega
      · rw [Nat.add_sub_cancel, Nat.add_mul, Nat.add_mul] at hlt
        omega
    have htwo := htwo _ hpred hcover
    constructor
    · intro hfit h1 h2
      -- more than one AG size and less than two: two AGs, none dropped
      have hcount := htwo.mpr ⟨h1, h2.le⟩
      have hn := h.agcount_ge
      rw [hcount] at hal
      split_ifs at hal with hlast
      · omega
      · obtain ⟨hn2, hd⟩ := hal
        rw [← hd, ← h.logblocks_two hdev (by omega), ← h.preallocBlocks_eq]
        exact hfit hn2
    · intro hfit hn2
      rw [hn2] at hal
      split_ifs at hal with hlast
      · omega
      · obtain ⟨hcount, hd⟩ := hal
        obtain ⟨h1, h2⟩ := htwo.mp hcount.symm
        by_cases hfull : params.askedBlocks dev.toNat = 2 * g.agsize
        · omega
        · have := hfit h1 (by omega)
          rw [h.logblocks_two hdev (by omega), h.preallocBlocks_eq, hd]
          exact this

/-- One and a half GiB with AGs of one GiB: the second AG has room for the log. -/
theorem compute_logFits_half : ∃ g,
    Geometry.compute { agsize := some 1073741824 } 1610612736 512 512 = .ok g ∧ g.LogFits := by
  refine ⟨_, rfl, (compute_logFits_iff { agsize := some 1073741824 } 1610612736 512 512 _
    rfl).mpr ?_⟩
  rintro b ⟨⟩
  decide +kernel

/-- One GiB and 16 MiB with AGs of one GiB: the log of 64 MiB is put into the second AG,
which has 16 MiB. -/
theorem compute_not_logFits : ¬ ∀ (params : Params) (dev : UInt64) (logical physical : UInt32)
    (g : Geometry), Geometry.compute params dev logical physical = .ok g → g.LogFits := by
  intro h
  obtain ⟨-, ⟨len, hlen, hin⟩, -⟩ := h { agsize := some 1073741824 } 1090519040 512 512 _ rfl
  obtain rfl : 4096 = len := Except.ok.inj hlen
  exact absurd hin (by decide)

end MkfsXfs
