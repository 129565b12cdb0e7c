import MkfsXfs.Geometry.Tiling

/-!
Block and inode numbers (`src/geometry.rs`): how a block of an AG, or an inode in it, is
written as one number, and where on the device it lies.

* `Geometry.agbToFsb`, `agbToByte`, `agbToDaddr`, `ino`: the encodings, and the positions
  that use them.
* `shl_or_eq`, `shl_or_shiftRight`, `shl_or_mod`: parts that are shifted and or-ed come apart
  again when the low part fits its bits.
* `Geometry.Faithful`: numbers fit 64 bits and decode to what they were made of, and the
  blocks are apart and on the filesystem.
* `compute_faithful_iff`: the encodings of what `compute` returns are faithful exactly when
  the AGs before the last do not run past the data blocks.
-/

namespace MkfsXfs

open Checked

namespace Geometry

/-- Filesystem block number as XFS encodes it: the AG number above `agblklog` bits. -/
def agbToFsb (g : Geometry) (agno agbno : ℕ) : ℕ := agno <<< g.agblklog ||| agbno

/-- Byte offset of block `agbno` in AG `agno`. -/
def agbToByte (g : Geometry) (agno agbno : ℕ) : ℕ := (agno * g.agsize + agbno) <<< g.blocklog

/-- Disk address (512-byte units) of block `agbno` in AG `agno`. -/
def agbToDaddr (g : Geometry) (agno agbno : ℕ) : ℕ :=
  (agno * g.agsize + agbno) <<< (g.blocklog - 9)

/-- Inode number of the inode at `agbno`, slot `slot`, in AG `agno`. -/
def ino (g : Geometry) (agno agbno slot : ℕ) : ℕ :=
  let agino := agbno <<< g.inopblog ||| slot
  agno <<< (g.agblklog + g.inopblog) ||| agino

/-- `sb_logstart`. -/
def logstart (g : Geometry) : ℕ := g.agbToFsb g.logagno g.logAgbno

/-- The root directory's inode number. -/
def rootino (g : Geometry) : ℕ := g.ino 0 g.rootChunkAgbno 0

/-- Block `agbno` is a block of AG `agno`. -/
def HasBlock (g : Geometry) (agno agbno : ℕ) : Prop :=
  agno < g.agcount ∧ ∃ len, g.agBlocks agno = .ok len ∧ agbno < len

/-- The numbers fit 64 bits and come apart into what they were made of, and the blocks lie
apart from each other below the end of the filesystem. -/
structure Faithful (g : Geometry) : Prop where
  fsb : ∀ agno agbno, g.HasBlock agno agbno → g.agbToFsb agno agbno < 2 ^ 64 ∧
    g.agbToFsb agno agbno >>> g.agblklog = agno ∧
    g.agbToFsb agno agbno &&& (2 ^ g.agblklog - 1) = agbno
  ino : ∀ agno agbno slot, g.HasBlock agno agbno → slot < g.inopblock →
    g.ino agno agbno slot < 2 ^ 64 ∧
    g.ino agno agbno slot >>> (g.agblklog + g.inopblog) = agno ∧
    (g.ino agno agbno slot &&& (2 ^ (g.agblklog + g.inopblog) - 1)) >>> g.inopblog = agbno ∧
    g.ino agno agbno slot &&& (2 ^ g.inopblog - 1) = slot
  ino_injective : ∀ agno agbno slot agno' agbno' slot', g.HasBlock agno agbno →
    slot < g.inopblock → g.HasBlock agno' agbno' → slot' < g.inopblock →
    g.ino agno agbno slot = g.ino agno' agbno' slot' → (agno, agbno, slot) = (agno', agbno', slot')
  byte_le : ∀ agno agbno, g.HasBlock agno agbno →
    g.agbToByte agno agbno + g.blocksize ≤ g.dblocks * g.blocksize
  byte_apart : ∀ agno agbno agno' agbno', g.HasBlock agno agbno → g.HasBlock agno' agbno' →
    (agno, agbno) ≠ (agno', agbno') →
    g.agbToByte agno agbno + g.blocksize ≤ g.agbToByte agno' agbno' ∨
      g.agbToByte agno' agbno' + g.blocksize ≤ g.agbToByte agno agbno

end Geometry

/-! ### Shifted and or-ed -/

section Bits

variable {hi lo k : ℕ}

lemma shl_or_eq (h : lo < 2 ^ k) : hi <<< k ||| lo = hi * 2 ^ k + lo := by
  rw [← Nat.shiftLeft_add_eq_or_of_lt h, Nat.shiftLeft_eq]

lemma shl_or_shiftRight (h : lo < 2 ^ k) : (hi <<< k ||| lo) >>> k = hi := by
  rw [shl_or_eq h, Nat.shiftRight_eq_div_pow, Nat.mul_comm,
    Nat.mul_add_div (Nat.two_pow_pos k), Nat.div_eq_of_lt h, Nat.add_zero]

lemma shl_or_mask (h : lo < 2 ^ k) : (hi <<< k ||| lo) &&& (2 ^ k - 1) = lo := by
  rw [shl_or_eq h, Nat.and_two_pow_sub_one_eq_mod, Nat.mul_comm, Nat.mul_add_mod,
    Nat.mod_eq_of_lt h]

lemma shl_or_lt {b : ℕ} (hhi : hi < 2 ^ b) (h : lo < 2 ^ k) : hi <<< k ||| lo < 2 ^ (b + k) := by
  rw [shl_or_eq h, Nat.pow_add]
  calc hi * 2 ^ k + lo < hi * 2 ^ k + 2 ^ k := by omega
    _ = (hi + 1) * 2 ^ k := by rw [Nat.succ_mul]
    _ ≤ 2 ^ b * 2 ^ k := Nat.mul_le_mul_right _ hhi

end Bits

/-! ### The parts fit -/

section Fit

variable {params : Params} {dev logical physical : ℕ} {g : Geometry} {agno agbno slot : ℕ}

/-- The AG shift has room for every block of an AG, and less than a bit to spare. -/
lemma Accepted.agsize_le_shift (h : Accepted params dev logical physical g) :
    g.agsize ≤ 2 ^ g.agblklog ∧ 2 ^ g.agblklog < 2 * g.agsize := by
  have hge := h.agsize_ge
  have hlt := h.agsize_lt
  obtain ⟨r, hr, -, hle, hmin⟩ := log2Roundup_spec (i := g.agsize) (by omega)
  rw [h.agblklog] at hr
  cases hr
  refine ⟨hle, ?_⟩
  rcases hmin with h0 | hprev
  · rw [h0]
    omega
  · cases hk : g.agblklog with
    | zero => omega
    | succ k =>
        rw [hk, Nat.add_sub_cancel] at hprev
        rw [pow_succ]
        omega

/-- No AG is longer than a full one. -/
lemma Accepted.len_le (h : Accepted params dev logical physical g) (hdev : dev < 2 ^ 64)
    {len : ℕ} (hag : agno < g.agcount) (hlen : g.agBlocks agno = .ok len) : len ≤ g.agsize := by
  rcases Nat.lt_or_ge (agno + 1) g.agcount with hlt | hge
  · rw [Geometry.agBlocks_of_lt hlt] at hlen
    exact (Except.ok.inj hlen).ge
  · have hlast : agno + 1 = g.agcount := by omega
    have hd : g.dblocks < 2 ^ 64 := by
      have h1 := h.dblocks_le
      have h2 := h.asked_lt hdev
      rw [h.askedBlocks_eq] at h2
      omega
    have hle := h.dblocks_le_mul
    rw [← hlast, Nat.succ_mul] at hle
    obtain ⟨-, rfl⟩ := (Geometry.agBlocks_last_eq_ok hlast hd).mp hlen
    omega

/-- A block's number fits the AG shift. -/
lemma Accepted.agbno_lt (h : Accepted params dev logical physical g) (hdev : dev < 2 ^ 64)
    (hb : g.HasBlock agno agbno) : agbno < 2 ^ g.agblklog := by
  obtain ⟨hag, len, hlen, hlt⟩ := hb
  exact hlt.trans_le ((h.len_le hdev hag hlen).trans h.agsize_le_shift.1)

/-- Rounding the AG size up for a count asked for costs at most a block an AG. -/
lemma Accepted.before_last_le (h : Accepted params dev logical physical g) :
    (g.agcount - 1) * g.agsize ≤ g.dblocks + g.agcount := by
  rcases h.count_cases with ⟨n, -, -, hcount, hsize, hd⟩ | ⟨-, hcov⟩
  · have hc := h.agcount_ge
    have hround : g.agcount * g.agsize ≤ g.dblocks + g.agcount := by
      rw [hsize, hcount, hd, divCeil, Nat.mul_comm]
      exact (Nat.div_mul_le_self _ _).trans (by omega)
    exact (Nat.mul_le_mul_right _ (Nat.sub_le _ 1)).trans hround
  · exact (Nat.le_of_lt hcov).trans (Nat.le_add_right _ _)

/-- The inodes of a block are numbered with `inopblog` bits, five at most. -/
lemma Accepted.inopblock_eq (h : Accepted params dev logical physical g) :
    g.inopblock = 2 ^ g.inopblog ∧ g.inopblog + 9 ≤ g.blocklog := by
  have hlt := h.inodelog_lt
  have hge := h.inodelog_ge
  rw [h.inopblock, h.inopblog, h.blocksize, h.inodesize, Nat.pow_div hlt.le (by decide)]
  exact ⟨rfl, by omega⟩

/-- **Every number fits 64 bits**: AG number, AG shift and inode shift together stay below
the device's size in bytes, but for a few bits. -/
lemma Accepted.shifts_fit (h : Accepted params dev logical physical g) (hdev : dev < 2 ^ 64)
    (hag : agno < g.agcount) : (agno + 1) * 2 ^ g.agblklog * 2 ^ g.inopblog < 2 ^ 64 := by
  have hino := h.inopblock_eq.2
  have hc := h.agcount_ge
  have hpow : 2 ^ g.inopblog ≤ 2 ^ 5 := by
    have := h.blocklog_le
    exact Nat.pow_le_pow_right (by norm_num) (by omega)
  have hbytes : g.dblocks * 2 ^ g.inopblog ≤ 2 ^ 55 := by
    have hdev' : g.dblocks * g.blocksize ≤ dev :=
      (Nat.mul_le_mul_right _ h.dblocks_le).trans h.asked_mul_le
    have hsplit : 2 ^ g.inopblog * 2 ^ 9 ≤ g.blocksize := by
      rw [h.blocksize, ← Nat.pow_add]
      exact Nat.pow_le_pow_right (by norm_num) hino
    have hmul : g.dblocks * 2 ^ g.inopblog * 2 ^ 9 ≤ g.dblocks * g.blocksize := by
      rw [Nat.mul_assoc]
      exact Nat.mul_le_mul_left _ hsplit
    omega
  have hmax := h.agcount_le
  rw [maxAgnumber] at hmax
  have hcount : g.agcount * 2 ^ g.inopblog ≤ 2 ^ 32 * 2 ^ 5 :=
    Nat.mul_le_mul (by omega) hpow
  have hfull : (agno + 1) * 2 ^ g.agblklog ≤ 2 * (2 * g.dblocks + g.agcount) := by
    have hbefore := h.before_last_le
    have hle := h.agsize_le
    have hsum : g.agcount * g.agsize = (g.agcount - 1) * g.agsize + g.agsize := by
      rw [← Nat.succ_mul]
      congr 1
      omega
    calc (agno + 1) * 2 ^ g.agblklog ≤ g.agcount * (2 * g.agsize) :=
          Nat.mul_le_mul hag h.agsize_le_shift.2.le
      _ = 2 * (g.agcount * g.agsize) := by rw [Nat.mul_left_comm]
      _ ≤ 2 * (2 * g.dblocks + g.agcount) := by omega
  calc (agno + 1) * 2 ^ g.agblklog * 2 ^ g.inopblog
      ≤ 2 * (2 * g.dblocks + g.agcount) * 2 ^ g.inopblog := Nat.mul_le_mul_right _ hfull
    _ = 4 * (g.dblocks * 2 ^ g.inopblog) + 2 * (g.agcount * 2 ^ g.inopblog) := by ring
    _ < 2 ^ 64 := by omega

end Fit

/-! ### The encodings of an accepted geometry -/

section Accepted

variable {params : Params} {dev logical physical : ℕ} {g : Geometry} {agno agbno slot : ℕ}

/-- Filesystem block numbers decode. -/
lemma Accepted.fsb (h : Accepted params dev logical physical g) (hdev : dev < 2 ^ 64)
    (hb : g.HasBlock agno agbno) : g.agbToFsb agno agbno < 2 ^ 64 ∧
      g.agbToFsb agno agbno >>> g.agblklog = agno ∧
      g.agbToFsb agno agbno &&& (2 ^ g.agblklog - 1) = agbno := by
  have hlo := h.agbno_lt hdev hb
  refine ⟨?_, shl_or_shiftRight hlo, shl_or_mask hlo⟩
  have hfit := h.shifts_fit hdev hb.1
  have hpos := Nat.two_pow_pos g.inopblog
  rw [Geometry.agbToFsb, shl_or_eq hlo]
  calc agno * 2 ^ g.agblklog + agbno < (agno + 1) * 2 ^ g.agblklog := by
        rw [Nat.succ_mul]
        omega
    _ ≤ (agno + 1) * 2 ^ g.agblklog * 2 ^ g.inopblog := Nat.le_mul_of_pos_right _ hpos
    _ < 2 ^ 64 := hfit

/-- Inode numbers decode. -/
lemma Accepted.ino (h : Accepted params dev logical physical g) (hdev : dev < 2 ^ 64)
    (hb : g.HasBlock agno agbno) (hs : slot < g.inopblock) :
    g.ino agno agbno slot < 2 ^ 64 ∧
    g.ino agno agbno slot >>> (g.agblklog + g.inopblog) = agno ∧
    (g.ino agno agbno slot &&& (2 ^ (g.agblklog + g.inopblog) - 1)) >>> g.inopblog = agbno ∧
    g.ino agno agbno slot &&& (2 ^ g.inopblog - 1) = slot := by
  rw [h.inopblock_eq.1] at hs
  have hagino : agbno <<< g.inopblog ||| slot < 2 ^ (g.agblklog + g.inopblog) :=
    shl_or_lt (h.agbno_lt hdev hb) hs
  have hfit := h.shifts_fit hdev hb.1
  rw [Geometry.ino]
  refine ⟨?_, shl_or_shiftRight hagino, ?_, ?_⟩
  · rw [shl_or_eq hagino]
    calc agno * 2 ^ (g.agblklog + g.inopblog) + (agbno <<< g.inopblog ||| slot)
        < (agno + 1) * 2 ^ (g.agblklog + g.inopblog) := by
          rw [Nat.succ_mul]
          omega
      _ = (agno + 1) * 2 ^ g.agblklog * 2 ^ g.inopblog := by rw [Nat.pow_add, Nat.mul_assoc]
      _ < 2 ^ 64 := hfit
  · rw [shl_or_mask hagino, shl_or_shiftRight hs]
  · have hsplit : agno * 2 ^ (g.agblklog + g.inopblog) =
        agno * 2 ^ g.agblklog * 2 ^ g.inopblog := by rw [Nat.pow_add, Nat.mul_assoc]
    rw [shl_or_eq hagino, shl_or_eq hs, hsplit, ← Nat.add_assoc, ← Nat.add_mul, ← shl_or_eq hs,
      shl_or_mask hs]

/-- Where a block lies. -/
lemma Accepted.agbToByte_eq (h : Accepted params dev logical physical g) :
    g.agbToByte agno agbno = (agno * g.agsize + agbno) * g.blocksize := by
  rw [Geometry.agbToByte, Nat.shiftLeft_eq, h.blocksize]

/-- Blocks of one AG or of two do not meet. -/
lemma Accepted.byte_apart (h : Accepted params dev logical physical g) (hdev : dev < 2 ^ 64)
    {agno' agbno' : ℕ} (hb : g.HasBlock agno agbno) (hb' : g.HasBlock agno' agbno')
    (hne : (agno, agbno) ≠ (agno', agbno')) :
    g.agbToByte agno agbno + g.blocksize ≤ g.agbToByte agno' agbno' ∨
      g.agbToByte agno' agbno' + g.blocksize ≤ g.agbToByte agno agbno := by
  have hlin : ∀ {a b a' b'}, g.HasBlock a b → a < a' ∨ a = a' ∧ b < b' →
      g.agbToByte a b + g.blocksize ≤ g.agbToByte a' b' := by
    rintro a b a' b' ⟨hag, len, hlen, hlt⟩ hord
    have hle := h.len_le hdev hag hlen
    rw [h.agbToByte_eq, h.agbToByte_eq, ← Nat.succ_mul]
    refine Nat.mul_le_mul_right _ ?_
    rcases hord with hord | ⟨rfl, hord⟩
    · have hstep : (a + 1) * g.agsize ≤ a' * g.agsize := Nat.mul_le_mul_right _ hord
      rw [Nat.succ_mul] at hstep
      omega
    · omega
  rcases Nat.lt_trichotomy agno agno' with hlt | heq | hgt
  · exact .inl (hlin hb (.inl hlt))
  · subst heq
    have hne' : agbno ≠ agbno' := fun he => hne (by rw [he])
    rcases Nat.lt_or_gt_of_ne hne' with hlt | hgt
    · exact .inl (hlin hb (.inr ⟨rfl, hlt⟩))
    · exact .inr (hlin hb' (.inr ⟨rfl, hgt⟩))
  · exact .inr (hlin hb' (.inl hgt))

/-- The blocks lie below the end when the AGs before the last do not run past it. -/
lemma Accepted.byte_le (h : Accepted params dev logical physical g) (hdev : dev < 2 ^ 64)
    (hfit : (g.agcount - 1) * g.agsize ≤ g.dblocks) (hb : g.HasBlock agno agbno) :
    g.agbToByte agno agbno + g.blocksize ≤ g.dblocks * g.blocksize := by
  obtain ⟨hag, len, hlen, hlt⟩ := hb
  rw [h.agbToByte_eq, ← Nat.succ_mul]
  refine Nat.mul_le_mul_right _ ?_
  rcases Nat.lt_or_ge (agno + 1) g.agcount with hbefore | hlast
  · have hle := h.len_le hdev hag hlen
    have hstep : (agno + 1) * g.agsize ≤ (g.agcount - 1) * g.agsize :=
      Nat.mul_le_mul_right _ (by omega)
    rw [Nat.succ_mul] at hstep
    omega
  · have hd : g.dblocks < 2 ^ 64 := by
      have h1 := h.dblocks_le
      have h2 := h.asked_lt hdev
      rw [h.askedBlocks_eq] at h2
      omega
    obtain ⟨hle, rfl⟩ := (Geometry.agBlocks_last_eq_ok (by omega) hd).mp hlen
    omega

/-- **The encodings are faithful exactly when the AGs before the last fit.**  When they do
not, the last block of the AG before the last lies past the end. -/
theorem Accepted.faithful_iff (h : Accepted params dev logical physical g)
    (hdev : dev < 2 ^ 64) : g.Faithful ↔ (g.agcount - 1) * g.agsize ≤ g.dblocks := by
  constructor
  · intro hf
    have hc := h.agcount_ge
    have hs := h.agsize_ge
    have hb : g.HasBlock (g.agcount - 2) (g.agsize - 1) :=
      ⟨by omega, g.agsize, Geometry.agBlocks_of_lt (by omega), by omega⟩
    have hle := hf.byte_le _ _ hb
    rw [h.agbToByte_eq, ← Nat.succ_mul] at hle
    have hblocks := Nat.le_of_mul_le_mul_right hle h.blocksize_pos
    have hsum : (g.agcount - 1) * g.agsize = (g.agcount - 2) * g.agsize + g.agsize := by
      rw [← Nat.succ_mul]
      congr 1
      omega
    omega
  · intro hfit
    exact {
      fsb := fun agno agbno hb => h.fsb hdev hb
      ino := fun agno agbno slot hb hs => h.ino hdev hb hs
      ino_injective := by
        intro agno agbno slot agno' agbno' slot' hb hs hb' hs' heq
        obtain ⟨-, h₁, h₂, h₃⟩ := h.ino hdev hb hs
        obtain ⟨-, h₁', h₂', h₃'⟩ := h.ino hdev hb' hs'
        rw [heq] at h₁ h₂ h₃
        rw [← h₁, ← h₂, ← h₃, h₁', h₂', h₃']
      byte_le := fun agno agbno hb => h.byte_le hdev hfit hb
      byte_apart := fun agno agbno agno' agbno' hb hb' hne => h.byte_apart hdev hb hb' hne }

end Accepted

/-! ### What `compute` returns -/

/-- An AG count given without an AG size does not run past the blocks once the AG size is
rounded up. -/
def Params.CountFits (params : Params) (dev : ℕ) : Prop :=
  params.agsize = none → ∀ n, params.agcount = some n →
    (n.toNat - 1) * divCeil (params.askedBlocks dev) n.toNat ≤ params.askedBlocks dev

/-- **The encodings of what `compute` returns are faithful exactly when an AG count given
without an AG size does not run past the blocks asked for.** -/
theorem compute_faithful_iff (params : Params) (dev : UInt64) (logical physical : UInt32)
    (g : Geometry) (hg : Geometry.compute params dev logical physical = .ok g) :
    g.Faithful ↔ params.CountFits dev.toNat := by
  have h := compute_eq_ok.mp hg
  rw [h.faithful_iff dev.toNat_lt]
  rcases h.count_cases with ⟨n, hnone, hn, hcount, hsize, hd⟩ | ⟨hsel, hcov⟩
  · rw [hcount, hsize, hd]
    constructor
    · intro hle _ m hm
      obtain rfl : n = m := Option.some.inj (hn.symm.trans hm)
      exact hle
    · intro hfits
      exact hfits hnone n hn
  · refine iff_of_true (Nat.le_of_lt hcov) ?_
    intro hnone n hn
    rw [hsel hnone] at hn
    cases hn

/-- The encodings of ten GiB in three AGs. -/
theorem compute_faithful_three : ∃ g, Geometry.compute { agcount := some 3 } 10737418240 512 512
    = .ok g ∧ g.Faithful := by
  refine ⟨_, rfl, (compute_faithful_iff { agcount := some 3 } 10737418240 512 512 _ rfl).mpr ?_⟩
  rintro - n ⟨⟩
  decide +kernel

/-- Twenty thousand AGs asked for on 327983599 blocks: the last block of AG 19998 is block
327983599, past the end. -/
theorem compute_not_faithful : ¬ ∀ (params : Params) (dev : UInt64) (logical physical : UInt32)
    (g : Geometry), Geometry.compute params dev logical physical = .ok g → g.Faithful := by
  intro h
  have hf := h { agcount := some 20000 } 1343420821504 512 512 _ rfl
  have hle := hf.byte_le 19998 16399 ⟨by decide, 16400, rfl, by decide⟩
  exact absurd hle (by decide)

end MkfsXfs
