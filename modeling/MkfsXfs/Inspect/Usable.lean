import MkfsXfs.Admin.Fs
import MkfsXfs.Geometry.Steps
import MkfsXfs.Inspect.Walk

/-!
Which superblocks the readers can use (`Geo::parse` in `src/inspect.rs`, `log_extent` in
`src/admin.rs`).

* `Geo.Usable`: what the readers compute from a geometry stays in range, in every AG, for
  every inode and for the log.
* `Geo.Related`: the relations between the fields that this takes; the parser checks none of
  them.  `usable_iff_related`.
* `check_returns_iff`, `parse_eq_ok_iff`: when the parser panics, and what it accepts.
* `parse_usable_iff`: the superblocks that the parser and the readers get through.
-/

namespace MkfsXfs

open Checked Sb Inspect

namespace Geo

/-! ### What the parser looks at -/

/-- The block size is a power of two in range. -/
def Sized (g : Geo) : Prop :=
  g.blocksize.isPowerOfTwo ∧ 512 ≤ g.blocksize ∧ g.blocksize ≤ 65536

/-- The sizes are powers of two in range, and nothing is empty. -/
def Shaped (g : Geo) : Prop :=
  2 ^ g.blocklog = g.blocksize ∧
    g.sectsize.isPowerOfTwo ∧ 512 ≤ g.sectsize ∧ g.sectsize ≤ 32768 ∧
    g.sectsize ≤ g.blocksize ∧
    g.inodesize.isPowerOfTwo ∧ 256 ≤ g.inodesize ∧ g.inodesize ≤ 2048 ∧
    0 < g.agcount ∧ 0 < g.agblocks

/-- The AGs have room for the data blocks. -/
def Roomy (g : Geo) : Prop :=
  g.agblocks ≤ 2 ^ g.agblklog ∧ g.agblklog < 32 ∧ g.dblocks ≤ g.agcount * g.agblocks

/-- The sector starts as a v5 superblock does. -/
def Marked (b : Buf) : Prop :=
  be32 b Off.magicnum = magic ∧ be16 b Off.versionnum &&& 0xf = 5

instance (b : Buf) : Decidable (Marked b) := inferInstanceAs (Decidable (_ ∧ _))

section Check

variable {g : Geo}

lemma shl64_of_lt {k : ℕ} (h : k < 64) : Geo.shl64 k = .ok (2 ^ k) := if_pos h

lemma shl64_of_ge {k : ℕ} (h : 64 ≤ k) : Geo.shl64 k = .error .panic := if_neg (by omega)

lemma not_returns_panic {α : Type} : ¬ Returns (.error .panic : Exec α) := fun h => by
  obtain ⟨e, he⟩ := h .panic rfl
  cases he

lemma check_of_not_sized (h : ¬ g.Sized) : g.check = .ok false := if_pos h

lemma check_of_large_blocklog (h : g.Sized) (hlog : 64 ≤ g.blocklog) :
    g.check = .error .panic := by
  rw [Sized] at h
  rw [check, if_neg (not_not.2 h), shl64_of_ge hlog, error_bind]

lemma check_of_not_shaped (h : g.Sized) (hlog : g.blocklog < 64) (hshape : ¬ g.Shaped) :
    g.check = .ok false := by
  rw [Sized] at h
  rw [Shaped] at hshape
  rw [check, if_neg (not_not.2 h), shl64_of_lt hlog, ok_bind, if_pos hshape]

lemma check_of_large_agblklog (h : g.Sized) (hlog : g.blocklog < 64) (hshape : g.Shaped)
    (hagblk : 64 ≤ g.agblklog) : g.check = .error .panic := by
  rw [Sized] at h
  rw [Shaped] at hshape
  rw [check, if_neg (not_not.2 h), shl64_of_lt hlog, ok_bind, if_neg (not_not.2 hshape),
    shl64_of_ge hagblk, error_bind]

/-- The checks on the AGs. -/
lemma check_of_shaped (h : g.Sized) (hlog : g.blocklog < 64) (hshape : g.Shaped)
    (hagblk : g.agblklog < 64) (hcount : g.agcount < 2 ^ 32) (hblocks : g.agblocks < 2 ^ 32) :
    ∃ ok, g.check = .ok ok ∧ (ok = true ↔ g.Roomy) := by
  rw [Sized] at h
  rw [Shaped] at hshape
  rw [check, if_neg (not_not.2 h), shl64_of_lt hlog, ok_bind, if_neg (not_not.2 hshape),
    shl64_of_lt hagblk, ok_bind]
  by_cases hroom : g.agblocks ≤ 2 ^ g.agblklog ∧ g.agblklog < 32
  · have hfit : g.agcount * g.agblocks < 2 ^ 64 := calc
      g.agcount * g.agblocks < 2 ^ 32 * 2 ^ 32 :=
        Nat.mul_lt_mul_of_lt_of_lt hcount hblocks
      _ = 2 ^ 64 := by norm_num
    rw [if_neg (not_not.2 hroom), fit_of_lt hfit, ok_bind]
    refine ⟨_, rfl, ?_⟩
    rw [decide_eq_true_iff]
    exact ⟨fun hd => ⟨hroom.1, hroom.2, hd⟩, fun hr => hr.2.2⟩
  · rw [if_pos hroom]
    refine ⟨false, rfl, ?_⟩
    exact iff_of_false (by decide) fun hr => hroom ⟨hr.1, hr.2.1⟩

/-- **The checks panic at a shift that leaves its word**, when those before it hold. -/
theorem check_returns_iff (hcount : g.agcount < 2 ^ 32) (hblocks : g.agblocks < 2 ^ 32) :
    Returns g.check ↔ (g.Sized → g.blocklog < 64 ∧ (g.Shaped → g.agblklog < 64)) := by
  by_cases hsize : g.Sized
  swap
  · rw [check_of_not_sized hsize]
    exact iff_of_true (Returns.ok _) fun h => absurd h hsize
  by_cases hlog : g.blocklog < 64
  swap
  · rw [check_of_large_blocklog hsize (by omega)]
    exact iff_of_false not_returns_panic fun h => hlog (h hsize).1
  by_cases hshape : g.Shaped
  swap
  · rw [check_of_not_shaped hsize hlog hshape]
    exact iff_of_true (Returns.ok _) fun _ => ⟨hlog, fun h => absurd h hshape⟩
  by_cases hagblk : g.agblklog < 64
  · obtain ⟨ok, hok, -⟩ := check_of_shaped hsize hlog hshape hagblk hcount hblocks
    rw [hok]
    exact iff_of_true (Returns.ok _) fun _ => ⟨hlog, fun _ => hagblk⟩
  · rw [check_of_large_agblklog hsize hlog hshape (by omega)]
    exact iff_of_false not_returns_panic fun h => hagblk ((h hsize).2 hshape)

/-- What the checks accept. -/
lemma check_eq_true_iff (hcount : g.agcount < 2 ^ 32) (hblocks : g.agblocks < 2 ^ 32) :
    g.check = .ok true ↔ g.Sized ∧ g.Shaped ∧ g.Roomy := by
  constructor
  · intro h
    have hret : Returns g.check := by
      rw [h]
      exact Returns.ok _
    have hwords := (check_returns_iff hcount hblocks).1 hret
    have hsize : g.Sized := by
      by_contra hnot
      rw [check_of_not_sized hnot] at h
      cases h
    have hlog := (hwords hsize).1
    have hshape : g.Shaped := by
      by_contra hnot
      rw [check_of_not_shaped hsize hlog hnot] at h
      cases h
    obtain ⟨ok, hok, hroomy⟩ :=
      check_of_shaped hsize hlog hshape ((hwords hsize).2 hshape) hcount hblocks
    rw [h] at hok
    exact ⟨hsize, hshape, hroomy.1 (Except.ok.inj hok).symm⟩
  · rintro ⟨hsize, hshape, hroomy⟩
    have hlog : g.blocklog < 64 := by
      have hpow : 2 ^ g.blocklog < 2 ^ 64 := by
        rw [hshape.1]
        exact hsize.2.2.trans_lt (by norm_num)
      exact (Nat.pow_lt_pow_iff_right (by norm_num)).1 hpow
    obtain ⟨ok, hok, hiff⟩ := check_of_shaped hsize hlog hshape
      (hroomy.2.1.trans (by norm_num)) hcount hblocks
    rw [hok, hiff.2 hroomy]

end Check

/-! ### The parser -/

section Parse

variable {b : Buf}

/-- On a whole sector the parser comes to the checks when the marks are there. -/
lemma parse_of_marked (h : 512 ≤ b.length) (hmark : Marked b) : parse b =
    (ofBytes b).check >>= fun ok =>
      refuseIf (ok = false) (.corrupt "superblock geometry") >>= fun _ => .ok (ofBytes b) := by
  have hreach : ∀ n ≤ 512, reaches b n = .ok () := fun n hn => if_pos (hn.trans h)
  rw [parse, hreach _ (by decide), ok_bind, refuseIf_of_not (not_not.2 hmark.1), ok_bind,
    hreach _ (by decide), ok_bind, refuseIf_of_not (not_not.2 hmark.2), ok_bind,
    hreach _ (by decide), ok_bind]
  rfl

/-- Without them it refuses the sector. -/
lemma parse_of_not_marked (h : 512 ≤ b.length) (hmark : ¬ Marked b) :
    ∃ e, parse b = .error (.error e) := by
  have hreach : ∀ n ≤ 512, reaches b n = .ok () := fun n hn => if_pos (hn.trans h)
  rw [parse, hreach _ (by decide), ok_bind]
  by_cases hmagic : be32 b Off.magicnum = magic
  · have hversion : be16 b Off.versionnum &&& 0xf ≠ 5 := fun hv => hmark ⟨hmagic, hv⟩
    rw [refuseIf_of_not (not_not.2 hmagic), ok_bind, hreach _ (by decide), ok_bind, refuseIf,
      if_pos hversion]
    exact ⟨_, rfl⟩
  · rw [refuseIf, if_pos hmagic]
    exact ⟨_, rfl⟩

lemma returns_parse_of_marked (h : 512 ≤ b.length) (hmark : Marked b) :
    Returns (parse b) ↔ Returns (ofBytes b).check := by
  rw [parse_of_marked h hmark]
  rcases hcheck : (ofBytes b).check with e | ok
  · rw [error_bind]
    exact ⟨fun hret f hf => hret f (by rw [← Except.error.inj hf]),
      fun hret f hf => hret f (by rw [← Except.error.inj hf])⟩
  · refine iff_of_true ?_ (Returns.ok ok)
    cases ok with
    | true => exact Returns.ok _
    | false => exact Returns.error _

/-- **What the parser accepts.** -/
theorem parse_eq_ok_iff (h : 512 ≤ b.length) {g : Geo} : parse b = .ok g ↔
    Marked b ∧ g = ofBytes b ∧ g.Sized ∧ g.Shaped ∧ g.Roomy := by
  by_cases hmark : Marked b
  · have hiff : (ofBytes b).check = .ok true ↔ _ :=
      check_eq_true_iff (g := ofBytes b) be32_lt be32_lt
    rw [parse_of_marked h hmark]
    constructor
    · intro hok
      obtain ⟨ok, hcheck, hg⟩ := bind_eq_ok.1 hok
      rw [refuseIf_bind_eq_ok, Bool.not_eq_false] at hg
      rw [hg.1, hiff] at hcheck
      have hgeo : g = ofBytes b := (Except.ok.inj hg.2).symm
      rw [hgeo]
      exact ⟨hmark, rfl, hcheck⟩
    · rintro ⟨-, rfl, hcheck⟩
      rw [hiff.2 hcheck]
      rfl
  · obtain ⟨e, he⟩ := parse_of_not_marked h hmark
    rw [he]
    exact iff_of_false (fun hok => by cases hok) fun hand => hmark hand.1

end Parse

/-! ### What the readers need -/

/-- What the readers compute from the geometry stays in range. -/
structure Usable (g : Geo) : Prop where
  /-- an AG has a block at least and at most `agblocks`, and all have an address -/
  agLen : ∀ agno < g.agcount, ∃ len, g.agLen agno = .ok len ∧ 1 ≤ len ∧ len ≤ g.agblocks ∧
    ∀ agbno < len, g.byte agno agbno = (agno * g.agblocks + agbno) * 2 ^ g.blocklog
  /-- the slot of an inode lies inside its block -/
  slot : ∀ startino < 2 ^ 32, ∀ i < 64, ∃ agbno slot,
    inodeAt g (startino + i) = .ok (agbno, slot) ∧ (slot + 1) * g.inodesize ≤ g.blocksize
  /-- the log has an address, for the administration -/
  logExtent : ∃ extent, g.logExtent = .ok extent
  /-- and for the dump -/
  logByte : g.byte (g.logstart >>> g.agblklog) (g.logstart &&& (2 ^ g.agblklog - 1)) =
    ((g.logstart >>> g.agblklog) * g.agblocks + (g.logstart &&& (2 ^ g.agblklog - 1))) *
      2 ^ g.blocklog

/-- The block of the log's start, counted over all AGs. -/
def logBlock (g : Geo) : ℕ :=
  (g.logstart >>> g.agblklog) * g.agblocks + (g.logstart &&& (2 ^ g.agblklog - 1))

/-- The relations between the fields that the readers rely on. -/
structure Related (g : Geo) : Prop where
  /-- the data blocks reach into the last AG -/
  last_ag : (g.agcount - 1) * g.agblocks < g.dblocks
  blocks_le : g.dblocks * g.blocksize ≤ 2 ^ 64
  inodes_le : 2 ^ g.inopblog * g.inodesize ≤ g.blocksize
  log_lt : g.logBlock * g.blocksize < 2 ^ 64

section Usable

variable {g : Geo}

/-- The address is exact when it fits its word. -/
lemma byte_eq_iff {agno agbno : ℕ} :
    g.byte agno agbno = (agno * g.agblocks + agbno) * 2 ^ g.blocklog ↔
      (agno * g.agblocks + agbno) * 2 ^ g.blocklog < 2 ^ 64 := by
  rw [byte, Nat.shiftLeft_eq]
  refine ⟨fun h => ?_, fun h => Nat.mod_eq_of_lt h⟩
  rw [← h]
  exact Nat.mod_lt _ (by norm_num)

/-- The AG before the last have all their blocks. -/
lemma agLen_of_lt {agno : ℕ} (hcount : 0 < g.agcount) (h : agno ≠ g.agcount - 1) :
    g.agLen agno = .ok g.agblocks := by
  rw [Geo.agLen, sub_of_le hcount, ok_bind, if_neg h]

/-- The last AG has what is left of the data blocks. -/
lemma agLen_last (hcount : 0 < g.agcount) :
    g.agLen (g.agcount - 1) = sub g.dblocks ((g.agcount - 1) * g.agblocks) := by
  rw [Geo.agLen, sub_of_le hcount, ok_bind, if_pos rfl]

/-- All AGs but the last together, and the last. -/
lemma agcount_mul (hcount : 0 < g.agcount) :
    g.agcount * g.agblocks = (g.agcount - 1) * g.agblocks + g.agblocks := by
  obtain ⟨n, hn⟩ := Nat.exists_eq_succ_of_ne_zero hcount.ne'
  rw [hn, Nat.succ_mul, Nat.succ_sub_one]

lemma inodeAt_of_lt (h : g.inopblog < 64) (agino : ℕ) :
    inodeAt g agino = .ok (agino >>> g.inopblog, agino % 2 ^ g.inopblog) := by
  have hone : (1 <<< g.inopblog) % 2 ^ 64 = 2 ^ g.inopblog := by
    rw [Nat.one_shiftLeft, Nat.mod_eq_of_lt (Nat.pow_lt_pow_right (by norm_num) h)]
  rw [inodeAt, shr64, if_pos h, ok_bind, Inspect.shl64, if_pos h, ok_bind, hone,
    Nat.and_two_pow_sub_one_eq_mod]
  rfl

lemma inodeAt_of_ge (h : 64 ≤ g.inopblog) (agino : ℕ) : inodeAt g agino = .error .panic := by
  rw [inodeAt, shr64, if_neg (by omega), error_bind]

/-- The slots of all inodes lie inside their blocks when a block holds as many inodes as it
says. -/
lemma slot_iff (hsize : g.blocksize ≤ 65536) (hino : 256 ≤ g.inodesize) :
    (∀ startino < 2 ^ 32, ∀ i < 64, ∃ agbno slot,
      inodeAt g (startino + i) = .ok (agbno, slot) ∧ (slot + 1) * g.inodesize ≤ g.blocksize) ↔
    2 ^ g.inopblog * g.inodesize ≤ g.blocksize := by
  constructor
  · intro h
    by_cases hlog : g.inopblog ≤ 32
    · -- The last inode of the first block has the last slot.
      have hpos : 0 < 2 ^ g.inopblog := Nat.two_pow_pos _
      have hle : 2 ^ g.inopblog ≤ 2 ^ 32 := Nat.pow_le_pow_right (by norm_num) hlog
      obtain ⟨agbno, slot, hat, hslot⟩ := h (2 ^ g.inopblog - 1) (by omega) 0 (by norm_num)
      rw [inodeAt_of_lt (by omega), Nat.add_zero, Nat.mod_eq_of_lt (by omega)] at hat
      have hlast : slot = 2 ^ g.inopblog - 1 := (Prod.mk.inj (Except.ok.inj hat)).2.symm
      rwa [hlast, Nat.sub_add_cancel hpos] at hslot
    · -- The last inode number there is would have a slot far outside.
      obtain ⟨agbno, slot, hat, hslot⟩ := h (2 ^ 32 - 1) (by norm_num) 0 (by norm_num)
      by_cases hword : g.inopblog < 64
      · have hlt : 2 ^ 32 < 2 ^ g.inopblog := Nat.pow_lt_pow_right (by norm_num) (by omega)
        rw [inodeAt_of_lt hword, Nat.add_zero, Nat.mod_eq_of_lt (by omega)] at hat
        have hlast : slot = 2 ^ 32 - 1 := (Prod.mk.inj (Except.ok.inj hat)).2.symm
        rw [hlast] at hslot
        omega
      · rw [inodeAt_of_ge (by omega)] at hat
        cases hat
  · intro h startino _ i _
    have hpos : 0 < 2 ^ g.inopblog := Nat.two_pow_pos _
    have hlt : 2 ^ g.inopblog < 2 ^ 64 := calc
      2 ^ g.inopblog ≤ 2 ^ g.inopblog * g.inodesize := Nat.le_mul_of_pos_right _ (by omega)
      _ ≤ g.blocksize := h
      _ < 2 ^ 64 := hsize.trans_lt (by norm_num)
    have hlog : g.inopblog < 64 := (Nat.pow_lt_pow_iff_right (by norm_num)).1 hlt
    refine ⟨_, _, inodeAt_of_lt hlog _, ?_⟩
    calc ((startino + i) % 2 ^ g.inopblog + 1) * g.inodesize
        ≤ 2 ^ g.inopblog * g.inodesize := Nat.mul_le_mul_right _ (Nat.mod_lt _ hpos)
      _ ≤ g.blocksize := h

/-- All blocks of all AGs have an address when the last data block does. -/
lemma agLen_iff (hsize : g.Sized) (hshape : g.Shaped) (hroom : g.Roomy) :
    (∀ agno < g.agcount, ∃ len, g.agLen agno = .ok len ∧ 1 ≤ len ∧ len ≤ g.agblocks ∧
      ∀ agbno < len, g.byte agno agbno = (agno * g.agblocks + agbno) * 2 ^ g.blocklog) ↔
    (g.agcount - 1) * g.agblocks < g.dblocks ∧ g.dblocks * g.blocksize ≤ 2 ^ 64 := by
  have hlog : 2 ^ g.blocklog = g.blocksize := hshape.1
  obtain ⟨hcount, hblocks⟩ : 0 < g.agcount ∧ 0 < g.agblocks := hshape.2.2.2.2.2.2.2.2
  have hmul := agcount_mul (g := g) hcount
  have hdb : g.dblocks ≤ g.agcount * g.agblocks := hroom.2.2
  obtain ⟨k, -, hk, hpow⟩ := exists_pow_between.1
    (⟨hsize.1, hsize.2.1, hsize.2.2⟩ : Nat.isPowerOfTwo _ ∧ 2 ^ 9 ≤ _ ∧ _ ≤ 2 ^ 16)
  have hword : (2 : ℕ) ^ 64 = 2 ^ (64 - k) * g.blocksize := by
    rw [hpow, ← Nat.pow_add]
    congr 1
    omega
  have hpos : 0 < g.blocksize := by have := hsize.2.1; omega
  -- A block has an address when it is below `2 ^ (64 - k)`.
  have haddr : ∀ agno agbno, g.byte agno agbno = (agno * g.agblocks + agbno) * 2 ^ g.blocklog ↔
      agno * g.agblocks + agbno < 2 ^ (64 - k) := fun agno agbno => by
    rw [byte_eq_iff, hlog, hword, Nat.mul_lt_mul_right hpos]
  have hle : g.dblocks * g.blocksize ≤ 2 ^ 64 ↔ g.dblocks ≤ 2 ^ (64 - k) := by
    rw [hword, Nat.mul_le_mul_right_iff hpos]
  rw [hle]
  constructor
  · intro h
    obtain ⟨len, hlen, hone, -, hbyte⟩ := h (g.agcount - 1) (by omega)
    rw [agLen_last hcount, sub_eq_ok] at hlen
    have hlast := (haddr (g.agcount - 1) (len - 1)).1 (hbyte (len - 1) (by omega))
    omega
  · rintro ⟨hlast, hfit⟩ agno hagno
    by_cases heq : agno = g.agcount - 1
    · subst heq
      refine ⟨_, (agLen_last hcount).trans (sub_of_le hlast.le), by omega, by omega,
        fun agbno hagbno => (haddr _ _).2 (by omega)⟩
    · refine ⟨_, agLen_of_lt hcount heq, hblocks, le_rfl, fun agbno hagbno => (haddr _ _).2 ?_⟩
      have hbefore : agno * g.agblocks + g.agblocks ≤ (g.agcount - 1) * g.agblocks := by
        rw [← Nat.succ_mul]
        exact Nat.mul_le_mul_right _ (by omega)
      omega

/-- **A geometry that the parser accepts is usable exactly when its fields are related.** -/
theorem usable_iff_related (hsize : g.Sized) (hshape : g.Shaped) (hroom : g.Roomy) :
    g.Usable ↔ g.Related := by
  have hag := agLen_iff hsize hshape hroom
  have hslot := slot_iff (g := g) hsize.2.2 hshape.2.2.2.2.2.2.1
  have hbyte : g.byte (g.logstart >>> g.agblklog) (g.logstart &&& (2 ^ g.agblklog - 1)) =
      g.logBlock * 2 ^ g.blocklog ↔ g.logBlock * g.blocksize < 2 ^ 64 := by
    rw [logBlock, byte_eq_iff, hshape.1]
  have hext : (∃ extent, g.logExtent = .ok extent) ↔ g.logBlock * g.blocksize < 2 ^ 64 := by
    rw [logExtent, logBlock]
    constructor
    · rintro ⟨extent, h⟩
      exact (fit_bind_eq_ok.1 h).1
    · intro h
      exact ⟨_, fit_bind_eq_ok.2 ⟨h, rfl⟩⟩
  constructor
  · intro h
    have hblocks := hag.1 h.agLen
    exact ⟨hblocks.1, hblocks.2, hslot.1 h.slot, hext.1 h.logExtent⟩
  · intro h
    exact ⟨hag.2 ⟨h.last_ag, h.blocks_le⟩, hslot.2 h.inodes_le, hext.2 h.log_lt,
      hbyte.2 h.log_lt⟩

end Usable

/-! ### The superblocks that go through -/

/-- The shifts of the checks stay in their words, and the fields that the checks accept are
related. -/
def Agrees (b : Buf) : Prop :=
  Marked b → (ofBytes b).Sized → (ofBytes b).blocklog < 64 ∧
    ((ofBytes b).Shaped → (ofBytes b).agblklog < 64 ∧ ((ofBytes b).Roomy → (ofBytes b).Related))

/-- **The parser returns, and what it accepts is usable, on exactly the sectors whose fields
agree.** -/
theorem parse_usable_iff (b : Buf) (h : 512 ≤ b.length) :
    (Returns (parse b) ∧ ∀ g, parse b = .ok g → g.Usable) ↔ Agrees b := by
  by_cases hmark : Marked b
  swap
  · obtain ⟨e, he⟩ := parse_of_not_marked h hmark
    rw [he]
    exact iff_of_true ⟨Returns.error e, fun g hg => by cases hg⟩ fun hm => absurd hm hmark
  have hret : Returns (parse b) ↔ _ :=
    (returns_parse_of_marked h hmark).trans (check_returns_iff be32_lt be32_lt)
  have hok : (∀ g, parse b = .ok g → g.Usable) ↔
      ((ofBytes b).Sized → (ofBytes b).Shaped → (ofBytes b).Roomy → (ofBytes b).Related) := by
    constructor
    · intro hall hsize hshape hroom
      exact (usable_iff_related hsize hshape hroom).1
        (hall _ ((parse_eq_ok_iff h).2 ⟨hmark, rfl, hsize, hshape, hroom⟩))
    · intro hrel g hg
      obtain ⟨-, rfl, hsize, hshape, hroom⟩ := (parse_eq_ok_iff h).1 hg
      exact (usable_iff_related hsize hshape hroom).2 (hrel hsize hshape hroom)
  rw [hret, hok]
  constructor
  · rintro ⟨hwords, hrel⟩ - hsize
    exact ⟨(hwords hsize).1, fun hshape => ⟨(hwords hsize).2 hshape, hrel hsize hshape⟩⟩
  · intro hagree
    exact ⟨fun hsize => ⟨(hagree hmark hsize).1, fun hshape => ((hagree hmark hsize).2 hshape).1⟩,
      fun hsize hshape => ((hagree hmark hsize).2 hshape).2⟩

/-- The superblock of a filesystem of one AG of 1024 blocks, its logs of sizes as given. -/
def sectorWith (blocklog inopblog agblklog : ℕ) : Buf := putFields (List.replicate 512 0)
  [.u32 Off.magicnum magic, .u32 Off.blocksize 4096, .u64 Off.dblocks 1024,
    .u64 Off.logstart 64, .u32 Off.agblocks 1024, .u32 Off.agcount 1, .u32 Off.logblocks 512,
    .u16 Off.versionnum 0xb4a5, .u16 Off.sectsize 512, .u16 Off.inodesize 512,
    .u8 Off.blocklog blocklog, .u8 Off.inopblog inopblog, .u8 Off.agblklog agblklog]

/-- The geometry in it. -/
def geoWith (blocklog inopblog agblklog : ℕ) : Geo where
  blocksize := 4096
  blocklog := blocklog
  sectsize := 512
  agblocks := 1024
  agcount := 1
  dblocks := 1024
  agblklog := agblklog
  inodesize := 512
  inopblog := inopblog
  logstart := 64
  logblocks := 512
  logsectsize := 0
  logsunit := 0
  roCompat := 0
  incompat := 0

lemma sized_geoWith (blocklog inopblog agblklog : ℕ) : (geoWith blocklog inopblog agblklog).Sized :=
  ⟨⟨12, rfl⟩, by norm_num [geoWith], by norm_num [geoWith]⟩

lemma shaped_geoWith (inopblog agblklog : ℕ) : (geoWith 12 inopblog agblklog).Shaped := by
  refine ⟨rfl, ⟨9, rfl⟩, ?_, ?_, ?_, ⟨9, rfl⟩, ?_⟩ <;> norm_num [geoWith]

/-- **One bad byte makes the parser panic, another is let through**: a block shift of 76, and
sixteen inodes of 512 bytes to a block of 4096. -/
theorem parse_not_usable :
    ¬ Returns (parse (sectorWith 76 3 10)) ∧
      ∃ g, parse (sectorWith 12 4 10) = .ok g ∧ ¬ g.Usable := by
  constructor
  · have hgeo : ofBytes (sectorWith 76 3 10) = geoWith 76 3 10 := by decide +kernel
    have hmark : Marked (sectorWith 76 3 10) := by decide +kernel
    rw [returns_parse_of_marked (by decide +kernel) hmark, hgeo,
      check_of_large_blocklog (sized_geoWith 76 3 10) (by decide)]
    exact not_returns_panic
  · have hgeo : ofBytes (sectorWith 12 4 10) = geoWith 12 4 10 := by decide +kernel
    have hmark : Marked (sectorWith 12 4 10) := by decide +kernel
    have hroom : (geoWith 12 4 10).Roomy := by norm_num [Roomy, geoWith]
    refine ⟨geoWith 12 4 10, (parse_eq_ok_iff (by decide +kernel)).2
      ⟨hmark, hgeo.symm, sized_geoWith 12 4 10, shaped_geoWith 4 10, hroom⟩, fun hu => ?_⟩
    obtain ⟨-, -, hinodes, -⟩ :=
      (usable_iff_related (sized_geoWith 12 4 10) (shaped_geoWith 4 10) hroom).1 hu
    norm_num [geoWith] at hinodes

/-- The undamaged superblock goes through. -/
theorem parse_usable_sector : Agrees (sectorWith 12 3 10) ∧
    (Returns (parse (sectorWith 12 3 10)) ∧ ∀ g, parse (sectorWith 12 3 10) = .ok g → g.Usable) := by
  have hgeo : ofBytes (sectorWith 12 3 10) = geoWith 12 3 10 := by decide +kernel
  have hagree : Agrees (sectorWith 12 3 10) := by
    rw [Agrees, hgeo]
    refine fun _ _ => ⟨by decide, fun _ => ⟨by decide, fun _ => ⟨?_, ?_, ?_, ?_⟩⟩⟩ <;> decide
  exact ⟨hagree, (parse_usable_iff (sectorWith 12 3 10) (by decide +kernel)).2 hagree⟩

end Geo

end MkfsXfs
