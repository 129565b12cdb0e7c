import MkfsXfs.Format.Left
import MkfsXfs.Whole

/-!
A format is operations on whole blocks.

* `Setup.zeroEnds_whole`, `writeLog_whole`, `writeHeads_whole`, `writeChunk_whole`,
  `finish_whole`: each of its stages is.
* `format_safe`: so is all of it, and its own errors are not those of a device.
-/

namespace MkfsXfs

open Checked

/-- The fault is not one that the device reports. -/
def Own (f : Fault Error) : Prop := ¬ DeviceFault f

lemma Own.panic : Own .panic := fun ⟨_, h, _⟩ => by cases h

lemma Own.of_refusal {e : Error} (h : e.Refusal) : Own (.error e) := fun ⟨_, he, hne⟩ => by
  cases he
  exact hne h

section Blocks

variable {params : Params} {dev logical physical : ℕ} {g : Geometry} {agno agbno n : ℕ}

lemma Accepted.bs_dvd_agbToByte (h : Accepted params dev logical physical g) :
    g.bs ∣ g.agbToByte agno agbno := by
  rw [h.agbToByte_eq]
  exact dvd_mul_left _ _

/-- A block divides what is a power of two, and not less than the largest block. -/
lemma Accepted.bs_dvd_two_pow (h : Accepted params dev logical physical g) (hn : 14 ≤ n) :
    g.bs ∣ 2 ^ n := by
  have hbs : g.bs = 2 ^ g.blocklog := h.blocksize
  rw [hbs]
  exact pow_dvd_pow 2 (h.blocklog_le.trans hn)

/-- A block is whole sectors of the device. -/
lemma Accepted.logical_dvd (h : Accepted params dev logical physical g)
    (hpow : logical.isPowerOfTwo) : logical ∣ g.bs := by
  obtain ⟨k, rfl⟩ := hpow
  have hbs : g.bs = 2 ^ g.blocklog := h.blocksize
  have hle : 2 ^ k ≤ 2 ^ g.blocklog := by
    rw [← hbs]
    exact ((le_max_left _ _).trans h.logical_le).trans h.sectsize_le
  rw [hbs]
  exact pow_dvd_pow 2 ((Nat.pow_le_pow_iff_right (by norm_num)).1 hle)

/-- Operations on extents of blocks are whole blocks. -/
lemma Accepted.whole_extent (h : Accepted params dev logical physical g) (hdev : dev < 2 ^ 64)
    (hc : g.Covered) (he : g.HasExtent agno agbno n) {op : DevOp}
    (hoff : op.offset = g.agbToByte agno agbno) (hlen : ∃ k ≤ n, op.len = k * g.bs) :
    op.Whole g.bs dev where
  offset := hoff ▸ h.bs_dvd_agbToByte
  len := by
    obtain ⟨k, -, hk⟩ := hlen
    exact hk ▸ dvd_mul_left _ _
  inside := by
    obtain ⟨k, hkn, hk⟩ := hlen
    have hroom := h.extent_le hdev hc he
    have hmul : k * g.bs ≤ n * g.bs := Nat.mul_le_mul_right _ hkn
    omega

end Blocks

/-! ### The stages -/

section Stages

variable {params : Params} {dev logical physical : ℕ} {s : Setup} {order : List ℕ}

lemma Setup.zeroEnds_whole (h : Accepted params dev logical physical s.g) :
    (s.zeroEnds dev).Safe (DevOp.Whole s.g.bs dev) Own (fun _ => True) := by
  have hend : dev / s.g.bs * s.g.bs ≤ dev := Nat.div_mul_le_self _ _
  have htail : (dev / s.g.bs * s.g.bs - whackSize) / s.g.bs * s.g.bs ≤
      dev / s.g.bs * s.g.bs - whackSize := Nat.div_mul_le_self _ _
  have hwhack : s.g.bs ∣ whackSize := h.bs_dvd_two_pow (n := 17) (by decide)
  have hmin := dvd_min hwhack (dvd_mul_left s.g.bs (dev / s.g.bs))
  refine (safe_writeZeroes (Q := fun _ => True) ⟨dvd_zero _, hmin, ?_⟩ trivial).bind fun _ _ =>
    safe_writeZeroes ⟨dvd_mul_left _ _, Nat.dvd_sub (dvd_mul_left _ _) (dvd_mul_left _ _), ?_⟩
      trivial
  · change (dev / s.g.bs * s.g.bs - whackSize) / s.g.bs * s.g.bs + (dev / s.g.bs * s.g.bs -
      (dev / s.g.bs * s.g.bs - whackSize) / s.g.bs * s.g.bs) ≤ dev
    omega
  · change 0 + min whackSize (dev / s.g.bs * s.g.bs) ≤ dev
    omega

variable (h : Accepted params dev logical physical s.g) (hdev : dev < 2 ^ 64)
  (hmin : s.g.AgsMin) (hlog : s.g.LogFits) (hs : s.Separate)

include h hdev hmin hs

lemma Setup.writeLog_whole (hlog : s.g.LogFits) :
    s.writeLog.Safe (DevOp.Whole s.g.bs dev) Own (fun _ => True) := by
  have hc := h.covered_of_min hdev hmin
  obtain ⟨first, hfirst, hlen, -⟩ := hs.log
  rw [writeLog, hfirst]
  refine (safe_writeZeroes (Q := fun _ => True)
    (h.whole_extent hdev hc hlog.extent rfl ⟨_, le_rfl, rfl⟩) trivial).bind fun _ _ => ?_
  have hpos : 1 ≤ s.g.logblocks := h.logblocks_pos
  exact safe_writeAt (h.whole_extent hdev hc hlog.extent rfl
    ⟨1, hpos, by rw [Nat.one_mul]; exact hlen⟩) trivial

lemma Setup.writeHeads_whole (horder : ∀ agno ∈ order, agno < s.g.agcount) :
    (s.writeHeads order).Safe (DevOp.Whole s.g.bs dev) Own (fun _ => True) := by
  induction order with
  | nil => trivial
  | cons agno order ih =>
      have hag := horder agno List.mem_cons_self
      obtain ⟨head, hhead, hlen⟩ := hs.head agno hag
      have hone : (s.writeHead agno).Safe (DevOp.Whole s.g.bs dev) Own (fun _ => True) := by
        rw [writeHead, hhead]
        exact safe_writeAt (h.whole_extent hdev (h.covered_of_min hdev hmin)
          (h.extent_head hmin hag) rfl ⟨_, le_rfl, hlen⟩) trivial
      exact hone.bind fun _ _ => ih fun a ha => horder a (List.mem_cons_of_mem agno ha)

lemma Setup.finish_whole : s.finish.Safe (DevOp.Whole s.g.bs dev) Own (fun _ => True) := by
  obtain ⟨head, hfin, hlen, hle⟩ := hs.finished
  have hroom := h.extent_le hdev (h.covered_of_min hdev hmin)
    (h.extent_head hmin (by have := h.agcount_ge; omega : 0 < s.g.agcount))
  have hwhole : (DevOp.writeAt 0 head).Whole s.g.bs dev := by
    refine ⟨dvd_zero _, ?_, ?_⟩
    · change s.g.bs ∣ head.length
      rw [hlen]
      exact dvd_mul_left _ _
    · change 0 + head.length ≤ dev
      have hrange : (s.headRange 0).len = s.g.preallocBlocks * s.g.bs := rfl
      omega
  rw [finish, hfin]
  exact (safe_writeAt (Q := fun _ => True) hwhole trivial).bind fun _ _ =>
    safe_flush (DevOp.whole_flush _ _) trivial

end Stages

section Whole

variable {params : Params} {size : UInt64} {logical physical : UInt32} {id : Identity}
  {order : List ℕ} {s : Setup}

/-- The chunk only fails by a panic. -/
lemma Setup.chunk_error (hs : setup params size logical physical id = .ok s) {e : Fault Error}
    (he : s.chunk = .error e) : e = .panic := by
  have h := compute_eq_ok.mp (setup_eq_ok.mp hs).1
  have hchunk : s.chunk = _ := Setup.chunk_withTime (t := s.id.time) hs
  rcases encodeTime_cases s.id.time s.g.features.bigtime with hpanic | ⟨raw, henc, -⟩
  · rw [hchunk, h.rootChunk_panic hpanic] at he
    exact (Except.error.inj he).symm
  · obtain ⟨inodes, hmade⟩ : ∃ inodes, rootChunk s.g s.g.rootChunkAgbno s.id.uuid s.id.time
        ⟨s.id.genSeed⟩ = .ok inodes := h.rootChunk_ok ⟨raw, henc⟩
    rw [hchunk, hmade] at he
    cases he

lemma Setup.writeChunk_whole (hs : setup params size logical physical id = .ok s)
    (hmin : s.g.AgsMin) (hsep : s.Separate) :
    s.writeChunk.Safe (DevOp.Whole s.g.bs size.toNat) Own (fun _ => True) := by
  have h := compute_eq_ok.mp (setup_eq_ok.mp hs).1
  rw [writeChunk]
  refine Prog.Safe.bind (Q := fun r => s.chunk = .ok r)
    (safe_ofExcept_of (fun e he => ?_) fun r hr => hr) fun r hr => ?_
  · rw [Setup.chunk_error hs he]
    exact .panic
  · obtain ⟨agbno, inodes⟩ := r
    obtain ⟨rfl, hlen⟩ := hsep.chunk agbno inodes hr
    exact (safe_writeAt (Q := fun _ => True) (h.whole_extent size.toNat_lt
      (h.covered_of_min size.toNat_lt hmin) h.extent_chunk rfl ⟨_, le_rfl, hlen⟩) trivial).bind
      fun _ _ => safe_flush (DevOp.whole_flush _ _) trivial

/-- **A format is whole blocks.** -/
theorem format_safe (hs : setup params size logical physical id = .ok s) (hmin : s.g.AgsMin)
    (horder : ∀ agno ∈ order, agno < s.g.agcount) :
    (format params size logical physical id order).Safe (DevOp.Whole s.g.bs size.toNat) Own
      (fun _ => True) := by
  obtain ⟨hg, hplans, -, -⟩ := setup_eq_ok.mp hs
  have h := compute_eq_ok.mp hg
  have hdev := size.toNat_lt
  have hlog := h.logFits hdev hplans
  have hsep := Setup.separate h hdev hmin hlog hplans
  rw [format_eq hs, Setup.body]
  refine Prog.Safe.bind (Q := fun _ => True) ?_ fun _ _ =>
    (Setup.finish_whole h hdev hmin hsep).bind fun _ _ => trivial
  refine (Setup.zeroEnds_whole h).bind fun _ _ => ?_
  refine (Setup.writeLog_whole h hdev hmin hsep hlog).bind fun _ _ => ?_
  exact (Setup.writeHeads_whole h hdev hmin hsep horder).bind fun _ _ =>
    Setup.writeChunk_whole hs hmin hsep

end Whole

end MkfsXfs
