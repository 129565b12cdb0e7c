import MkfsXfs.Completed
import MkfsXfs.Format.PlanOk
import MkfsXfs.Format.Run

/-!
A format that is cut short, by a failing operation or by a power loss.

* `Disk.Finished`: block 0 holds the superblock of a finished filesystem.
* `DevOp.KeepsUnfinished`: an operation that does not finish a filesystem.  Until the last
  write a format has no other (`Setup.safe_body`), and its first one leaves nothing finished.
* `format_error_unfinished`: after a failing operation the filesystem is not finished, unless
  only the last flush is missing.
* `format_power_loss_iff`: after a power loss a finished filesystem is a complete one, exactly
  when the disk did not hold a finished one before.
-/

namespace MkfsXfs

open Checked

/-! ### Finished filesystems -/

/-- Block 0 holds an XFS superblock with `sb_inprogress` = 0. -/
def Disk.Finished (d : Disk) : Prop :=
  be32 (d.readBuf Sb.Off.magicnum 4) 0 = Sb.magic ∧ d.bytes Sb.Off.inprogress = 0

/-- The operation does not finish a filesystem. -/
def DevOp.KeepsUnfinished (op : DevOp) : Prop :=
  ∀ d : Disk, ¬ d.Finished → ¬ (op.effect d).Finished

section Finished

variable {d d' : Disk} {op : DevOp}

/-- Whether a filesystem is finished is read in the first 127 bytes. -/
lemma finished_congr (h : ∀ a ≤ Sb.Off.inprogress, d'.bytes a = d.bytes a) :
    d'.Finished ↔ d.Finished := by
  have hread : d'.readBuf Sb.Off.magicnum 4 = d.readBuf Sb.Off.magicnum 4 :=
    Disk.readBuf_congr fun a _ ha => h a (le_trans (Nat.le_of_lt ha) (by decide))
  rw [Disk.Finished, Disk.Finished, hread, h _ le_rfl]

/-- The magic number begins with a byte that is not zero. -/
lemma not_finished_of_zero (h : d.bytes 0 = 0) : ¬ d.Finished := by
  rintro ⟨hmagic, -⟩
  have hbyte : byteAt (d.readBuf Sb.Off.magicnum 4) 0 = 0 := by
    rw [Disk.byteAt_readBuf (by decide)]
    exact h
  have hlt : be32 (d.readBuf Sb.Off.magicnum 4) 0 < 2 ^ 24 := by
    have h₁ := (byteAt (d.readBuf Sb.Off.magicnum 4) (0 + 1)).toNat_lt
    have h₂ : be16 (d.readBuf Sb.Off.magicnum 4) (0 + 2) < 2 ^ 16 := be16_lt
    rw [be32, be16, hbyte, UInt8.toNat_zero]
    omega
  rw [hmagic] at hlt
  exact absurd hlt (by decide)

/-- What starts past the flag keeps the filesystem unfinished. -/
lemma keepsUnfinished_of_offset (h : Sb.Off.inprogress < op.offset) : op.KeepsUnfinished := by
  intro d hd
  rw [finished_congr]
  · exact hd
  intro a ha
  cases op with
  | readAt off len => rfl
  | writeAt off buf => exact Disk.bytes_put_of_not_mem (.inl (lt_of_le_of_lt ha h))
  | writeZeroes off n => exact Disk.bytes_put_of_not_mem (.inl (lt_of_le_of_lt ha h))
  | flush => rfl

/-- A flush keeps the filesystem unfinished. -/
lemma keepsUnfinished_flush : DevOp.flush.KeepsUnfinished := fun _ hd => hd

/-- Zeroing the start leaves no finished filesystem. -/
lemma not_finished_zeroed {n : ℕ} (hn : 0 < n) :
    ¬ ((DevOp.writeZeroes 0 n).effect d).Finished := by
  refine not_finished_of_zero ?_
  rw [DevOp.effect, Disk.bytes_put_of_mem (Nat.zero_le 0) (by simpa using hn), Nat.sub_zero]
  exact byteAt_replicate_zero

lemma keepsUnfinished_zero (n : ℕ) : (DevOp.writeZeroes 0 n).KeepsUnfinished := by
  intro d hd
  rcases Nat.eq_zero_or_pos n with rfl | hn
  · rw [DevOp.effect, List.replicate_zero, Disk.put_nil]
    exact hd
  · exact not_finished_zeroed hn

/-- A superblock with the flag set leaves no finished filesystem. -/
lemma keepsUnfinished_inprogress {buf : Buf} (hlen : Sb.Off.inprogress < buf.length)
    (hflag : byteAt buf Sb.Off.inprogress = 1) : (DevOp.writeAt 0 buf).KeepsUnfinished := by
  rintro d - ⟨-, hzero⟩
  rw [DevOp.effect, Disk.bytes_put_of_mem (Nat.zero_le _) (by omega), Nat.sub_zero, hflag] at hzero
  exact absurd hzero (by decide)

end Finished

/-! ### What the stages write -/

section Stages

variable {params : Params} {dev logical physical : ℕ} {s : Setup}

/-- The plan of an AG is what planning it gave. -/
lemma Setup.plan_eq_ok {agno : ℕ} {plan : AgPlan} (hplans : planAll s.g = .ok s.plans)
    (hplan : s.plan agno = .ok plan) : agno < s.g.agcount ∧ planAg s.g agno = .ok plan := by
  obtain ⟨hlen, hget⟩ := List.forall₂_iff_get.mp (mapM_eq_ok_iff.mp hplans)
  rw [List.length_range] at hlen
  rw [Setup.plan] at hplan
  cases hat : s.plans[agno]? with
  | none =>
      rw [hat] at hplan
      cases hplan
  | some p =>
      rw [hat] at hplan
      obtain rfl : p = plan := Except.ok.inj hplan
      obtain ⟨hlt, rfl⟩ := List.getElem?_eq_some_iff.mp hat
      refine ⟨by omega, ?_⟩
      simpa using hget agno (by rw [List.length_range]; omega) hlt

/-- The start of an AG but the first is past the flag. -/
lemma Accepted.flag_lt (h : Accepted params dev logical physical s.g) {agno agbno : ℕ}
    (hpos : 0 < agno ∨ 0 < agbno) : Sb.Off.inprogress < s.g.agbToByte agno agbno := by
  have hbs : 2 ^ 10 ≤ s.g.blocksize := by
    rw [h.blocksize]
    exact Nat.pow_le_pow_right (by norm_num) h.blocklog_ge
  have hsize := h.agsize_ge
  have hblock : 0 < agno * s.g.agsize + agbno := by
    rcases hpos with hag | hblock
    · have hmul : 1 * s.g.agsize ≤ agno * s.g.agsize := Nat.mul_le_mul_right _ hag
      omega
    · omega
  rw [h.agbToByte_eq]
  have hmul : 1 * s.g.blocksize ≤ (agno * s.g.agsize + agbno) * s.g.blocksize :=
    Nat.mul_le_mul_right _ hblock
  have hflag : Sb.Off.inprogress < 2 ^ 10 := by decide
  omega

/-- Whole blocks at the end of the device start at 0 or past the flag. -/
lemma Accepted.tail_cases (h : Accepted params dev logical physical s.g) (n : ℕ) :
    n / s.g.bs * s.g.bs = 0 ∨ Sb.Off.inprogress < n / s.g.bs * s.g.bs := by
  rcases Nat.eq_zero_or_pos (n / s.g.bs) with hzero | hpos
  · left
    rw [hzero, Nat.zero_mul]
  · right
    have hlt := h.flag_lt (.inr hpos : 0 < 0 ∨ 0 < n / s.g.bs)
    rwa [h.agbToByte_eq, Nat.zero_mul, Nat.zero_add] at hlt

/-- No stage before the last finishes a filesystem. -/
abbrev Unfinishing {α : Type} (p : DevM α) : Prop :=
  p.Safe DevOp.KeepsUnfinished (fun _ => True) fun _ => True

lemma unfinishing_writeAt {off : ℕ} {buf : Buf} (h : (DevOp.writeAt off buf).KeepsUnfinished) :
    Unfinishing (writeAt off buf) := safe_writeAt h trivial

lemma unfinishing_writeZeroes {off n : ℕ} (h : (DevOp.writeZeroes off n).KeepsUnfinished) :
    Unfinishing (writeZeroes off n) := safe_writeZeroes h trivial

lemma Setup.safe_zeroEnds (h : Accepted params dev logical physical s.g) (size : ℕ) :
    Unfinishing (s.zeroEnds size) := by
  refine (unfinishing_writeZeroes (keepsUnfinished_zero _)).bind fun _ _ => ?_
  refine unfinishing_writeZeroes ?_
  rcases h.tail_cases (size / s.g.bs * s.g.bs - whackSize) with hzero | hlt
  · rw [hzero]
    exact keepsUnfinished_zero _
  · exact keepsUnfinished_of_offset hlt

lemma Setup.safe_writeLog (h : Accepted params dev logical physical s.g) :
    Unfinishing s.writeLog := by
  have hn := h.agcount_ge
  have hlt : Sb.Off.inprogress < s.logAt := h.flag_lt (.inl (by rw [h.logagno]; omega))
  refine (unfinishing_writeZeroes (keepsUnfinished_of_offset hlt)).bind fun _ _ => ?_
  have hblock : Unfinishing (Prog.ofExcept s.logBlock) :=
    Prog.safe_ofExcept.mpr ⟨fun _ _ => trivial, fun _ _ => trivial⟩
  exact hblock.bind fun _ _ => unfinishing_writeAt (keepsUnfinished_of_offset hlt)

/-- The head of AG 0 is written with the flag set. -/
lemma Setup.head_zero (h : Accepted params dev logical physical s.g)
    (hplans : planAll s.g = .ok s.plans) {head : Buf} (hhead : s.head 0 = .ok head) :
    Sb.Off.inprogress < head.length ∧ byteAt head Sb.Off.inprogress = 1 := by
  rw [Setup.head] at hhead
  obtain ⟨plan, hplan, hhead⟩ := bind_eq_ok.mp hhead
  obtain ⟨-, hplan⟩ := Setup.plan_eq_ok hplans hplan
  have hsect := h.sectsize_ge
  have hflag : Sb.Off.inprogress < 2 ^ 9 := by decide
  have hpast : Sb.Off.past ≤ 2 ^ 9 := by decide
  obtain ⟨-, hlen, hbyte⟩ := h.sector_agHead hhead
  refine ⟨by omega, ?_⟩
  have hfield : Field.u8 Sb.Off.inprogress (s.agSbs 0).inprogress.toNat
      ∈ Sb.fields s.g (s.agSbs 0) (s.g.dirblocklog - s.g.blocklog) :=
    Sb.mem_firstFields (by simp [Sb.firstFields])
  rw [hbyte _ (hflag.trans_le hsect),
    Sb.byteAt_image h.label_length (hpast.trans hsect) hfield (by decide), Setup.agSbs, if_pos rfl]
  rfl

lemma Setup.safe_writeHeads (h : Accepted params dev logical physical s.g)
    (hplans : planAll s.g = .ok s.plans) (order : List ℕ) : Unfinishing (s.writeHeads order) := by
  induction order with
  | nil => trivial
  | cons agno order ih =>
      have hhead : Unfinishing (s.writeHead agno) := by
        have hmade : (Prog.ofExcept (s.head agno) : DevM Buf).Safe DevOp.KeepsUnfinished
            (fun _ => True) fun head => s.head agno = .ok head :=
          Prog.safe_ofExcept.mpr ⟨fun _ _ => trivial, fun _ hok => hok⟩
        refine hmade.bind fun head hok => unfinishing_writeAt ?_
        rcases Nat.eq_zero_or_pos agno with rfl | hpos
        · obtain ⟨hlen, hflag⟩ := Setup.head_zero h hplans hok
          rw [h.agbToByte_eq, Nat.zero_mul, Nat.zero_add, Nat.zero_mul]
          exact keepsUnfinished_inprogress hlen hflag
        · exact keepsUnfinished_of_offset (h.flag_lt (.inl hpos))
      exact hhead.bind fun _ _ => ih

lemma Setup.safe_writeChunk (h : Accepted params dev logical physical s.g) (hdev : dev < 2 ^ 64)
    (hplans : planAll s.g = .ok s.plans) : Unfinishing s.writeChunk := by
  have hmade : (Prog.ofExcept s.chunk : DevM (ℕ × Buf)).Safe DevOp.KeepsUnfinished
      (fun _ => True) fun r => 0 < r.1 := by
    refine Prog.safe_ofExcept.mpr ⟨fun _ _ => trivial, fun r hok => ?_⟩
    rw [Setup.chunk] at hok
    obtain ⟨plan, hplan, hok⟩ := bind_eq_ok.mp hok
    obtain ⟨-, hplan⟩ := Setup.plan_eq_ok hplans hplan
    obtain ⟨hp, -⟩ := h.plan_zero hdev hplan
    have hchunk := hp.planned.chunk
    rw [hp.agno_eq, if_pos rfl] at hchunk
    rw [hchunk] at hok
    obtain ⟨inodes, -, hok⟩ := bind_eq_ok.mp hok
    obtain rfl := Except.ok.inj hok
    have hprealloc := h.preallocBlocks_bounds
    have hstart := h.rootChunk_bounds.1
    omega
  refine hmade.bind fun r hpos => ?_
  refine (unfinishing_writeAt (keepsUnfinished_of_offset (h.flag_lt (.inr hpos)))).bind ?_
  exact fun _ _ => safe_flush keepsUnfinished_flush trivial

/-- **Until the last write no operation finishes a filesystem.** -/
lemma Setup.safe_body (h : Accepted params dev logical physical s.g) (hdev : dev < 2 ^ 64)
    (hplans : planAll s.g = .ok s.plans) (size : ℕ) (order : List ℕ) :
    Unfinishing (s.body size order) :=
  (Setup.safe_zeroEnds h size).bind fun _ _ => (Setup.safe_writeLog h).bind fun _ _ =>
    (Setup.safe_writeHeads h hplans order).bind fun _ _ =>
      Setup.safe_writeChunk h hdev hplans

end Stages

/-! ### The operations of a format -/

/-- A run that succeeds ends with a flush. -/
def EndsFlushed {α : Type} (p : DevM α) : Prop :=
  ∀ (dev : Device) (d d' : Disk) (a : α), dev.run p d = (.ok a, d') →
    ∃ ops, dev.trace p d = ops ++ [.flush]

section Operations

variable {α β : Type} {p : DevM α} {f : α → DevM β} {dev : Device} {d d' : Disk} {s : Setup}

lemma endsFlushed_flush : EndsFlushed flush := by
  intro dev d d' a h
  exact ⟨[], Device.trace_perform_ok h⟩

lemma EndsFlushed.bind (hf : ∀ a, EndsFlushed (f a)) : EndsFlushed (p >>= f) := by
  intro dev d d' b h
  obtain ⟨a, t, hp, hrun⟩ := Device.run_bind_eq_ok.mp h
  obtain ⟨ops, hops⟩ := hf a dev t d' b hrun
  exact ⟨dev.trace p d ++ ops, by rw [Device.trace_bind_ok hp, hops, List.append_assoc]⟩

/-- Everything before the last write ends with a flush. -/
lemma Setup.body_endsFlushed (s : Setup) (size : ℕ) (order : List ℕ) :
    EndsFlushed (s.body size order) := by
  have hchunk : EndsFlushed s.writeChunk :=
    EndsFlushed.bind fun _ => EndsFlushed.bind fun _ => endsFlushed_flush
  exact EndsFlushed.bind fun _ => EndsFlushed.bind fun _ => EndsFlushed.bind fun _ => hchunk

/-- The first operation of a format. -/
def Setup.firstOp (s : Setup) (size : ℕ) : DevOp :=
  .writeZeroes 0 (min whackSize (size / s.g.bs * s.g.bs))

/-- What is completed starts with the first operation. -/
lemma Setup.trace_body (s : Setup) (dev : Device) (size : ℕ) (order : List ℕ) (d : Disk) :
    dev.trace (s.body size order) d = [] ∨
      ∃ ops, dev.trace (s.body size order) d = s.firstOp size :: ops := by
  obtain ⟨k, hk⟩ : ∃ k, s.body size order = Prog.call (s.firstOp size) k := ⟨_, rfl⟩
  rw [hk, Device.trace, Prog.trace_call]
  rcases dev.step (s.firstOp size) d with ⟨e | a, t⟩
  · exact .inl rfl
  · exact .inr ⟨_, rfl⟩

/-- On a healthy disk the first operation is completed. -/
lemma Setup.trace_body_healthy (s : Setup) {size : ℕ} {order : List ℕ} (hd : d.Healthy)
    (hsize : size ≤ dev.size) :
    ∃ ops, dev.trace (s.body size order) d = s.firstOp size :: ops := by
  have hle : size / s.g.bs * s.g.bs ≤ size := Nat.div_mul_le_self _ _
  have hin : (s.firstOp size).offset + (s.firstOp size).len ≤ dev.size := by
    show 0 + min whackSize (size / s.g.bs * s.g.bs) ≤ dev.size
    omega
  obtain ⟨k, hk⟩ : ∃ k, s.body size order = Prog.call (s.firstOp size) k := ⟨_, rfl⟩
  rw [hk, Device.trace, Prog.trace_call, Device.step_healthy _ hd hin]
  exact ⟨_, rfl⟩

/-- The last write and its flush. -/
inductive Setup.FinishRun (s : Setup) (dev : Device) (d : Disk) : Prop where
  /-- nothing is written -/
  | none (e : Fault Error) (hrun : (dev.run s.finish d).1 = .error e)
      (htrace : dev.trace s.finish d = [])
  /-- only the flush is missing -/
  | unflushed (e : Fault Error) (head : Buf) (hrun : (dev.run s.finish d).1 = .error e)
      (htrace : dev.trace s.finish d = [.writeAt 0 head])
      (hheal : (dev.run s.finish d.heal).1 = .ok ())
      (htraceHeal : dev.trace s.finish d.heal = [.writeAt 0 head, .flush])
  | done (d' : Disk) (head : Buf) (hrun : dev.run s.finish d = (.ok (), d'))
      (htrace : dev.trace s.finish d = [.writeAt 0 head, .flush])

lemma Setup.finish_cases (s : Setup) (dev : Device) (d : Disk) : s.FinishRun dev d := by
  cases hhead : s.finishedHead with
  | error e =>
      have hfin : s.finish = Prog.fail e := by
        rw [Setup.finish, hhead]
        rfl
      exact .none e (by rw [hfin]; rfl) (by rw [hfin]; rfl)
  | ok head =>
      have hfin : s.finish = writeAt 0 head >>= fun _ => flush := by
        rw [Setup.finish, hhead]
        rfl
      rcases hwrite : dev.run (writeAt 0 head) d with ⟨e | a, t⟩
      · refine .none e (by rw [hfin, Device.run_bind_error hwrite]) ?_
        rw [hfin, Device.trace_bind_error hwrite]
        exact Device.trace_perform_error hwrite
      · have hwrote : dev.trace (writeAt 0 head) d = [.writeAt 0 head] :=
          Device.trace_perform_ok hwrite
        rcases hflush : dev.run flush t with ⟨e | b, t'⟩
        · have hflushed : dev.run flush t.heal = (.ok (), t.heal) :=
            Device.run_flush t.heal_healthy
          have hwriteHeal := Device.run_heal hwrite
          refine .unflushed e head ?_ ?_ ?_ ?_
          · rw [hfin, Device.run_bind_ok hwrite, hflush]
          · rw [hfin, Device.trace_bind_ok hwrite, hwrote,
              show dev.trace flush t = [] from Device.trace_perform_error hflush, List.append_nil]
          · rw [hfin, Device.run_bind_ok hwriteHeal, hflushed]
          · rw [hfin, Device.trace_bind_ok hwriteHeal, Device.trace_heal_of_ok hwrite, hwrote,
              show dev.trace flush t.heal = [.flush] from Device.trace_perform_ok hflushed]
            rfl
        · refine .done t' head (by rw [hfin, Device.run_bind_ok hwrite, hflush]) ?_
          rw [hfin, Device.trace_bind_ok hwrite, hwrote,
            show dev.trace flush t = [.flush] from Device.trace_perform_ok hflush]
          rfl

end Operations

/-! ### Failing operations -/

section Failing

variable {params : Params} {size : UInt64} {logical physical : UInt32} {id : Identity}
  {order : List ℕ} {s : Setup} {dev : Device} {d : Disk}

/-- A format that gets past planning. -/
lemma format_eq (hs : setup params size logical physical id = .ok s) (order : List ℕ) :
    format params size logical physical id order = s.body size.toNat order >>= fun _ =>
      s.finish >>= fun _ => Prog.pure s.report := by
  rw [format, hs]
  rfl

/-- A format that does not. -/
lemma format_of_error {e : Fault Error} (hs : setup params size logical physical id = .error e)
    (order : List ℕ) : format params size logical physical id order = Prog.fail e := by
  rw [format, hs]
  rfl

/-- The first operation zeroes the start of the device. -/
lemma Setup.zeroed_pos (hs : setup params size logical physical id = .ok s) :
    0 < min whackSize (size.toNat / s.g.bs * s.g.bs) := by
  have h := compute_eq_ok.mp (setup_eq_ok.mp hs).1
  have hbs : 0 < s.g.bs := h.blocksize_pos
  have hblocks : 1 * s.g.bs ≤ s.g.dblocks * s.g.bs := by
    refine Nat.mul_le_mul_right _ ?_
    have h1 := h.agsize_ge
    have h2 := h.agsize_le
    omega
  have hsize := (Nat.mul_le_mul_right s.g.blocksize h.dblocks_le).trans h.asked_mul_le
  have hbytes : s.g.bs ≤ size.toNat := by
    rw [Nat.one_mul] at hblocks
    exact hblocks.trans hsize
  have hmul : 1 * s.g.bs ≤ size.toNat / s.g.bs * s.g.bs :=
    Nat.mul_le_mul_right _ (Nat.div_pos hbytes hbs)
  rw [whackSize]
  omega

/-- Once anything is written, and until the last write, the filesystem is unfinished. -/
lemma Setup.body_unfinished (hs : setup params size logical physical id = .ok s)
    (htrace : dev.trace (s.body size.toNat order) d ≠ []) :
    ¬ (d.apply (dev.trace (s.body size.toNat order) d)).Finished := by
  obtain ⟨hg, hplans, -, -⟩ := setup_eq_ok.mp hs
  have hsafe := Setup.safe_body (compute_eq_ok.mp hg) size.toNat_lt hplans size.toNat order
  rcases s.trace_body dev size.toNat order d with hnil | ⟨ops, hops⟩
  · exact absurd hnil htrace
  · have hkeeps : ∀ op ∈ ops, op.KeepsUnfinished := fun op hop => by
      have hmem : op ∈ dev.trace (s.body size.toNat order) d := by
        rw [hops]
        exact List.mem_cons_of_mem _ hop
      exact Device.mem_trace hsafe hmem
    rw [hops, Disk.apply_cons]
    exact Disk.apply_of_keeps hkeeps (not_finished_zeroed (Setup.zeroed_pos hs))

/-- What a run leaves is finished when its operations leave it so. -/
lemma Disk.finished_run {α : Type} (dev : Device) (p : DevM α) (d : Disk) :
    (dev.run p d).2.Finished ↔ (d.apply (dev.trace p d)).Finished :=
  finished_congr fun _ _ => by rw [Device.bytes_run]

end Failing

/-- **A format that fails leaves no finished filesystem**, once its first operation is done,
unless all of it is done but the last flush. -/
theorem format_error_unfinished (params : Params) (size : UInt64) (logical physical : UInt32)
    (id : Identity) (order : List ℕ) (d d' : Disk) (e : Fault Error)
    (hrun : (Device.ofSize size logical).run (format params size logical physical id order) d
      = (.error e, d'))
    (hfirst : (Device.ofSize size logical).trace
      (format params size logical physical id order) d ≠ []) :
    ¬ d'.Finished ∨ (∃ report, ((Device.ofSize size logical).run
        (format params size logical physical id order) d.heal).1 = .ok report) ∧
      (Device.ofSize size logical).trace (format params size logical physical id order) d.heal
        = (Device.ofSize size logical).trace (format params size logical physical id order) d
          ++ [.flush] := by
  generalize hdev : Device.ofSize size logical = dev at hrun hfirst ⊢
  cases hs : setup params size logical physical id with
  | error e' =>
      rw [format_of_error hs] at hfirst
      exact absurd rfl hfirst
  | ok s =>
      have hbytes := Disk.finished_run dev (format params size logical physical id order) d
      rw [hrun] at hbytes
      rw [format_eq hs] at hrun hfirst hbytes ⊢
      rcases hbody : dev.run (s.body size.toNat order) d with ⟨e' | a, t⟩
      · rw [Device.trace_bind_error hbody] at hfirst hbytes
        rw [hbytes]
        exact .inl (Setup.body_unfinished hs hfirst)
      · have htrace := Device.trace_heal_of_ok hbody
        have hheal := Device.run_heal hbody
        rw [Device.trace_bind_ok hbody] at hfirst hbytes ⊢
        rw [Device.trace_bind_ok hheal, htrace]
        rw [Device.run_bind_ok hbody] at hrun
        rw [Device.run_bind_ok hheal]
        obtain ⟨before, hbefore⟩ := s.body_endsFlushed size.toNat order dev d t a hbody
        have hne : dev.trace (s.body size.toNat order) d ≠ [] := by
          rw [hbefore]
          simp
        rcases s.finish_cases dev t with ⟨e', hfin, hnone⟩ |
          ⟨e', head, hfin, hunflushed, hfinHeal, hflushed⟩ | ⟨t', head, hfin, -⟩
        · -- nothing of the last stage is done
          obtain ⟨t', hfin⟩ : ∃ t', dev.run s.finish t = (.error e', t') :=
            ⟨_, Prod.ext hfin rfl⟩
          rw [Device.trace_bind_error hfin, hnone, List.append_nil] at hbytes
          rw [hbytes]
          exact .inl (Setup.body_unfinished hs hne)
        · right
          obtain ⟨t', hfin⟩ : ∃ t', dev.run s.finish t = (.error e', t') :=
            ⟨_, Prod.ext hfin rfl⟩
          obtain ⟨t'', hfinHeal⟩ : ∃ t'', dev.run s.finish t.heal = (.ok (), t'') :=
            ⟨_, Prod.ext hfinHeal rfl⟩
          refine ⟨⟨s.report, by rw [Device.run_bind_ok hfinHeal]; rfl⟩, ?_⟩
          rw [Device.trace_bind_ok hfinHeal, Device.trace_bind_error hfin, hunflushed, hflushed,
            Device.trace_pure, List.append_nil, List.append_assoc]
          rfl
        · -- the last stage is done: no error
          rw [Device.run_bind_ok hfin] at hrun
          cases hrun

/-- A program whose second operation fails. -/
lemma run_second_fails {α : Type} {dev : Device} {d : Disk} {op₁ op₂ : DevOp}
    {k : op₁.Ans → op₂.Ans → DevM α} (hin : op₁.offset + op₁.len ≤ dev.size)
    (hfirst : d.faults 0 = false) (hsecond : d.faults 1 = true) :
    dev.trace (.call op₁ fun a => .call op₂ (k a)) d = [op₁] ∧
      ∃ e d', dev.run (.call op₁ fun a => .call op₂ (k a)) d = (.error e, d') := by
  have hstep : dev.step op₁ d = (.ok (op₁.answer d), (op₁.effect d).tick) := by
    rw [Device.step, if_neg (by omega), if_neg (by rw [hfirst]; decide)]
  have hfault : (op₁.effect d).tick.faults 0 = true := by
    have hkeep : (op₁.effect d).faults = d.faults := by cases op₁ <;> rfl
    rw [Disk.tick, hkeep]
    exact hsecond
  obtain ⟨e, t, hfail⟩ : ∃ e t, dev.step op₂ (op₁.effect d).tick = (.error e, t) := by
    rw [Device.step]
    split_ifs
    · exact ⟨_, _, rfl⟩
    · exact ⟨_, _, rfl⟩
  constructor
  · rw [Device.trace, Prog.trace_call, hstep]
    simp only [Prog.trace_call, hfail]
  · refine ⟨e, t, ?_⟩
    rw [Device.run, Prog.run_call, hstep]
    simp only [Prog.run_call, hfail]

/-- A format of 512 MiB whose second operation fails. -/
theorem format_error_unfinished_512m : ∃ (d d' : Disk) (e : Fault Error),
    (Device.ofSize 536870912 512).run (format {} 536870912 512 512 setup512m.id [0, 1, 2, 3]) d
      = (.error e, d') ∧
    (¬ d'.Finished ∨ (∃ report, ((Device.ofSize 536870912 512).run
        (format {} 536870912 512 512 setup512m.id [0, 1, 2, 3]) d.heal).1 = .ok report) ∧
      (Device.ofSize 536870912 512).trace
          (format {} 536870912 512 512 setup512m.id [0, 1, 2, 3]) d.heal
        = (Device.ofSize 536870912 512).trace
            (format {} 536870912 512 512 setup512m.id [0, 1, 2, 3]) d ++ [.flush]) := by
  let d : Disk := ⟨fun _ => 0, fun _ => false, fun n => n == 1⟩
  have hbody := format_eq setup_512m [0, 1, 2, 3]
  obtain ⟨htrace, e, d', hrun⟩ : (Device.ofSize 536870912 512).trace
      (format {} 536870912 512 512 setup512m.id [0, 1, 2, 3]) d = [setup512m.firstOp 536870912] ∧
      ∃ e d', (Device.ofSize 536870912 512).run
        (format {} 536870912 512 512 setup512m.id [0, 1, 2, 3]) d = (.error e, d') := by
    rw [hbody]
    exact run_second_fails (by decide) rfl rfl
  refine ⟨d, d', e, hrun, format_error_unfinished {} 536870912 512 512 setup512m.id
    [0, 1, 2, 3] d d' e hrun ?_⟩
  rw [htrace]
  simp

/-! ### Power loss -/

/-- After a power loss with anything done, a finished filesystem on the disk is the one that
was being made, and all of it is there: at most the last flush is missing. -/
def UnfinishedUntilDone {α : Type} (dev : Device) (p : DevM α) (d : Disk) : Prop :=
  ∀ done kept, done <+: dev.trace p d → done ≠ [] → Survives (· = .flush) done kept →
    (d.apply kept).Finished → kept = dev.trace p d ∨ kept ++ [.flush] = dev.trace p d

section PowerLoss

variable {params : Params} {size : UInt64} {logical physical : UInt32} {id : Identity}
  {order : List ℕ} {s : Setup} {dev : Device} {d : Disk}

/-- Nothing need be left of what is not flushed. -/
lemma not_finished_of_unfinishedUntilDone {α : Type} {p : DevM α} {n : ℕ} {ops : List DevOp}
    (htrace : dev.trace p d = .writeZeroes 0 n :: ops) (h : UnfinishedUntilDone dev p d) :
    ¬ d.Finished := by
  intro hd
  have hkept : Survives (· = .flush) [DevOp.writeZeroes 0 n] [] :=
    Survives.of_no_barrier fun op hop => by
      rw [List.mem_singleton.mp hop]
      rintro ⟨⟩
  have hprefix : [DevOp.writeZeroes 0 n] <+: dev.trace p d := by
    rw [htrace]
    exact ⟨ops, rfl⟩
  rcases h _ [] hprefix (by simp) hkept hd with hall | hall
  · rw [htrace] at hall
    cases hall
  · rw [htrace] at hall
    cases hall

/-- Any part of the operations before the last write leaves an unfinished filesystem
unfinished. -/
lemma Setup.kept_unfinished (hs : setup params size logical physical id = .ok s)
    {kept done : List DevOp} (hsub : kept.Sublist done)
    (hdone : done <+: dev.trace (s.body size.toNat order) d) (hd : ¬ d.Finished) :
    ¬ (d.apply kept).Finished := by
  obtain ⟨hg, hplans, -, -⟩ := setup_eq_ok.mp hs
  have hsafe := Setup.safe_body (compute_eq_ok.mp hg) size.toNat_lt hplans size.toNat order
  have hkeeps : ∀ op ∈ kept, op.KeepsUnfinished := fun op hop =>
    Device.mem_trace hsafe (hdone.subset (hsub.subset hop))
  exact Disk.apply_of_keeps hkeeps hd

/-- A prefix of a list with two more at the end. -/
lemma prefix_append_two {α : Type} {l m : List α} {x y : α} (h : l <+: m ++ [x, y]) :
    l <+: m ∨ l = m ++ [x] ∨ l = m ++ [x, y] := by
  obtain ⟨rest, hrest⟩ := h
  rcases List.append_eq_append_iff.mp hrest with ⟨mid, rfl, -⟩ | ⟨mid, rfl, hmid⟩
  · exact .inl (List.prefix_append l mid)
  · rcases mid with _ | ⟨z, _ | ⟨w, mid⟩⟩
    · rw [List.append_nil]
      exact .inl List.prefix_rfl
    · obtain ⟨rfl, -⟩ := List.cons.inj hmid
      exact .inr (.inl rfl)
    · obtain ⟨rfl, htail⟩ := List.cons.inj hmid
      obtain ⟨rfl, hnil⟩ := List.cons.inj htail
      rw [(List.append_eq_nil_iff.mp hnil.symm).1]
      exact .inr (.inr rfl)

/-- When the last write is among the operations, those before it are left. -/
lemma body_left {body kept last : List DevOp} (hbody : ∃ ops, body = ops ++ [.flush])
    (h : Survives (· = .flush) (body ++ last) kept) :
    ∃ left, kept = body ++ left ∧ left.Sublist last := by
  obtain ⟨ops, rfl⟩ := hbody
  obtain ⟨left, hleft⟩ := h.prefix_of_barrier (List.append_assoc ops [.flush] last) rfl
  refine ⟨left, hleft.symm, ?_⟩
  have hsub := h.sublist
  rw [← hleft] at hsub
  exact (List.append_sublist_append_left _).mp hsub

/-- What a power loss leaves of all of a format. -/
lemma Setup.done_left (hs : setup params size logical physical id = .ok s)
    {kept last : List DevOp} {head : Buf} (hd : ¬ d.Finished)
    (hbody : ∃ ops, dev.trace (s.body size.toNat order) d = ops ++ [.flush])
    (hlast : last = [.writeAt 0 head] ∨ last = [.writeAt 0 head, .flush])
    (hkept : Survives (· = .flush) (dev.trace (s.body size.toNat order) d ++ last) kept)
    (hfin : (d.apply kept).Finished) :
    kept = dev.trace (s.body size.toNat order) d ++ [.writeAt 0 head, .flush] ∨
      kept ++ [.flush] = dev.trace (s.body size.toNat order) d ++ [.writeAt 0 head, .flush] := by
  obtain ⟨left, rfl, hleft⟩ := body_left hbody hkept
  have hunfinished : ¬ (d.apply (dev.trace (s.body size.toNat order) d)).Finished :=
    Setup.kept_unfinished hs (List.Sublist.refl _) List.prefix_rfl hd
  have hsub : left.Sublist [.writeAt 0 head, .flush] := by
    rcases hlast with rfl | rfl
    · exact hleft.trans (List.sublist_append_left [DevOp.writeAt 0 head] [DevOp.flush])
    · exact hleft
  have hcases : left = [] ∨ left = [.flush] ∨ left = [.writeAt 0 head] ∨
      left = [.writeAt 0 head, .flush] := by
    rcases List.sublist_cons_iff.mp hsub with hnone | ⟨rest, rfl, hrest⟩
    · rcases List.sublist_singleton.mp hnone with rfl | rfl
      · exact .inl rfl
      · exact .inr (.inl rfl)
    · rcases List.sublist_singleton.mp hrest with rfl | rfl
      · exact .inr (.inr (.inl rfl))
      · exact .inr (.inr (.inr rfl))
  rw [Disk.apply_append] at hfin
  rcases hcases with rfl | rfl | rfl | rfl
  · exact absurd hfin hunfinished
  · exact absurd hfin hunfinished
  · exact .inr (List.append_assoc _ _ _)
  · exact .inl rfl

end PowerLoss

/-- **After a power loss a finished filesystem is a complete one, exactly when the disk did not
hold a finished one before the format**: nothing is flushed between the erasure of the old
superblock and the rest. -/
theorem format_power_loss_iff (params : Params) (size : UInt64) (logical physical : UInt32)
    (id : Identity) (order : List ℕ) (s : Setup) (d : Disk) (hd : d.Healthy)
    (hs : setup params size logical physical id = .ok s) :
    UnfinishedUntilDone (Device.ofSize size logical)
      (format params size logical physical id order) d ↔ ¬ d.Finished := by
  generalize hdev : Device.ofSize size logical = dev
  rw [format_eq hs]
  constructor
  · intro h
    have hsize : size.toNat ≤ dev.size := by
      rw [← hdev]
      exact le_rfl
    obtain ⟨ops, hops⟩ : ∃ ops, dev.trace (s.body size.toNat order) d =
        s.firstOp size.toNat :: ops := s.trace_body_healthy hd hsize
    obtain ⟨rest, hrest⟩ := dev.trace_prefix_bind (s.body size.toNat order)
      (fun _ => s.finish >>= fun _ => Prog.pure s.report) d
    rw [hops] at hrest
    exact not_finished_of_unfinishedUntilDone hrest.symm h
  · rintro hfresh done kept hdone - hkept hfin
    rcases hbody : dev.run (s.body size.toNat order) d with ⟨e | a, t⟩
    · rw [Device.trace_bind_error hbody] at hdone
      exact absurd hfin (Setup.kept_unfinished hs hkept.sublist hdone hfresh)
    · have ht : t.heal = t := by
        have hheal := Device.run_heal hbody
        rw [hd.heal_eq, hbody] at hheal
        exact (Prod.mk.inj hheal).2.symm
      rw [Device.trace_bind_ok hbody] at hdone ⊢
      rcases s.finish_cases dev t with ⟨e, hrun, hnone⟩ | ⟨e, head, hrun, -, hrunHeal, -⟩ |
        ⟨t', head, hrun, hdoneAll⟩
      · -- nothing of the last stage is done
        obtain ⟨t', hrun⟩ : ∃ t', dev.run s.finish t = (.error e, t') := ⟨_, Prod.ext hrun rfl⟩
        rw [Device.trace_bind_error hrun, hnone, List.append_nil] at hdone
        exact absurd hfin (Setup.kept_unfinished hs hkept.sublist hdone hfresh)
      · -- nothing fails on this disk
        rw [ht, hrun] at hrunHeal
        cases hrunHeal
      · rw [Device.trace_bind_ok hrun, hdoneAll, Device.trace_pure, List.append_nil] at hdone ⊢
        have hflushed := s.body_endsFlushed size.toNat order dev d t a hbody
        rcases prefix_append_two hdone with hpre | rfl | rfl
        · exact absurd hfin (Setup.kept_unfinished hs hkept.sublist hpre hfresh)
        · exact Setup.done_left hs hfresh hflushed (.inl rfl) hkept hfin
        · exact Setup.done_left hs hfresh hflushed (.inr rfl) hkept hfin

/-- A power loss during the format of a zeroed 512 MiB. -/
theorem format_power_loss_512m : UnfinishedUntilDone (Device.ofSize 536870912 512)
    (format {} 536870912 512 512 setup512m.id [0, 1, 2, 3]) Disk.blank := by
  refine (format_power_loss_iff {} 536870912 512 512 setup512m.id [0, 1, 2, 3] setup512m
    Disk.blank rfl setup_512m).mpr ?_
  exact not_finished_of_zero rfl

/-- A disk that was formatted before: its first block starts with a finished superblock. -/
lemma finished_512m : ∃ d : Disk, d.Healthy ∧ d.Finished := by
  have h := compute_eq_ok.mp compute_geo512m
  have hsect : (512 : ℕ) ≤ geo512m.sectsize := by decide
  have hflag : Field.u8 Sb.Off.inprogress 0
      ∈ Sb.fields geo512m setup512m.finished (geo512m.dirblocklog - geo512m.blocklog) :=
    Sb.mem_firstFields (by simp [Sb.firstFields, Setup.finished])
  have hmagic : Field.u32 Sb.Off.magicnum Sb.magic
      ∈ Sb.fields geo512m setup512m.finished (geo512m.dirblocklog - geo512m.blocklog) :=
    Sb.mem_firstFields (by simp [Sb.firstFields])
  refine ⟨Disk.blank.put 0 (Sb.image geo512m setup512m.finished), rfl, ?_, ?_⟩
  · have hread : (Disk.blank.put 0 (Sb.image geo512m setup512m.finished)).readBuf (0 + 0) 4
        = ((Sb.image geo512m setup512m.finished).drop 0).take 4 :=
      Disk.readBuf_put (by rw [Sb.length_image]; omega)
    rw [show Sb.Off.magicnum = 0 + 0 from rfl, hread, List.drop_zero]
    have htake : be32 ((Sb.image geo512m setup512m.finished).take 4) 0
        = be32 (Sb.image geo512m setup512m.finished) Sb.Off.magicnum :=
      be32_congr fun k hk => byteAt_take (by omega)
    rw [htake]
    exact Sb.be32_image h.label_length (by decide) hmagic (by decide) (by decide)
  · rw [Disk.bytes_put_of_mem (Nat.zero_le _) (by
      rw [Sb.length_image]
      exact lt_of_lt_of_le (by decide) (Nat.add_le_add_left hsect 0)), Nat.sub_zero]
    exact Sb.byteAt_image h.label_length (by decide) hflag (by decide)

/-- Over a finished filesystem, nothing of the format need be on the disk when the first
operation is completed. -/
theorem format_not_power_loss : ¬ ∀ (params : Params) (size : UInt64) (logical physical : UInt32)
    (id : Identity) (order : List ℕ) (d : Disk), d.Healthy →
    UnfinishedUntilDone (Device.ofSize size logical)
      (format params size logical physical id order) d := by
  intro h
  obtain ⟨d, hd, hfinished⟩ := finished_512m
  have hdone := h {} 536870912 512 512 setup512m.id [0, 1, 2, 3] d hd
  rw [format_eq setup_512m] at hdone
  obtain ⟨ops, hops⟩ : ∃ ops, (Device.ofSize 536870912 512).trace
      (setup512m.body (536870912 : UInt64).toNat [0, 1, 2, 3]) d
        = setup512m.firstOp (536870912 : UInt64).toNat :: ops :=
    setup512m.trace_body_healthy hd le_rfl
  obtain ⟨rest, hrest⟩ := (Device.ofSize 536870912 512).trace_prefix_bind
    (setup512m.body (536870912 : UInt64).toNat [0, 1, 2, 3])
    (fun _ => setup512m.finish >>= fun _ => Prog.pure setup512m.report) d
  rw [hops] at hrest
  exact not_finished_of_unfinishedUntilDone hrest.symm hdone hfinished

end MkfsXfs
