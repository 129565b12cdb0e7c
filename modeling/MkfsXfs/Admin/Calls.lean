import MkfsXfs.Admin.Contract
import MkfsXfs.Format.Times

/-!
A format and the calls after it, on a disk and on a strict device held in memory.

* `Later`: an operation on whole blocks that leaves what the geometry is read from;
  `Formatted.later`: the contract of such operations.
* `Setup.Shown`: the first sector still is what the geometry is read from.  `Shown.step`: the
  operations of a call leave it; `Formatted.call_run`: so does a call, however it ends.
* `format_shown`: it is so after a format.
* `format_calls_whole`: all operations of the format and of the calls are on whole blocks, but
  for the read of the first sector, and a strict device refuses none of them.
-/

namespace MkfsXfs

open Checked

/-- What is read of the first sector is what is in `b`, wherever edits leave it. -/
def DevOp.Shows (b : Buf) : (op : DevOp) → op.Ans → Prop
  | .readAt off n, a => off = 0 → ∀ i < 512, i < n → ¬ Rewritten i → byteAt a.1 i = byteAt b i
  | _, _ => True

/-- The operation is on whole blocks, or reads the first sector; and what it writes in the first
sector is what is in `b`, wherever edits leave it. -/
structure Later (b : Buf) (bs size sector : ℕ) (op : DevOp) : Prop where
  whole : op = .readAt 0 sector ∨ op.Whole bs size
  kept : (∀ i < 512, ¬ op.Touches i) ∨ ∃ buf, op = .writeAt 0 buf ∧ 512 ≤ buf.length ∧
    ∀ i < 512, ¬ Rewritten i → byteAt buf i = byteAt b i

namespace Formatted

variable {params : Params} {size : UInt64} {logical physical : UInt32} {id : Identity}
  {order : List ℕ} {s : Setup}

/-- A look at whole blocks is on them, and leaves the first sector. -/
lemma later_of_look {b : Buf} {bs size sector : ℕ} {op : DevOp} (h : Look bs size op) :
    Later b bs size sector op := ⟨.inr h.whole, .inl fun i _ => h.quiet i⟩

/-- **The contract of operations on whole blocks** that leave what the geometry is read from. -/
def later (f : Formatted params size logical physical id order s) : s.Contract size logical where
  Answer := DevOp.Shows (Sb.image s.g s.finished)
  Op := Later (Sb.image s.g s.finished) s.g.bs size.toNat (max logical.toNat 512)
  Super agno b := agno = 0 → ∀ i < 512, ¬ Rewritten i →
    byteAt b i = byteAt (Sb.image s.g s.finished) i
  first := ⟨.inl rfl, .inl fun _ _ h => h⟩
  shows _ ha i hi hr := ha rfl i hi (hi.trans_le (le_max_right _ _)) hr
  super agno _ a ha h0 i hi hr := by
    subst h0
    have hblock : 512 ≤ s.g.bs := (le_max_right _ _).trans f.sector_le.1
    exact ha (Geo.headAt_zero _) i hi (hi.trans_le hblock) hr
  look _ h := later_of_look h
  log op h := ⟨.inr h.whole, .inl fun i hi htouch => by
    have hin := h.inside htouch
    have hge := f.logAt_ge
    omega⟩
  edit agno hag b p e hlen _ hshow _ he := by
    have hblock : 512 ≤ s.g.bs := (le_max_right _ _).trans f.sector_le.1
    have hwritten : (Fs.sbToDisk s.g.geo (e b)).length = s.g.bs := by
      rw [length_sbToDisk, he.sbEdit.length, hlen]
    refine ⟨.inr (f.whole_superblock hag rfl hwritten), ?_⟩
    rcases Nat.eq_zero_or_pos agno with rfl | hpos
    · right
      rw [Geo.headAt_zero]
      refine ⟨_, rfl, by omega, fun i hi hr => ?_⟩
      rw [he.sbEdit.byteAt_sbToDisk hr]
      exact hshow rfl i hi hr
    · -- The other AGs start past the first sector.
      left
      intro i hi htouch
      have hge : 1 * 1 * s.g.bs ≤ agno * s.g.agsize * s.g.bs :=
        Nat.mul_le_mul_right _ (Nat.mul_le_mul hpos (by have := f.accepted.agsize_ge; omega))
      have hat : s.g.geo.headAt agno = agno * s.g.agsize * s.g.bs := rfl
      have := htouch.1
      omega

end Formatted

/-! ### Runs -/

/-- What the calls leave, one after the other, each whether it succeeds or fails. -/
def Call.leave {σ : Type} (h : (op : DevOp) → σ → Exec op.Ans × σ) (dev : Device)
    (calls : List Call) (s : σ) : σ :=
  calls.foldl (fun s call => (Prog.run h (call.prog dev) s).2) s

/-- The first sector is that of the finished superblock, wherever edits leave it. -/
def Setup.Shown (s : Setup) (bytes : ℕ → UInt8) : Prop :=
  ∀ i < 512, ¬ Rewritten i → bytes i = byteAt (Sb.image s.g s.finished) i

/-- **The operations of a call keep the first sector**, and are answered as it shows. -/
lemma Setup.Shown.step {σ : Type} {h : (op : DevOp) → σ → Exec op.Ans × σ}
    {bytes : σ → ℕ → UInt8} {s : Setup} {bs size sector : ℕ} {op : DevOp} {st : σ}
    (hserves : Serves h bytes) (hop : Later (Sb.image s.g s.finished) bs size sector op)
    (hst : s.Shown (bytes st)) : s.Shown (bytes (h op st).2) ∧
      ∀ a, (h op st).1 = .ok a → op.Shows (Sb.image s.g s.finished) a := by
  refine ⟨fun i hi hr => ?_, fun a ha => ?_⟩
  · rcases ha : (h op st).1 with e | a
    · rw [hserves.failed op st e ha]
      exact hst i hi hr
    · rcases hop.kept with hpast | ⟨buf, rfl, hlen, hbuf⟩
      · rw [hserves.kept op st a i ha (hpast i hi)]
        exact hst i hi hr
      · rw [hserves.wrote 0 buf st a i ha (Nat.zero_le i) (by omega), Nat.sub_zero]
        exact hbuf i hi hr
  · cases op with
    | readAt off n =>
        intro h0 i hi hn hr
        rw [hserves.read off n st a i ha hn, h0, Nat.zero_add]
        exact hst i hi hr
    | writeAt off buf => trivial
    | writeZeroes off n => trivial
    | flush => trivial

namespace Formatted

variable {params : Params} {size : UInt64} {logical physical : UInt32} {id : Identity}
  {order : List ℕ} {s : Setup} {σ : Type} {h : (op : DevOp) → σ → Exec op.Ans × σ}
  {bytes : σ → ℕ → UInt8} {E : Fault Error → Prop} {st : σ}

/-- A run of a call. -/
lemma call_run (f : Formatted params size logical physical id order s) (hserves : Serves h bytes)
    (hown : ∀ e, Own e → E e)
    (hfail : ∀ op st e, Later (Sb.image s.g s.finished) s.g.bs size.toNat
      (max logical.toNat 512) op → (h op st).1 = .error e → E e)
    (hst : s.Shown (bytes st)) (call : Call) :
    (∀ op ∈ Prog.issued h (call.prog (Device.ofSize size logical)) st,
      op = .readAt 0 (max logical.toNat 512) ∨ op.Whole s.g.bs size.toNat) ∧
    s.Shown (bytes (Prog.run h (call.prog (Device.ofSize size logical)) st).2) ∧
    ∀ e, (Prog.run h (call.prog (Device.ofSize size logical)) st).1 = .error e → E e := by
  have hlater := Prog.SafeUnder.mono (f.call_under f.later call) (fun _ h => h) hown fun _ h => h
  obtain ⟨hissued, hkept, herr, -⟩ := hlater.run (fun st => s.Shown (bytes st))
    (fun op st hop hst => ⟨(hst.step hserves hop).1, (hst.step hserves hop).2,
      fun e he => hfail op st e hop he⟩) hst
  exact ⟨fun op hop => (hissued op hop).whole, hkept, herr⟩

/-- Runs of calls keep the first sector. -/
lemma leave_shown (f : Formatted params size logical physical id order s)
    (hserves : Serves h bytes) (hst : s.Shown (bytes st)) (calls : List Call) :
    s.Shown (bytes (Call.leave h (Device.ofSize size logical) calls st)) := by
  induction calls generalizing st with
  | nil => exact hst
  | cons call calls ih =>
      exact ih (f.call_run (E := fun _ => True) hserves (fun _ _ => trivial)
        (fun _ _ _ _ _ => trivial) hst call).2.1

end Formatted

section Format

variable {params : Params} {size : UInt64} {logical physical : UInt32} {id : Identity}
  {order : List ℕ} {s : Setup} {σ : Type} {h : (op : DevOp) → σ → Exec op.Ans × σ}
  {bytes : σ → ℕ → UInt8} {st st' : σ} {report : Report}

/-- A run of a format. -/
lemma format_run {E : Fault Error → Prop} (hs : setup params size logical physical id = .ok s)
    (hmin : s.g.AgsMin) (horder : ∀ agno ∈ order, agno < s.g.agcount) (hown : ∀ e, Own e → E e)
    (hfail : ∀ op st e, op.Whole s.g.bs size.toNat → (h op st).1 = .error e → E e) :
    (∀ op ∈ Prog.issued h (format params size logical physical id order) st,
      op.Whole s.g.bs size.toNat) ∧
    ∀ e, (Prog.run h (format params size logical physical id order) st).1 = .error e → E e := by
  have hsafe := (Prog.Safe.under (A := fun _ _ => True) (format_safe hs hmin horder)).mono
    (fun _ h => h) hown fun _ h => h
  obtain ⟨hissued, -, herr, -⟩ := hsafe.run (h := h) (s := st) (fun _ => True)
    (fun op st hop _ => ⟨trivial, fun _ _ => trivial, fun e he => hfail op st e hop he⟩) trivial
  exact ⟨hissued, herr⟩

/-- What the finished head starts with. -/
lemma Setup.byteAt_finishedHead (hs : setup params size logical physical id = .ok s)
    {head : Buf} (hhead : s.finishedHead = .ok head) {i : ℕ} (hi : i < 512) :
    byteAt head i = byteAt (Sb.image s.g s.finished) i := by
  have hacc := compute_eq_ok.mp (setup_eq_ok.mp hs).1
  have hsect := (hacc.narrow size.toNat_lt).sectsize.1
  have hroom : s.g.sectsize ≤ s.g.headerBlocks * s.g.bs := by
    have := hacc.sectors_le
    omega
  rw [Setup.finishedHead] at hhead
  obtain ⟨plan, -, hhead⟩ := bind_eq_ok.mp hhead
  obtain ⟨whole, hwhole, htake⟩ := bind_eq_ok.mp hhead
  rw [← Except.ok.inj htake, byteAt_take (by omega)]
  exact (hacc.sector_agHead hwhole).2.2 i (by omega)

/-- **A format leaves the first sector of the finished superblock**, on any device that serves,
and its chunk was made. -/
lemma format_shown (hs : setup params size logical physical id = .ok s) (hmin : s.g.AgsMin)
    (hserves : Serves h bytes)
    (hrun : Prog.run h (format params size logical physical id order) st = (.ok report, st')) :
    s.Shown (bytes st') ∧ ∃ r, s.chunk = .ok r := by
  have hacc := compute_eq_ok.mp (setup_eq_ok.mp hs).1
  obtain ⟨-, hplans, -, -⟩ := setup_eq_ok.mp hs
  obtain ⟨head, hhead, hlen, -⟩ := (Setup.separate hacc size.toNat_lt hmin
    (hacc.logFits size.toNat_lt hplans) hplans).finished
  rw [format_eq hs] at hrun
  obtain ⟨_, t, hbody, hrun⟩ := Prog.run_bind_eq_ok.mp hrun
  obtain ⟨_, t', hfinish, hrun⟩ := Prog.run_bind_eq_ok.mp hrun
  obtain rfl : t' = st' := congrArg Prod.snd hrun
  refine ⟨fun i hi hr => ?_, ?_⟩
  · rw [Setup.finish, hhead, Prog.run_bind_ok (Prog.run_ofExcept_ok head)] at hfinish
    obtain ⟨_, t₁, hwrite, hflush⟩ := Prog.run_bind_eq_ok.mp hfinish
    have hroom : 512 ≤ head.length := by
      have hsect := (hacc.narrow size.toNat_lt).sectsize.1
      have := hacc.sectors_le
      omega
    have hwrite : h (.writeAt 0 head) t = (.ok (), t₁) := (Prog.run_lift _).symm.trans hwrite
    have hflush : h .flush t₁ = (.ok (), t') := (Prog.run_lift _).symm.trans hflush
    have hflushed := hserves.kept .flush t₁ () i (congrArg Prod.fst hflush)
      fun htouch => htouch
    have hwritten := hserves.wrote 0 head t () i (congrArg Prod.fst hwrite) (Nat.zero_le i)
      (by omega)
    rw [hflush] at hflushed
    rw [hwrite, Nat.sub_zero] at hwritten
    rw [hflushed, hwritten]
    exact Setup.byteAt_finishedHead hs hhead hi
  · rw [Setup.body] at hbody
    obtain ⟨_, _, -, hbody⟩ := Prog.run_bind_eq_ok.mp hbody
    obtain ⟨_, _, -, hbody⟩ := Prog.run_bind_eq_ok.mp hbody
    obtain ⟨_, _, -, hbody⟩ := Prog.run_bind_eq_ok.mp hbody
    rcases hchunk : s.chunk with e | r
    · rw [Setup.writeChunk, hchunk] at hbody
      cases hbody
    · exact ⟨r, rfl⟩

end Format

/-- The device in memory that refuses what is not whole sectors. -/
def MemDevice.strictOf (size : UInt64) (logical : UInt32) : MemDevice :=
  ⟨size.toNat, logical.toNat, true, size.toNat_lt⟩

/-- The first sector is whole sectors of the device. -/
lemma dvd_sector {logical : ℕ} (hpow : logical.isPowerOfTwo) : logical ∣ max logical 512 := by
  rcases le_total 512 logical with hle | hle
  · rw [max_eq_left hle]
  · obtain ⟨k, rfl⟩ := hpow
    rw [max_eq_right hle]
    exact pow_dvd_pow 2 ((Nat.pow_le_pow_iff_right (by norm_num)).1 (hle.trans_eq rfl : _ ≤ 2 ^ 9))

/-- **A strict device only fails whole blocks and the read of the first sector by a panic.** -/
lemma MemDevice.own_of_later {bs sector : ℕ} {size : UInt64} {logical : UInt32} {op : DevOp}
    {m : Chunks} {e : Fault Error} (hpos : 0 < logical.toNat) (hdvd : logical.toNat ∣ bs)
    (hsector : logical.toNat ∣ sector) (hroom : sector ≤ size.toNat)
    (hop : op = .readAt 0 sector ∨ op.Whole bs size.toNat)
    (he : ((strictOf size logical).step op m).1 = .error e) : Own e := by
  have hadmits : (strictOf size logical).Admits op.offset op.len := by
    rcases hop with rfl | hwhole
    · exact ⟨by rw [← Nat.zero_add sector] at hroom; exact hroom, fun _ => ⟨dvd_zero _, hsector⟩⟩
    · exact admits_of_whole hdvd hwhole
  rw [error_of_admits hpos hadmits he]
  exact .panic

/-- **Every operation is whole blocks.**  All operations of a format, and of any calls on what it
leaves, are on whole blocks of the device, but for the read of the first sector; a strict device
refuses none of them. -/
theorem format_calls_whole (params : Params) (size : UInt64) (logical physical : UInt32)
    (id : Identity) (s : Setup) (hs : setup params size logical physical id = .ok s)
    (hmin : s.g.AgsMin) (hpow : logical.toNat.isPowerOfTwo) (order : List ℕ)
    (horder : Unordered agConcurrency (List.range s.g.agcount) order) :
    (∀ d, ∀ op ∈ Prog.issued (Device.ofSize size logical).step
        (format params size logical physical id order) d, op.Whole s.g.bs size.toNat) ∧
    (∀ d d₀ report, (Device.ofSize size logical).run
        (format params size logical physical id order) d = (.ok report, d₀) →
      ∀ (calls : List Call) (call : Call), ∀ op ∈ Prog.issued (Device.ofSize size logical).step
          (call.prog (Device.ofSize size logical))
          (Call.leave (Device.ofSize size logical).step (Device.ofSize size logical) calls d₀),
        op = .readAt 0 (max logical.toNat 512) ∨ op.Whole s.g.bs size.toNat) ∧
    (∀ m e, (Prog.run (MemDevice.strictOf size logical).step
        (format params size logical physical id order) m).1 = .error e → ¬ DeviceFault e) ∧
    ∀ m m₀ report, Prog.run (MemDevice.strictOf size logical).step
        (format params size logical physical id order) m = (.ok report, m₀) →
      ∀ (calls : List Call) (call : Call) e, (Prog.run (MemDevice.strictOf size logical).step
          (call.prog (Device.ofSize size logical)) (Call.leave
          (MemDevice.strictOf size logical).step (Device.ofSize size logical) calls m₀)).1 =
        .error e → ¬ DeviceFault e := by
  have hacc := compute_eq_ok.mp (setup_eq_ok.mp hs).1
  have hmem : ∀ i, i ∈ order ↔ i < s.g.agcount := fun i => by
    rw [horder.perm.mem_iff, List.mem_range]
  have hags : ∀ i ∈ order, i < s.g.agcount := fun i hi => (hmem i).mp hi
  have hdvd := hacc.logical_dvd hpow
  have hpos : 0 < logical.toNat := by
    obtain ⟨k, hk⟩ := hpow
    rw [hk]
    exact Nat.two_pow_pos k
  have hformatted : ∀ {r}, s.chunk = .ok r →
      Formatted params size logical physical id order s := fun hr => ⟨hs, hmin, hmem, _, hr⟩
  refine ⟨fun d => ?_, fun d d₀ report hrun calls call => ?_, fun m => ?_,
    fun m m₀ report hrun calls call => ?_⟩
  · exact (format_run (E := fun _ => True) hs hmin hags (fun _ _ => trivial)
      fun _ _ _ _ _ => trivial).1
  · obtain ⟨hshown, _, hchunk⟩ := format_shown hs hmin (Device.serves _) hrun
    have f := hformatted hchunk
    exact (f.call_run (E := fun _ => True) (Device.serves _) (fun _ _ => trivial)
      (fun _ _ _ _ _ => trivial) (f.leave_shown (Device.serves _) hshown calls) call).1
  · refine (format_run (E := Own) hs hmin hags (fun _ h => h) fun op st e hop he => ?_).2
    exact MemDevice.own_of_later hpos hdvd (dvd_zero _) (Nat.zero_le _) (.inr hop) he
  · obtain ⟨hshown, _, hchunk⟩ := format_shown hs hmin (MemDevice.serves _) hrun
    have f := hformatted hchunk
    have hroom := f.sector_le
    have hsector : logical.toNat ∣ max logical.toNat 512 := dvd_sector hpow
    refine (f.call_run (MemDevice.serves _) (fun _ h => h) (fun op st e hop he => ?_)
      (f.leave_shown (MemDevice.serves _) hshown calls) call).2.2
    exact MemDevice.own_of_later hpos hdvd hsector (by omega) hop.whole he

lemma exists_run_512m : ∃ d₀, (Device.ofSize 536870912 512).run
    (format {} 536870912 512 512 setup512m.id [0, 1, 2, 3]) Disk.blank =
      (.ok setup512m.report, d₀) := by
  rw [← run_512m]
  exact ⟨_, Prod.mk.eta.symm⟩

lemma unordered_512m : Unordered agConcurrency (List.range setup512m.g.agcount) [0, 1, 2, 3] := by
  have hcount : setup512m.g.agcount = 4 := rfl
  rw [hcount]
  exact .self (by decide) _

/-- The filesystem of 512 MiB is dumped once it has a label and another UUID. -/
theorem format_calls_whole_512m :
    (∃ d₀, (Device.ofSize 536870912 512).run
        (format {} 536870912 512 512 setup512m.id [0, 1, 2, 3]) Disk.blank =
          (.ok setup512m.report, d₀) ∧
      ∀ op ∈ Prog.issued (Device.ofSize 536870912 512).step
          (Call.dump.prog (Device.ofSize 536870912 512))
          (Call.leave (Device.ofSize 536870912 512).step (Device.ofSize 536870912 512)
            [.setLabel "data", .setUuid zeroUuid] d₀),
        op = .readAt 0 512 ∨ op.Whole setup512m.g.bs 536870912) ∧
    ∀ e, (Prog.run (MemDevice.strictOf 536870912 512).step
      (format {} 536870912 512 512 setup512m.id [0, 1, 2, 3]) Chunks.empty).1 = .error e →
        ¬ DeviceFault e := by
  obtain ⟨d₀, hrun⟩ := exists_run_512m
  obtain ⟨-, hcalls, hstrict, -⟩ := format_calls_whole {} 536870912 512 512 setup512m.id setup512m
    setup_512m agsMin_geo512m ⟨9, rfl⟩ [0, 1, 2, 3] unordered_512m
  exact ⟨⟨d₀, hrun, hcalls Disk.blank d₀ setup512m.report hrun _ .dump⟩, hstrict Chunks.empty⟩

end MkfsXfs
