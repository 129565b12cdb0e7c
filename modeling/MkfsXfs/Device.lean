import MkfsXfs.Bytes
import MkfsXfs.Error
import MkfsXfs.Lib.Prog

/-!
The device seam (`src/device.rs`): programs of device operations, and the disks they run on.

* `DevOp`, `DevM`: the operations of `BlockDevice`, and the programs over them.
* `Disk`: the contents of a device, which bytes a run has written, and which of the coming
  operations fail.  `Device.step` answers one operation: past the end it is refused, a
  failing one changes nothing.
* `DevOp.Touches`: the bytes an operation writes.  `Device.run_untouched`: a byte no
  operation touches is as it was.
* `run_readAt`, `run_writeAt`, `run_writeZeroes`: the operations on a healthy disk.
* `Disk.put_put`: two writes side by side are one.
-/

namespace MkfsXfs

open Checked

/-! ### Operations -/

/-- An operation of a block device. -/
inductive DevOp where
  /-- read exactly `len` bytes starting at `offset` -/
  | readAt (offset len : ℕ)
  /-- write all of `buf` starting at `offset` -/
  | writeAt (offset : ℕ) (buf : Buf)
  /-- make `len` bytes at `offset` read back as zero -/
  | writeZeroes (offset len : ℕ)
  /-- flush buffered writes to stable storage -/
  | flush
  deriving Repr

namespace DevOp

/-- What an operation answers. -/
def Ans : DevOp → Type
  | readAt _ len => {b : Buf // b.length = len}
  | _ => Unit

/-- The offset an operation starts at. -/
def offset : DevOp → ℕ
  | readAt off _ => off
  | writeAt off _ => off
  | writeZeroes off _ => off
  | flush => 0

/-- The number of bytes an operation is about. -/
def len : DevOp → ℕ
  | readAt _ n => n
  | writeAt _ buf => buf.length
  | writeZeroes _ n => n
  | flush => 0

/-- The operation writes the byte at `a`. -/
def Touches : DevOp → ℕ → Prop
  | writeAt off buf, a => off ≤ a ∧ a < off + buf.length
  | writeZeroes off n, a => off ≤ a ∧ a < off + n
  | _, _ => False

end DevOp

/-- A program of device operations. -/
abbrev DevM := Prog DevOp DevOp.Ans (Fault Error)

/-- One operation of the device. -/
def perform (op : DevOp) : DevM op.Ans := Prog.lift op

/-- Read `len` bytes at `offset`. -/
def readAt (offset len : ℕ) : DevM Buf := do
  let b ← perform (.readAt offset len)
  return b.1

/-- Write `buf` at `offset`. -/
def writeAt (offset : ℕ) (buf : Buf) : DevM Unit := perform (.writeAt offset buf)

/-- Zero `len` bytes at `offset`. -/
def writeZeroes (offset len : ℕ) : DevM Unit := perform (.writeZeroes offset len)

/-- Flush the device. -/
def flush : DevM Unit := perform .flush

/-! ### Disks -/

/-- A device: its size in bytes and the smallest I/O it accepts. -/
structure Device where
  size : ℕ
  logicalSectorSize : ℕ
  /-- the size is a `u64` -/
  size_lt : size < 2 ^ 64

/-- What a run of device operations reads and changes. -/
@[ext] structure Disk where
  /-- the bytes on the device -/
  bytes : ℕ → UInt8
  /-- the bytes written so far -/
  written : ℕ → Bool
  /-- the `n`-th operation to come fails -/
  faults : ℕ → Bool

namespace Disk

/-- A zeroed disk on which nothing fails. -/
def blank : Disk := ⟨fun _ => 0, fun _ => false, fun _ => false⟩

/-- The `len` bytes at `off`. -/
def readBuf (d : Disk) (off len : ℕ) : Buf := (List.range len).map fun i => d.bytes (off + i)

/-- The disk after `buf` is written at `off`. -/
def put (d : Disk) (off : ℕ) (buf : Buf) : Disk where
  bytes a := if off ≤ a ∧ a < off + buf.length then byteAt buf (a - off) else d.bytes a
  written a := d.written a || decide (off ≤ a ∧ a < off + buf.length)
  faults := d.faults

/-- The disk with one operation behind it. -/
def tick (d : Disk) : Disk := { d with faults := fun n => d.faults (n + 1) }

/-- No operation to come fails. -/
def Healthy (d : Disk) : Prop := d.faults = fun _ => false

/-- The disk with no failures to come. -/
def heal (d : Disk) : Disk := { d with faults := fun _ => false }

/-- The disk with nothing of it written yet. -/
def fresh (d : Disk) : Disk := { d with written := fun _ => false }

lemma bytes_fresh (d : Disk) : d.fresh.bytes = d.bytes := rfl

lemma readBuf_fresh {d : Disk} (off len : ℕ) : d.fresh.readBuf off len = d.readBuf off len := rfl

lemma Healthy.heal_eq {d : Disk} (hd : d.Healthy) : d.heal = d := by
  rw [heal, ← hd]

lemma heal_healthy (d : Disk) : d.heal.Healthy := rfl

@[simp] lemma length_readBuf (d : Disk) (off len : ℕ) : (d.readBuf off len).length = len := by
  simp [readBuf]

lemma byteAt_readBuf {d : Disk} {off len i : ℕ} (h : i < len) :
    byteAt (d.readBuf off len) i = d.bytes (off + i) := by
  simp [readBuf, byteAt, h]

end Disk

/-- The answer to an operation on a disk. -/
def DevOp.answer : (op : DevOp) → Disk → op.Ans
  | readAt off len, d => ⟨d.readBuf off len, d.length_readBuf off len⟩
  | writeAt _ _, _ => ()
  | writeZeroes _ _, _ => ()
  | flush, _ => ()

/-- The effect of an operation on a disk. -/
def DevOp.effect : DevOp → Disk → Disk
  | readAt _ _, d => d
  | writeAt off buf, d => d.put off buf
  | writeZeroes off n, d => d.put off (List.replicate n 0)
  | flush, d => d

/-- One operation of the device: refused past its end, failed without an effect, or done. -/
def Device.step (dev : Device) (op : DevOp) (d : Disk) : Except (Fault Error) op.Ans × Disk :=
  if dev.size < op.offset + op.len then
    (.error (.error (.outOfBounds op.offset op.len dev.size)), d.tick)
  else if d.faults 0 then (.error (.error (.io op.offset)), d.tick)
  else (.ok (op.answer d), (op.effect d).tick)

/-- The run of a program on a disk. -/
def Device.run {α : Type} (dev : Device) (p : DevM α) (d : Disk) :
    Except (Fault Error) α × Disk := Prog.run dev.step p d

/-- The fault reports a failed or out-of-bounds device operation. -/
def DeviceFault (f : Fault Error) : Prop := ∃ e, f = .error e ∧ ¬ e.Refusal

/-! ### Steps -/

namespace Device

variable {dev : Device} {op : DevOp} {d d' : Disk} {α β : Type}

lemma step_fault {e : Fault Error} (h : (dev.step op d).1 = .error e) : DeviceFault e := by
  simp only [step] at h
  split_ifs at h <;> cases h
  · exact ⟨_, rfl, id⟩
  · exact ⟨_, rfl, id⟩

/-- What an operation does not touch, it leaves. -/
lemma step_untouched (dev : Device) (d : Disk) {a : ℕ} (h : ¬ op.Touches a) :
    (dev.step op d).2.bytes a = d.bytes a ∧ (dev.step op d).2.written a = d.written a := by
  have heff : (op.effect d).bytes a = d.bytes a ∧ (op.effect d).written a = d.written a := by
    cases op with
    | readAt off len => exact ⟨rfl, rfl⟩
    | writeAt off buf =>
        have hn : ¬ (off ≤ a ∧ a < off + buf.length) := h
        exact ⟨if_neg hn, by simp [DevOp.effect, Disk.put, hn]⟩
    | writeZeroes off n =>
        have hn : ¬ (off ≤ a ∧ a < off + n) := h
        have hn' : ¬ (off ≤ a ∧ a < off + (List.replicate n (0 : UInt8)).length) := by
          rwa [List.length_replicate]
        exact ⟨if_neg hn', by simp [DevOp.effect, Disk.put, hn]⟩
    | flush => exact ⟨rfl, rfl⟩
  rw [step]
  split_ifs
  · exact ⟨rfl, rfl⟩
  · exact ⟨rfl, rfl⟩
  · exact heff

/-- On a healthy disk an operation within the device is done. -/
lemma step_healthy (op : DevOp) (hd : d.Healthy) (h : op.offset + op.len ≤ dev.size) :
    dev.step op d = (.ok (op.answer d), op.effect d) := by
  have htick : (op.effect d).tick = op.effect d := by
    have hf : (op.effect d).faults = d.faults := by cases op <;> rfl
    ext1
    · rfl
    · rfl
    · funext n
      simp only [Disk.tick]
      rw [hf, hd]
  rw [step, if_neg (by omega), if_neg (by rw [hd]; decide), htick]

/-- On a healthy disk an operation past the end of the device is refused. -/
lemma step_outOfBounds (op : DevOp) (hd : d.Healthy) (h : dev.size < op.offset + op.len) :
    dev.step op d = (.error (.error (.outOfBounds op.offset op.len dev.size)), d) := by
  have htick : d.tick = d := by
    ext1
    · rfl
    · rfl
    · funext n
      simp only [Disk.tick]
      rw [hd]
  rw [step, if_pos h, htick]

/-! ### Runs -/

@[simp] lemma run_pure (a : α) : dev.run (Prog.pure a) d = (.ok a, d) := rfl

@[simp] lemma run_fail (e : Fault Error) : dev.run (Prog.fail e : DevM α) d = (.error e, d) := rfl

variable {p : DevM α} {f : α → DevM β}

lemma run_bind_ok {a : α} (hp : dev.run p d = (.ok a, d')) :
    dev.run (p >>= f) d = dev.run (f a) d' := Prog.run_bind_ok hp

lemma run_bind_error {e : Fault Error} (hp : dev.run p d = (.error e, d')) :
    dev.run (p >>= f) d = (.error e, d') := Prog.run_bind_error hp

lemma run_bind_eq_ok {b : β} : dev.run (p >>= f) d = (.ok b, d') ↔
    ∃ a t, dev.run p d = (.ok a, t) ∧ dev.run (f a) t = (.ok b, d') := Prog.run_bind_eq_ok

lemma run_bind_eq_error {e : Fault Error} : dev.run (p >>= f) d = (.error e, d') ↔
    dev.run p d = (.error e, d') ∨
      ∃ a t, dev.run p d = (.ok a, t) ∧ dev.run (f a) t = (.error e, d') :=
  Prog.run_bind_eq_error

/-- A checked computation runs without touching the disk. -/
@[simp] lemma run_monadLift (x : Exec α) : dev.run (Prog.ofExcept x : DevM α) d = (x, d) := by
  cases x <;> rfl

/-- **A byte no operation touches is as it was**, and the run ends as its operations do or as
the program says. -/
theorem run_untouched {a : ℕ} {E : Fault Error → Prop} {Q : α → Prop}
    (hp : p.Safe (fun op => ¬ op.Touches a) E Q) :
    (dev.run p d).2.bytes a = d.bytes a ∧ (dev.run p d).2.written a = d.written a := by
  have hmono : p.Safe (fun op => ¬ op.Touches a) (fun _ => True) Q :=
    hp.mono (fun _ h => h) (fun _ _ => trivial) (fun _ h => h)
  refine (hmono.run (fun d' : Disk => d'.bytes a = d.bytes a ∧ d'.written a = d.written a)
    (fun op d' hop hd' => ⟨?_, fun _ _ => trivial⟩) ⟨rfl, rfl⟩).1
  have hstep := step_untouched dev d' hop
  exact ⟨hstep.1.trans hd'.1, hstep.2.trans hd'.2⟩

/-- A run ends in one of the program's own errors or in a failed operation. -/
theorem run_fault {G : DevOp → Prop} {E : Fault Error → Prop} {Q : α → Prop} {e : Fault Error}
    (hp : p.Safe G E Q) (hrun : (dev.run p d).1 = .error e) : E e ∨ DeviceFault e := by
  have hmono : p.Safe G (fun e => E e ∨ DeviceFault e) Q :=
    hp.mono (fun _ h => h) (fun _ h => .inl h) (fun _ h => h)
  exact (hmono.run (fun _ => True)
    (fun _ _ _ _ => ⟨trivial, fun _ he => .inr (step_fault he)⟩) trivial).2.1 e hrun

/-- A run that succeeds met no fault: on a healthy disk it does the same. -/
theorem run_heal {a : α} (hp : dev.run p d = (.ok a, d')) :
    dev.run p d.heal = (.ok a, d'.heal) := by
  induction p generalizing d with
  | pure b =>
      obtain ⟨ha, hd⟩ := Prod.mk.inj hp
      rw [run_pure, ha, hd]
  | fail e => cases hp
  | call op k ih =>
      have hcall : Prog.call op k = Prog.lift op >>= k := rfl
      rw [hcall] at hp ⊢
      obtain ⟨b, t, hstep, hk⟩ := run_bind_eq_ok.1 hp
      rw [run, Prog.run_lift, step] at hstep
      split_ifs at hstep with hbound hfault
      · simp at hstep
      · simp at hstep
      · obtain ⟨hb, ht⟩ := Prod.mk.inj hstep
        have hanswer : op.answer d.heal = b := by
          rw [← Except.ok.inj hb]
          cases op <;> rfl
        have heffect : op.effect d.heal = t.heal := by
          rw [← ht]
          cases op <;> rfl
        have hheal : dev.run (Prog.lift op : DevM op.Ans) d.heal = (.ok b, t.heal) := by
          rw [run, Prog.run_lift, step_healthy op d.heal_healthy (Nat.not_lt.1 hbound), hanswer,
            heffect]
        rw [run_bind_ok hheal]
        exact ih b hk

/-- A byte not marked as written after an operation was not before, and is as it was. -/
lemma step_unwritten {a : ℕ} (h : (dev.step op d).2.written a = false) :
    d.written a = false ∧ (dev.step op d).2.bytes a = d.bytes a := by
  by_cases htouch : op.Touches a
  · rw [step] at h ⊢
    split_ifs at h ⊢
    · exact ⟨h, rfl⟩
    · exact ⟨h, rfl⟩
    · -- The operation was done, and marks the byte.
      have hmark : (op.effect d).written a = true := by
        cases op with
        | readAt off len => exact htouch.elim
        | writeAt off buf =>
            have hin : off ≤ a ∧ a < off + buf.length := htouch
            simp [DevOp.effect, Disk.put, hin]
        | writeZeroes off n =>
            have hin : off ≤ a ∧ a < off + n := htouch
            simp [DevOp.effect, Disk.put, hin]
        | flush => exact htouch.elim
      exact absurd (hmark.symm.trans h) (by decide)
  · have hstep := step_untouched dev d htouch
    exact ⟨hstep.2.symm.trans h, hstep.1⟩

/-- **What is not written is as it was**, and stays marked once it is written. -/
theorem run_unwritten (dev : Device) (p : DevM α) (d : Disk) {a : ℕ}
    (h : (dev.run p d).2.written a = false) :
    d.written a = false ∧ (dev.run p d).2.bytes a = d.bytes a := by
  have hsafe : p.Safe (fun _ => True) (fun _ => True) (fun _ => True) := p.safe_true
  have hinv := (hsafe.run (h := dev.step) (fun t : Disk => t.written a = false →
      d.written a = false ∧ t.bytes a = d.bytes a)
    (fun op t _ ht => ⟨fun hstep => ?_, fun _ _ => trivial⟩) fun hd => ⟨hd, rfl⟩).1
  · exact hinv h
  · obtain ⟨hbefore, hbytes⟩ := step_unwritten hstep
    exact ⟨(ht hbefore).1, hbytes.trans (ht hbefore).2⟩

/-- **Failures only cut a run short**: what a run writes, it also writes on a healthy disk. -/
theorem run_written_heal (dev : Device) (p : DevM α) (d : Disk) {a : ℕ}
    (h : (dev.run p d).2.written a = true) : (dev.run p d.heal).2.written a = true := by
  have hkeep : ∀ {γ : Type} (q : DevM γ) (t : Disk), t.written a = true →
      (dev.run q t).2.written a = true := fun q t ht => by
    by_contra hne
    rw [Bool.not_eq_true] at hne
    exact absurd (ht.symm.trans (run_unwritten dev q t hne).1) (by decide)
  induction p generalizing d with
  | pure b => exact h
  | fail e => exact h
  | call op k ih =>
      have hcall : Prog.call op k = Prog.lift op >>= k := rfl
      rw [hcall] at h ⊢
      rcases hstep : dev.run (Prog.lift op) d with ⟨e | b, t⟩
      · -- The operation failed: nothing was written.
        rw [run_bind_error hstep] at h
        have hsame : t.written a = d.written a := by
          rw [run, Prog.run_lift, step] at hstep
          split_ifs at hstep
          · rw [← (Prod.mk.inj hstep).2]
            rfl
          · rw [← (Prod.mk.inj hstep).2]
            rfl
          · simp at hstep
        exact hkeep _ _ (hsame.symm.trans h)
      · rw [run_bind_ok hstep] at h
        rw [run_bind_ok (run_heal hstep)]
        exact ih b t h

/-! ### The operations as programs -/

lemma run_perform : dev.run (perform op) d = dev.step op d := Prog.run_lift op

lemma run_readAt {off len : ℕ} (hd : d.Healthy) (h : off + len ≤ dev.size) :
    dev.run (readAt off len) d = (.ok (d.readBuf off len), d) := by
  have hstep := step_healthy (.readAt off len) hd h
  rw [readAt, run_bind_ok (run_perform.trans hstep)]
  rfl

/-- What a read that succeeds returns. -/
lemma run_readAt_eq_ok {off len : ℕ} {b : Buf} (h : dev.run (readAt off len) d = (.ok b, d')) :
    b = d.readBuf off len ∧ off + len ≤ dev.size ∧ d' = d.tick := by
  rw [readAt, run_bind_eq_ok] at h
  obtain ⟨a, t, hstep, hpure⟩ := h
  rw [run_perform, step] at hstep
  split_ifs at hstep with h₁ h₂
  · simp at hstep
  · simp at hstep
  · obtain ⟨ha, ht⟩ := Prod.mk.inj hstep
    obtain ⟨hb, hd'⟩ := Prod.mk.inj hpure
    cases ha
    cases hb
    exact ⟨rfl, Nat.not_lt.1 h₁, hd'.symm.trans ht.symm⟩

lemma run_writeAt {off : ℕ} {buf : Buf} (hd : d.Healthy) (h : off + buf.length ≤ dev.size) :
    dev.run (writeAt off buf) d = (.ok (), d.put off buf) :=
  run_perform.trans (step_healthy (.writeAt off buf) hd h)

lemma run_writeAt_outOfBounds {off : ℕ} {buf : Buf} (hd : d.Healthy)
    (h : dev.size < off + buf.length) : dev.run (writeAt off buf) d =
      (.error (.error (.outOfBounds off buf.length dev.size)), d) :=
  run_perform.trans (step_outOfBounds (.writeAt off buf) hd h)

lemma run_writeZeroes {off n : ℕ} (hd : d.Healthy) (h : off + n ≤ dev.size) :
    dev.run (writeZeroes off n) d = (.ok (), d.put off (List.replicate n 0)) :=
  run_perform.trans (step_healthy (.writeZeroes off n) hd h)

lemma run_writeZeroes_outOfBounds {off n : ℕ} (hd : d.Healthy) (h : dev.size < off + n) :
    dev.run (writeZeroes off n) d = (.error (.error (.outOfBounds off n dev.size)), d) :=
  run_perform.trans (step_outOfBounds (.writeZeroes off n) hd h)

lemma run_flush (hd : d.Healthy) : dev.run flush d = (.ok (), d) :=
  run_perform.trans (step_healthy .flush hd (Nat.zero_le _))

end Device

variable {G : DevOp → Prop} {E : Fault Error → Prop}

lemma safe_readAt {off len : ℕ} {Q : Buf → Prop} (hG : G (.readAt off len))
    (hQ : ∀ b : Buf, b.length = len → Q b) : (readAt off len).Safe G E Q :=
  ⟨hG, fun b => hQ b.1 b.2⟩

lemma safe_writeAt {off : ℕ} {buf : Buf} {Q : Unit → Prop} (hG : G (.writeAt off buf))
    (hQ : Q ()) : (writeAt off buf).Safe G E Q := ⟨hG, fun _ => hQ⟩

lemma safe_writeZeroes {off n : ℕ} {Q : Unit → Prop} (hG : G (.writeZeroes off n))
    (hQ : Q ()) : (writeZeroes off n).Safe G E Q := ⟨hG, fun _ => hQ⟩

lemma safe_flush {Q : Unit → Prop} (hG : G .flush) (hQ : Q ()) : flush.Safe G E Q :=
  ⟨hG, fun _ => hQ⟩

/-! ### Writes side by side -/

namespace Disk

variable {d : Disk} {off a : ℕ} {b c : Buf}

lemma put_healthy : (d.put off b).Healthy ↔ d.Healthy := Iff.rfl

@[simp] lemma put_nil : d.put off [] = d := by
  ext1
  · funext a
    exact if_neg (by simp)
  · funext a
    simp [put]
  · rfl

lemma bytes_put_of_mem (hl : off ≤ a) (hr : a < off + b.length) :
    (d.put off b).bytes a = byteAt b (a - off) := if_pos ⟨hl, hr⟩

lemma bytes_put_of_not_mem (h : a < off ∨ off + b.length ≤ a) :
    (d.put off b).bytes a = d.bytes a := if_neg (by omega)

lemma written_put : (d.put off b).written a =
    (d.written a || decide (off ≤ a ∧ a < off + b.length)) := rfl

/-- Two writes side by side are one. -/
lemma put_put : (d.put off b).put (off + b.length) c = d.put off (b ++ c) := by
  have hlen : (b ++ c).length = b.length + c.length := List.length_append
  ext1
  · funext a
    rcases Nat.lt_or_ge a off with h₁ | h₁
    · rw [bytes_put_of_not_mem (.inl (by omega)), bytes_put_of_not_mem (.inl h₁),
        bytes_put_of_not_mem (.inl h₁)]
    rcases Nat.lt_or_ge a (off + b.length) with h₂ | h₂
    · rw [bytes_put_of_not_mem (.inl h₂), bytes_put_of_mem h₁ h₂,
        bytes_put_of_mem h₁ (by omega), byteAt_append_left (by omega)]
    rcases Nat.lt_or_ge a (off + b.length + c.length) with h₃ | h₃
    · rw [bytes_put_of_mem h₂ h₃, bytes_put_of_mem h₁ (by omega),
        byteAt_append_right (by omega)]
      congr 1
      omega
    · rw [bytes_put_of_not_mem (.inr h₃), bytes_put_of_not_mem (.inr h₂),
        bytes_put_of_not_mem (.inr (by omega))]
  · funext a
    rw [written_put, written_put, written_put, Bool.or_assoc]
    congr 1
    rw [← Bool.decide_or]
    exact decide_eq_decide.2 (by omega)
  · rfl

/-- What is written is read back. -/
lemma readBuf_put {k len : ℕ} (h : k + len ≤ b.length) :
    (d.put off b).readBuf (off + k) len = (b.drop k).take len := by
  refine Buf.ext (by simp; omega) fun i hi => ?_
  rw [length_readBuf] at hi
  rw [byteAt_readBuf hi, bytes_put_of_mem (by omega) (by omega), byteAt_take hi, byteAt_drop]
  congr 1
  omega

/-- A read depends on the bytes it covers. -/
lemma readBuf_congr {d' : Disk} {len : ℕ} (h : ∀ a, off ≤ a → a < off + len →
    d'.bytes a = d.bytes a) : d'.readBuf off len = d.readBuf off len := by
  refine List.map_congr_left fun i hi => h _ (by omega) ?_
  have := List.mem_range.1 hi
  omega

/-- A read outside a write. -/
lemma readBuf_put_of_disjoint {o len : ℕ} (h : o + len ≤ off ∨ off + b.length ≤ o) :
    (d.put off b).readBuf o len = d.readBuf o len :=
  readBuf_congr fun _ hl hr => bytes_put_of_not_mem (by omega)

lemma readBuf_blank {len : ℕ} : blank.readBuf off len = List.replicate len 0 := by
  rw [readBuf, List.eq_replicate_iff]
  simp [blank]

end Disk

end MkfsXfs
