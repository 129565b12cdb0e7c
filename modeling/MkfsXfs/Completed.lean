import MkfsXfs.Device
import MkfsXfs.Lib.Crash

/-!
The disk that completed operations leave.

* `Disk.apply`: the disk after operations.  `Device.bytes_run`: a run leaves the bytes that
  the operations it completes leave.
* `Device.trace_heal_of_ok`: a run that succeeds completes what it completes on a healthy disk.
* `Disk.bytes_apply_unique`: a byte that all operations on it agree on.
* `Disk.apply_of_keeps`: what each of the operations keeps, all of them keep.
-/

namespace MkfsXfs

open Checked

/-- The disk after the operations. -/
def Disk.apply (d : Disk) (ops : List DevOp) : Disk := ops.foldl (fun d op => op.effect d) d

namespace Disk

variable {d d' : Disk} {op : DevOp} {ops ops' : List DevOp}

@[simp] lemma apply_nil : d.apply [] = d := rfl

@[simp] lemma apply_cons : d.apply (op :: ops) = (op.effect d).apply ops := rfl

@[simp] lemma apply_append : d.apply (ops ++ ops') = (d.apply ops).apply ops' :=
  List.foldl_append

/-- The bytes an operation leaves depend on the bytes before. -/
lemma bytes_effect_congr (h : d.bytes = d'.bytes) : (op.effect d).bytes = (op.effect d').bytes := by
  cases op with
  | readAt off len => exact h
  | writeAt off buf =>
      funext a
      simp only [DevOp.effect, put, h]
  | writeZeroes off n =>
      funext a
      simp only [DevOp.effect, put, h]
  | flush => exact h

/-- The bytes that operations leave depend on the bytes before. -/
lemma bytes_apply_congr (h : d.bytes = d'.bytes) : (d.apply ops).bytes = (d'.apply ops).bytes := by
  induction ops generalizing d d' with
  | nil => exact h
  | cons op ops ih => exact ih (bytes_effect_congr h)

/-- What each of the operations keeps, all of them keep. -/
lemma apply_of_keeps {P : Disk → Prop} (hops : ∀ op ∈ ops, ∀ d, P d → P (op.effect d))
    (hd : P d) : P (d.apply ops) := by
  induction ops generalizing d with
  | nil => exact hd
  | cons op ops ih =>
      exact ih (fun op' hop' => hops op' (List.mem_cons_of_mem op hop'))
        (hops op List.mem_cons_self d hd)

end Disk

/-- The byte that an operation writes at `a`. -/
def DevOp.byte : DevOp → ℕ → UInt8
  | .writeAt off buf, a => byteAt buf (a - off)
  | _, _ => 0

namespace Disk

variable {d : Disk} {op : DevOp} {ops : List DevOp} {a : ℕ} {v : UInt8}

lemma bytes_effect_of_touches (h : op.Touches a) : (op.effect d).bytes a = op.byte a := by
  cases op with
  | readAt off len => exact h.elim
  | writeAt off buf => exact bytes_put_of_mem h.1 h.2
  | writeZeroes off n =>
      refine (bytes_put_of_mem h.1 ?_).trans byteAt_replicate_zero
      rw [List.length_replicate]
      exact h.2
  | flush => exact h.elim

lemma bytes_effect_of_not_touches (h : ¬ op.Touches a) : (op.effect d).bytes a = d.bytes a := by
  cases op with
  | readAt off len => rfl
  | writeAt off buf => exact if_neg h
  | writeZeroes off n =>
      refine if_neg ?_
      rw [List.length_replicate]
      exact h
  | flush => rfl

/-- What no operation touches is as it was. -/
lemma bytes_apply_untouched (h : ∀ op ∈ ops, ¬ op.Touches a) : (d.apply ops).bytes a = d.bytes a := by
  induction ops generalizing d with
  | nil => rfl
  | cons op ops ih =>
      rw [apply_cons, ih fun op' hop' => h op' (List.mem_cons_of_mem op hop'),
        bytes_effect_of_not_touches (h op List.mem_cons_self)]

/-- **A byte that is written, and that all operations on it agree on.** -/
lemma bytes_apply_unique (hsome : ∃ op ∈ ops, op.Touches a)
    (hall : ∀ op ∈ ops, op.Touches a → op.byte a = v) : (d.apply ops).bytes a = v := by
  induction ops generalizing d with
  | nil =>
      obtain ⟨op, hop, -⟩ := hsome
      cases hop
  | cons op ops ih =>
      have hrest : ∀ op' ∈ ops, op'.Touches a → op'.byte a = v := fun op' hop' =>
        hall op' (List.mem_cons_of_mem op hop')
      by_cases hlater : ∃ op' ∈ ops, op'.Touches a
      · exact ih hlater hrest
      · -- this one is the last to write the byte
        push Not at hlater
        obtain ⟨op', hop', htouch⟩ := hsome
        rcases List.mem_cons.mp hop' with rfl | hmem
        · rw [apply_cons, bytes_apply_untouched hlater, bytes_effect_of_touches htouch]
          exact hall op' List.mem_cons_self htouch
        · exact absurd htouch (hlater op' hmem)

end Disk

namespace Device

variable {dev : Device} {d d' : Disk} {α β : Type} {p : DevM α} {f : α → DevM β}

/-- The operations that a run of the program completes. -/
def trace (dev : Device) (p : DevM α) (d : Disk) : List DevOp := Prog.trace dev.step p d

@[simp] lemma trace_pure (a : α) : dev.trace (Prog.pure a) d = [] := rfl

@[simp] lemma trace_ofExcept (x : Exec α) : dev.trace (Prog.ofExcept x : DevM α) d = [] :=
  Prog.trace_ofExcept x

lemma trace_bind_ok {a : α} (hp : dev.run p d = (.ok a, d')) :
    dev.trace (p >>= f) d = dev.trace p d ++ dev.trace (f a) d' := Prog.trace_bind_ok hp

lemma trace_bind_error {e : Fault Error} (hp : dev.run p d = (.error e, d')) :
    dev.trace (p >>= f) d = dev.trace p d := Prog.trace_bind_error hp

/-- A sequence completes what its first half does. -/
lemma trace_prefix_bind (dev : Device) (p : DevM α) (f : α → DevM β) (d : Disk) :
    dev.trace p d <+: dev.trace (p >>= f) d := by
  rw [trace, trace, Prog.trace_bind]
  exact List.prefix_append _ _

/-- An operation that succeeds is completed. -/
lemma trace_perform_ok {op : DevOp} {a : op.Ans} (h : dev.run (perform op) d = (.ok a, d')) :
    dev.trace (perform op) d = [op] := by
  have hstep : (dev.step op d).1 = .ok a := by rw [← run_perform, h]
  rw [trace, perform, Prog.trace_lift, hstep]

/-- An operation that fails is not. -/
lemma trace_perform_error {op : DevOp} {e : Fault Error}
    (h : dev.run (perform op) d = (.error e, d')) : dev.trace (perform op) d = [] := by
  have hstep : (dev.step op d).1 = .error e := by rw [← run_perform, h]
  rw [trace, perform, Prog.trace_lift, hstep]

/-- **A run leaves the bytes that the operations it completes leave.** -/
theorem bytes_run (dev : Device) (p : DevM α) (d : Disk) :
    (dev.run p d).2.bytes = (d.apply (dev.trace p d)).bytes := by
  induction p generalizing d with
  | pure a => rfl
  | fail e => rfl
  | call op k ih =>
      rw [run, Prog.run_call, trace, Prog.trace_call, step]
      split_ifs with hbound hfault
      · rfl
      · rfl
      · exact (ih _ _).trans (Disk.bytes_apply_congr rfl)

/-- A run that succeeds completes what it completes on a healthy disk. -/
lemma trace_heal_of_ok {a : α} (h : dev.run p d = (.ok a, d')) :
    dev.trace p d.heal = dev.trace p d := by
  induction p generalizing d with
  | pure b => rfl
  | fail e => cases h
  | call op k ih =>
      rw [trace, trace, Prog.trace_call, Prog.trace_call]
      rw [run, Prog.run_call, step] at h
      split_ifs at h with hbound hfault
      · cases h
      · cases h
      · have hanswer : op.answer d.heal = op.answer d := by cases op <;> rfl
        have heffect : op.effect d.heal = (op.effect d).tick.heal := by cases op <;> rfl
        rw [step_healthy op d.heal_healthy (Nat.not_lt.mp hbound), hanswer, heffect, step,
          if_neg hbound, if_neg hfault]
        exact congrArg (op :: ·) (ih _ h)

/-- What a run completes, the program may call. -/
lemma mem_trace {G : DevOp → Prop} {E : Fault Error → Prop} {Q : α → Prop} (hp : p.Safe G E Q)
    {op : DevOp} (hop : op ∈ dev.trace p d) : G op := Prog.mem_trace hp hop

end Device

end MkfsXfs
