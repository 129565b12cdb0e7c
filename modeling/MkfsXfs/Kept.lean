import MkfsXfs.Completed
import MkfsXfs.Lib.Rely

/-!
What holds of a disk whatever fails on it and whenever it loses its power.

* `DevOp.Gentle`: an operation that keeps a predicate of disks.
* `Keeps`: a program whose every operation is such, as long as what it reads was read of disks
  with the predicate.
* `Keeps.run`: its runs keep the predicate, however they end, and so do the operations that they
  complete, on any disk.
-/

namespace MkfsXfs

open Checked

/-- The operation keeps `I`. -/
def DevOp.Gentle (I : Disk → Prop) (op : DevOp) : Prop := ∀ d, I d → I (op.effect d)

/-- The answer is that of a disk on which `I` holds. -/
def DevOp.Told (I : Disk → Prop) (op : DevOp) (a : op.Ans) : Prop := ∃ d, I d ∧ a = op.answer d

/-- Every operation keeps `I`, as long as reads are answered from disks on which `I` holds. -/
def Keeps {α : Type} (I : Disk → Prop) (p : DevM α) (Q : α → Prop) : Prop :=
  p.SafeUnder (DevOp.Told I) (DevOp.Gentle I) (fun _ => True) Q

namespace Keeps

variable {I : Disk → Prop} {α : Type} {p : DevM α} {Q : α → Prop} {dev : Device} {d : Disk}
  {op : DevOp}

/-- One operation of the device, when all that counts of a disk are its bytes. -/
lemma step (hI : ∀ {d d' : Disk}, d'.bytes = d.bytes → I d → I d') (hop : op.Gentle I)
    (hd : I d) : I (dev.step op d).2 ∧ ∀ a, (dev.step op d).1 = .ok a → op.Told I a := by
  have htick : ∀ d' : Disk, d'.tick.bytes = d'.bytes := fun _ => rfl
  rw [Device.step]
  split_ifs with hbound hfault
  · exact ⟨hI (htick d) hd, fun a ha => by cases ha⟩
  · exact ⟨hI (htick d) hd, fun a ha => by cases ha⟩
  · refine ⟨hI (htick _) (hop d hd), fun a ha => ⟨d, hd, ?_⟩⟩
    exact (Except.ok.inj ha).symm

/-- **A run keeps `I`, whatever fails**, and each operation that it completes does. -/
theorem run (hI : ∀ {d d' : Disk}, d'.bytes = d.bytes → I d → I d') (hp : Keeps I p Q)
    (hd : I d) : I (dev.run p d).2 ∧ (∀ a, (dev.run p d).1 = .ok a → Q a) ∧
      ∀ op ∈ dev.trace p d, op.Gentle I := by
  obtain ⟨hissued, hkept, -, hres⟩ := Prog.SafeUnder.run (h := dev.step) hp I
    (fun op d hop hd => ⟨(step hI hop hd).1, (step hI hop hd).2, fun _ _ => trivial⟩) hd
  exact ⟨hkept, hres, fun op hop => hissued op (Prog.trace_subset_issued hop)⟩

end Keeps

end MkfsXfs
