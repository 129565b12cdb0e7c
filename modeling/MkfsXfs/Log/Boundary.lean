import MkfsXfs.Lib.Bisect
import MkfsXfs.Log.Search

/-!
`find_cycle_start` on any log (`LogReader` in `src/admin.rs`).

* `eval_findCycleStart_eq`: the loop of the source is a binary search for the cycle.
* `findCycleStart_boundary`: it ends where the cycle begins, on every content of the log.
-/

namespace MkfsXfs

open Checked Bisect

namespace Log

variable {log : ℕ → Buf} {first last c : ℕ}

/-- **The loop of the source is a binary search**: the midpoint is one of the bounds exactly when
they are neighbours. -/
lemma eval_findCycleStart_eq (hlt : first < last) :
    (findCycleStart first last c).eval log =
      .ok (bisect (fun p => cycleOf (log p) = c) first last) := by
  induction first, last using findCycleStart.induct with
  | case1 first last mid hmid ih₁ ih₂ =>
      have hbetween : first < mid ∧ mid < last := by omega
      have hwide : first + 1 < last := by omega
      rw [findCycleStart, if_pos hmid, Prog.eval_bind, eval_cycle, ok_bind, bisect, if_pos hwide]
      split_ifs
      · exact ih₁ hbetween.1
      · exact ih₂ hbetween.2
  | case2 first last mid hmid =>
      rw [findCycleStart, if_neg hmid, bisect, if_neg (by omega)]
      rfl

end Log

/-- A device of 2 MiB. -/
def devBoundary : Device := ⟨2097152, 512, by decide⟩

/-- The reader of the log that fills it. -/
def readerBoundary : LogReader := ⟨0, 4096, by decide⟩

/-- A disk of zeroes but for the cycle of the last block. -/
def diskBoundary : Disk := Disk.blank.put 2096640 [0, 0, 0, 7]

/-- **`find_cycle_start` ends where the cycle begins**, on a disk with any content: at a block of
the log that carries the cycle behind one that does not, and at the first that carries it when
those that do come after those that do not. -/
theorem findCycleStart_boundary {dev : Device} {d : Disk} {r : LogReader} {first last c : ℕ}
    (hd : d.Healthy) (hsize : r.start + r.bbs * bbsize ≤ dev.size) (hlt : first < last)
    (hbbs : last < r.bbs) (hfirst : Log.cycleOf (r.blockOn d first) ≠ c)
    (hlast : Log.cycleOf (r.blockOn d last) = c) :
    ∃ stop, dev.run (r.drive (Log.findCycleStart first last c)) d = (.ok stop, d) ∧
      first < stop ∧ stop ≤ last ∧ Log.cycleOf (r.blockOn d stop) = c ∧
      Log.cycleOf (r.blockOn d (stop - 1)) ≠ c ∧
      ((∀ i j, first ≤ i → i ≤ last → first ≤ j → j ≤ last →
          Log.cycleOf (r.blockOn d i) ≠ c → Log.cycleOf (r.blockOn d j) = c → i < j) →
        ∀ i, first ≤ i → i < stop → Log.cycleOf (r.blockOn d i) ≠ c) := by
  have hboundary : first < bisect (fun p => Log.cycleOf (r.blockOn d p) = c) first last ∧ _ :=
    bisect_boundary hlt hfirst hlast
  obtain ⟨hlo, hhi, hat, hbefore⟩ := hboundary
  refine ⟨_, ?_, hlo, hhi, hat, hbefore, fun hmono i hl hr =>
    @bisect_first (fun p => Log.cycleOf (r.blockOn d p) = c) _ _ _ hlt hfirst hlast hmono i hl hr⟩
  have hsafe : (Log.findCycleStart first last c).Safe (· < r.bbs) (fun _ => False) (· ≤ last) :=
    Log.findCycleStart_safe hlt.le hbbs
  rw [LogReader.drive_eval hsafe hd hsize, Log.eval_findCycleStart_eq hlt]

/-- A log of zeroes whose last block carries cycle 7. -/
theorem findCycleStart_boundary_last :
    ∃ stop, devBoundary.run (readerBoundary.drive (Log.findCycleStart 0 4095 7)) diskBoundary =
        (.ok stop, diskBoundary) ∧
      0 < stop ∧ stop ≤ 4095 ∧ Log.cycleOf (readerBoundary.blockOn diskBoundary stop) = 7 ∧
      Log.cycleOf (readerBoundary.blockOn diskBoundary (stop - 1)) ≠ 7 ∧
      ((∀ i j, 0 ≤ i → i ≤ 4095 → 0 ≤ j → j ≤ 4095 →
          Log.cycleOf (readerBoundary.blockOn diskBoundary i) ≠ 7 →
          Log.cycleOf (readerBoundary.blockOn diskBoundary j) = 7 → i < j) →
        ∀ i, 0 ≤ i → i < stop → Log.cycleOf (readerBoundary.blockOn diskBoundary i) ≠ 7) :=
  findCycleStart_boundary rfl (by decide) (by norm_num) (by decide) (by decide +kernel)
    (by decide +kernel)

end MkfsXfs
