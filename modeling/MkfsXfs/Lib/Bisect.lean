import Mathlib.Tactic

/-!
Binary search for a place where a property begins to hold.

* `bisect`: the search between a position without the property and one with it.
* `bisect_boundary`: it ends at a position with the property whose predecessor lacks it, however
  the property is scattered in between.
* `bisect_first`: where the property holds from some position on, that is the one it ends at.
-/

namespace Bisect

variable {p : ℕ → Prop} [DecidablePred p] {first last h : ℕ}

/-- The bound that lacks the property and the one that has it move to the midpoint until they are
neighbours. -/
def bisect (p : ℕ → Prop) [DecidablePred p] (first last : ℕ) : ℕ :=
  if first + 1 < last then
    if p ((first + last) / 2) then bisect p first ((first + last) / 2)
    else bisect p ((first + last) / 2) last
  else last
termination_by last - first

/-- **The search ends at a boundary.** -/
theorem bisect_boundary (hlt : first < last) (hfirst : ¬ p first) (hlast : p last) :
    first < bisect p first last ∧ bisect p first last ≤ last ∧ p (bisect p first last) ∧
      ¬ p (bisect p first last - 1) := by
  induction first, last using bisect.induct (p := p) with
  | case1 first last hmid hp ih =>
      obtain ⟨hlo, hhi, hat, hbefore⟩ := ih (by omega) hfirst hp
      rw [bisect, if_pos hmid, if_pos hp]
      exact ⟨hlo, by omega, hat, hbefore⟩
  | case2 first last hmid hp ih =>
      obtain ⟨hlo, hhi, hat, hbefore⟩ := ih (by omega) hp hlast
      rw [bisect, if_pos hmid, if_neg hp]
      exact ⟨by omega, hhi, hat, hbefore⟩
  | case3 first last hmid =>
      have hnext : last - 1 = first := by omega
      rw [bisect, if_neg hmid, hnext]
      exact ⟨hlt, le_rfl, hlast, hfirst⟩

/-- **The only boundary is found.** -/
theorem bisect_first (hlt : first < last) (hfirst : ¬ p first) (hlast : p last)
    (hmono : ∀ i j, first ≤ i → i ≤ last → first ≤ j → j ≤ last → ¬ p i → p j → i < j) {i : ℕ}
    (hl : first ≤ i) (hr : i < bisect p first last) : ¬ p i := by
  obtain ⟨hlo, hhi, hat, hbefore⟩ := bisect_boundary hlt hfirst hlast
  intro hi
  have hafter := hmono _ i (Nat.le_sub_one_of_lt hlo) (by omega) hl (by omega) hbefore hi
  omega

end Bisect
