import Mathlib.Tactic
import Mathlib.Data.List.Destutter
import Mathlib.Data.List.Sort

/-!
Two lists of keys merged into one ascending list without repeats.

* `mergeKeys`: the keys of both lists, sorted, neighbours that are equal kept once.
* `mem_mergeKeys`, `mergeKeys_ascending`: it holds the keys of either list, each once and in
  order.  `mergeKeys_comm`: whichever list comes first.
* `filterMap_ascending`: what is made of some of the keys is in the order of its keys.
-/

namespace MergeKeys

variable {K : Type*} [LinearOrder K] {xs ys : List K}

/-- The keys of both lists, in order, each once. -/
def mergeKeys (xs ys : List K) : List K :=
  ((xs ++ ys).insertionSort (· ≤ ·)).destutter (· ≠ ·)

lemma mergeKeys_eq_dedup : mergeKeys xs ys = ((xs ++ ys).insertionSort (· ≤ ·)).dedup :=
  (List.pairwise_insertionSort (· ≤ ·) (xs ++ ys)).destutter_eq_dedup

lemma mem_mergeKeys {k : K} : k ∈ mergeKeys xs ys ↔ k ∈ xs ∨ k ∈ ys := by
  rw [mergeKeys_eq_dedup, List.mem_dedup, List.mem_insertionSort, List.mem_append]

/-- **Each key once, in ascending order.** -/
theorem mergeKeys_ascending : (mergeKeys xs ys).Pairwise (· < ·) := by
  have hsorted : (mergeKeys xs ys).Pairwise (· ≤ ·) :=
    (List.pairwise_insertionSort (· ≤ ·) (xs ++ ys)).sublist (List.destutter_sublist _ _)
  have hnodup : (mergeKeys xs ys).Pairwise (· ≠ ·) := by
    rw [mergeKeys_eq_dedup]
    exact List.nodup_dedup _
  exact (hsorted.and hnodup).imp fun h => lt_of_le_of_ne h.1 h.2

lemma mergeKeys_comm : mergeKeys ys xs = mergeKeys xs ys := by
  refine List.Perm.eq_of_pairwise (fun a b _ _ h h' => absurd h' (lt_asymm h)) mergeKeys_ascending
    mergeKeys_ascending ?_
  refine (List.perm_ext_iff_of_nodup (mergeKeys_ascending.imp ne_of_lt)
    (mergeKeys_ascending.imp ne_of_lt)).mpr fun k => ?_
  rw [mem_mergeKeys, mem_mergeKeys, or_comm]

lemma filterMap_ascending {D : Type*} {key : D → K} {make : K → Option D} {ks : List K}
    (hks : ks.Pairwise (· < ·)) (hkey : ∀ k, ∀ d ∈ make k, key d = k) :
    ((ks.filterMap make).map key).Pairwise (· < ·) := by
  rw [List.pairwise_map, List.pairwise_filterMap]
  refine hks.imp fun hlt d hd d' hd' => ?_
  rw [hkey _ d hd, hkey _ d' hd']
  exact hlt

end MergeKeys
