import Mathlib.Tactic
import Mathlib.Data.String.Basic
import Std.Data.TreeMap.Lemmas
import MkfsXfs.Inspect.Dump
import MkfsXfs.Lib.MergeKeys

/-!
Two dumps compared, field by field (`src/compare.rs`).

* `diff`: every difference between two dumps, in key order, as the source computes it, through
  a map of each dump.  `structural`: those that matter.
* `fieldMap_getElem?`: where no key is repeated, the map holds what the dump does.
* `Differs`: a difference as the two dumps tell it.  `diff_exact`: they are what is listed, each
  key once and in order; nothing is listed exactly for dumps with the same values; and the two
  sides play the same part.
-/

namespace MkfsXfs.Inspect

open MergeKeys

/-- Look a field up by key. -/
def Dump.get (d : Dump) (key : String) : Option String :=
  (d.find? (·.key = key)).map Entry.value

/-- One field that differs. -/
structure Difference where
  /-- the field -/
  key : String
  /-- our value, or nothing if we lack the field -/
  ours : Option String
  /-- their value, or nothing if they lack it -/
  theirs : Option String
  /-- how the difference is judged -/
  judged : Class
  deriving DecidableEq, Repr

/-- The value and the class of each key; of a key given twice, the last. -/
def fieldMap (d : Dump) : Std.TreeMap String (String × Class) compare :=
  Std.TreeMap.ofList (d.map fun f => (f.key, f.value, f.judged)) compare

/-- How a difference is judged.  A field one side lacks is structural whatever it holds. -/
def judge : Option (String × Class) → Option (String × Class) → Class
  | some v, some _ => v.2
  | _, _ => .structural

/-- What is listed for the key `k`, with the values and classes of the two sides. -/
def difference (k : String) (x y : Option (String × Class)) : Option Difference :=
  if x.map Prod.fst = y.map Prod.fst then none
  else some { key := k, ours := x.map Prod.fst, theirs := y.map Prod.fst, judged := judge x y }

/-- Every difference between two dumps, in key order. -/
def diff (ours theirs : Dump) : List Difference :=
  let a := fieldMap ours
  let b := fieldMap theirs
  (mergeKeys a.keys b.keys).filterMap fun k => difference k a[k]? b[k]?

/-- Only the differences that matter. -/
def structural (diffs : List Difference) : List Difference :=
  diffs.filter fun d => d.judged = .structural

/-- The same difference, seen from the other side. -/
def Difference.exchange (d : Difference) : Difference :=
  { d with ours := d.theirs, theirs := d.ours }

/-! ### What the map of a dump holds -/

section Lookup

variable {d a b : Dump} {k : String}

/-- The field with the key `k`. -/
def fieldAt (d : Dump) (k : String) : Option Entry := d.find? (·.key = k)

lemma get_eq : Dump.get d k = (fieldAt d k).map Entry.value := rfl

lemma fieldAt_eq_some_iff (hd : (d.map Entry.key).Nodup) {e : Entry} :
    fieldAt d k = some e ↔ e ∈ d ∧ e.key = k := by
  constructor
  · intro h
    exact ⟨List.mem_of_find?_eq_some h, by simpa using List.find?_some h⟩
  · rintro ⟨he, rfl⟩
    cases hf : fieldAt d e.key with
    | none =>
        have hnone := List.find?_eq_none.mp hf e he
        simp at hnone
    | some f =>
        have hkey : f.key = e.key := by simpa using List.find?_some hf
        rw [List.inj_on_of_nodup_map hd (List.mem_of_find?_eq_some hf) he hkey]

lemma get_eq_some_iff (hd : (d.map Entry.key).Nodup) {v : String} :
    Dump.get d k = some v ↔ (k, v) ∈ d.map fun e => (e.key, e.value) := by
  rw [get_eq, Option.map_eq_some_iff, List.mem_map]
  refine exists_congr fun e => ?_
  rw [fieldAt_eq_some_iff hd, and_assoc, Prod.mk.injEq]

/-- **The map of a dump is the dump.** -/
theorem fieldMap_getElem? (hd : (d.map Entry.key).Nodup) :
    (fieldMap d)[k]? = (fieldAt d k).map fun e => (e.value, e.judged) := by
  cases hf : fieldAt d k with
  | none =>
      refine Std.TreeMap.getElem?_ofList_of_contains_eq_false ?_
      rw [List.map_map, ← Bool.not_eq_true, List.contains_iff_mem, List.mem_map]
      rintro ⟨e, he, hek⟩
      have hnone := List.find?_eq_none.mp hf e he
      simp at hnone
      exact hnone hek
  | some e =>
      obtain ⟨he, hek⟩ := (fieldAt_eq_some_iff hd).mp hf
      refine Std.TreeMap.getElem?_ofList_of_mem Std.ReflCmp.compare_self ?_ ?_
      · rw [List.pairwise_map]
        refine (List.pairwise_map.mp hd).imp fun hne heq => hne ?_
        exact Std.LawfulEqCmp.eq_of_compare heq
      · exact List.mem_map.mpr ⟨e, he, by rw [hek]⟩

lemma map_fst_fieldMap (hd : (d.map Entry.key).Nodup) :
    (fieldMap d)[k]?.map Prod.fst = Dump.get d k := by
  rw [fieldMap_getElem? hd, Option.map_map]
  rfl

lemma mem_keys_fieldMap : k ∈ (fieldMap d).keys ↔ (fieldMap d)[k]? ≠ none := by
  rw [Std.TreeMap.mem_keys, Std.TreeMap.mem_iff_isSome_getElem?, Option.isSome_iff_ne_none]

end Lookup

/-! ### One difference -/

section Difference

variable {k : String} {x y : Option (String × Class)} {d : Difference}

lemma difference_eq_some_iff :
    difference k x y = some d ↔ x.map Prod.fst ≠ y.map Prod.fst ∧ d.key = k ∧
      d.ours = x.map Prod.fst ∧ d.theirs = y.map Prod.fst ∧ d.judged = judge x y := by
  rw [difference]
  split_ifs with h
  · simp [h]
  · constructor
    · intro heq
      obtain rfl := Option.some.inj heq
      exact ⟨h, rfl, rfl, rfl, rfl⟩
    · rintro ⟨-, rfl, hx, hy, hc⟩
      cases d
      simp only at hx hy hc
      subst hx hy hc
      rfl

lemma difference_key (h : d ∈ difference k x y) : d.key = k :=
  (difference_eq_some_iff.mp h).2.1

/-- Where both sides judge the field alike, it does not matter which side is ours. -/
lemma difference_exchange (h : ∀ v ∈ x, ∀ w ∈ y, v.2 = w.2) :
    difference k y x = (difference k x y).map Difference.exchange := by
  rw [difference, difference]
  by_cases heq : x.map Prod.fst = y.map Prod.fst
  · rw [if_pos heq, if_pos heq.symm, Option.map_none]
  · rw [if_neg heq, if_neg (Ne.symm heq), Option.map_some, Difference.exchange]
    cases x with
    | none => cases y <;> rfl
    | some v =>
        cases y with
        | none => rfl
        | some w => rw [judge, judge, h v rfl w rfl]

end Difference

/-! ### The list of differences -/

section Exact

variable {a b : Dump} {d : Difference}

/-- A difference as the two dumps tell it: both sides as they are, and not alike. -/
structure Differs (a b : Dump) (d : Difference) : Prop where
  ours : d.ours = Dump.get a d.key
  theirs : d.theirs = Dump.get b d.key
  unlike : d.ours ≠ d.theirs
  /-- what only one side has is structural -/
  lacking : d.ours = none ∨ d.theirs = none → d.judged = .structural
  /-- what both have is judged as they say -/
  shared : d.ours ≠ none → d.theirs ≠ none → ∀ e ∈ a ++ b, e.key = d.key → d.judged = e.judged

lemma mem_diff_iff :
    d ∈ diff a b ↔ d ∈ difference d.key ((fieldMap a)[d.key]?) ((fieldMap b)[d.key]?) := by
  rw [diff, List.mem_filterMap]
  constructor
  · rintro ⟨k, -, hd⟩
    rwa [difference_key hd]
  · intro hd
    refine ⟨d.key, ?_, hd⟩
    rw [mem_mergeKeys, mem_keys_fieldMap, mem_keys_fieldMap]
    by_contra hnot
    rw [not_or, not_not, not_not] at hnot
    exact (difference_eq_some_iff.mp hd).1 (by rw [hnot.1, hnot.2])

/-- The class of a difference, from the fields the two sides have. -/
lemma judge_eq_iff {f g : Option Entry} {c : Class}
    (hfg : ∀ e ∈ f, ∀ e' ∈ g, e.judged = e'.judged) :
    c = judge (f.map fun e => (e.value, e.judged)) (g.map fun e => (e.value, e.judged)) ↔
      (f = none ∨ g = none → c = .structural) ∧
      (f ≠ none → g ≠ none → ∀ e, e ∈ f ∨ e ∈ g → c = e.judged) := by
  cases f with
  | none => simp [judge]
  | some e =>
      cases g with
      | none => simp [judge]
      | some e' =>
          have hee := hfg e rfl e' rfl
          simp only [judge, Option.map_some, hee, reduceCtorEq, or_self, false_imp_iff, true_and,
            Option.mem_some_iff, ne_eq, not_false_eq_true, true_imp_iff]
          constructor
          · rintro hc f (rfl | rfl)
            · rw [hc, hee]
            · exact hc
          · intro hc
            exact hc e' (Or.inr rfl)

/-- **What is listed is what differs.** -/
theorem mem_diff_iff_differs (ha : (a.map Entry.key).Nodup) (hb : (b.map Entry.key).Nodup)
    (hab : ∀ e ∈ a, ∀ f ∈ b, e.key = f.key → e.judged = f.judged) :
    d ∈ diff a b ↔ Differs a b d := by
  have hfg : ∀ e ∈ fieldAt a d.key, ∀ f ∈ fieldAt b d.key, e.judged = f.judged := by
    intro e he f hf
    obtain ⟨hea, hek⟩ := (fieldAt_eq_some_iff ha).mp he
    obtain ⟨hfb, hfk⟩ := (fieldAt_eq_some_iff hb).mp hf
    exact hab e hea f hfb (hek.trans hfk.symm)
  have hfield : ∀ e, (e ∈ fieldAt a d.key ∨ e ∈ fieldAt b d.key) ↔ e ∈ a ++ b ∧ e.key = d.key := by
    intro e
    rw [Option.mem_def, Option.mem_def, fieldAt_eq_some_iff ha, fieldAt_eq_some_iff hb,
      List.mem_append, or_and_right]
  rw [mem_diff_iff, Option.mem_def, difference_eq_some_iff, map_fst_fieldMap ha,
    map_fst_fieldMap hb, fieldMap_getElem? ha, fieldMap_getElem? hb, judge_eq_iff hfg]
  have hnone : ∀ {c : Dump}, Dump.get c d.key = none ↔ fieldAt c d.key = none :=
    Option.map_eq_none_iff
  constructor
  · rintro ⟨hne, -, hours, htheirs, hlack, hshare⟩
    refine ⟨hours, htheirs, by rwa [hours, htheirs], ?_, ?_⟩
    · rwa [hours, htheirs, hnone, hnone]
    · rw [hours, htheirs, ne_eq, ne_eq, hnone, hnone]
      exact fun hx hy e he hk => hshare hx hy e ((hfield e).mpr ⟨he, hk⟩)
  · rintro ⟨hours, htheirs, hne, hlack, hshare⟩
    rw [hours, htheirs] at hne hlack hshare
    rw [hnone, hnone] at hlack
    rw [ne_eq, ne_eq, hnone, hnone] at hshare
    exact ⟨hne, rfl, hours, htheirs, hlack, fun hx hy e he =>
      hshare hx hy e ((hfield e).mp he).1 ((hfield e).mp he).2⟩

/-- The keys listed are those with unlike values. -/
lemma mem_map_key_diff (ha : (a.map Entry.key).Nodup) (hb : (b.map Entry.key).Nodup)
    {k : String} :
    k ∈ (diff a b).map Difference.key ↔ Dump.get a k ≠ Dump.get b k := by
  rw [List.mem_map]
  constructor
  · rintro ⟨d, hd, rfl⟩
    have hne := (difference_eq_some_iff.mp (mem_diff_iff.mp hd)).1
    rwa [map_fst_fieldMap ha, map_fst_fieldMap hb] at hne
  · intro hne
    refine ⟨⟨k, Dump.get a k, Dump.get b k, judge (fieldMap a)[k]? (fieldMap b)[k]?⟩, ?_, rfl⟩
    rw [mem_diff_iff, Option.mem_def, difference_eq_some_iff, map_fst_fieldMap ha,
      map_fst_fieldMap hb]
    exact ⟨hne, rfl, rfl, rfl, rfl⟩

/-- Each key at most once, in ascending order. -/
lemma diff_ascending : ((diff a b).map Difference.key).Pairwise (· < ·) :=
  filterMap_ascending mergeKeys_ascending fun _ _ => difference_key

/-- The key-value pairs of a dump, without their order. -/
lemma get_eq_get_iff (ha : (a.map Entry.key).Nodup) (hb : (b.map Entry.key).Nodup) :
    (∀ k, Dump.get a k = Dump.get b k) ↔
      (a.map fun e => (e.key, e.value)).Perm (b.map fun e => (e.key, e.value)) := by
  have hpairs : ∀ {c : Dump}, (c.map Entry.key).Nodup → (c.map fun e => (e.key, e.value)).Nodup := by
    intro c hc
    refine List.Nodup.of_map Prod.fst ?_
    rwa [List.map_map]
  rw [List.perm_ext_iff_of_nodup (hpairs ha) (hpairs hb)]
  constructor
  · rintro h ⟨k, v⟩
    rw [← get_eq_some_iff ha, ← get_eq_some_iff hb, h k]
  · intro h k
    refine Option.ext fun v => ?_
    rw [get_eq_some_iff ha, get_eq_some_iff hb, h]

lemma diff_eq_nil_iff (ha : (a.map Entry.key).Nodup) (hb : (b.map Entry.key).Nodup) :
    diff a b = [] ↔
      (a.map fun e => (e.key, e.value)).Perm (b.map fun e => (e.key, e.value)) := by
  rw [← get_eq_get_iff ha hb, ← List.map_eq_nil_iff, List.eq_nil_iff_forall_not_mem]
  exact forall_congr' fun k => by rw [mem_map_key_diff ha hb, not_not]

/-- The other way round, the sides are exchanged. -/
lemma diff_exchange (ha : (a.map Entry.key).Nodup) (hb : (b.map Entry.key).Nodup)
    (hab : ∀ e ∈ a, ∀ f ∈ b, e.key = f.key → e.judged = f.judged) :
    diff b a = (diff a b).map Difference.exchange := by
  rw [diff, diff, List.map_filterMap, mergeKeys_comm]
  refine List.filterMap_congr fun k _ => ?_
  refine difference_exchange fun v hv w hw => ?_
  rw [fieldMap_getElem? ha, Option.mem_def, Option.map_eq_some_iff] at hv
  rw [fieldMap_getElem? hb, Option.mem_def, Option.map_eq_some_iff] at hw
  obtain ⟨e, he, rfl⟩ := hv
  obtain ⟨f, hf, rfl⟩ := hw
  obtain ⟨hea, hek⟩ := (fieldAt_eq_some_iff ha).mp he
  obtain ⟨hfb, hfk⟩ := (fieldAt_eq_some_iff hb).mp hf
  exact hab e hea f hfb (hek.trans hfk.symm)

/-- **The comparison is exact.**  Of two dumps without repeated keys that judge a field they
share alike, it lists what differs and nothing else, each key once and in order; it lists
nothing exactly when they hold the same values; and it treats the two sides alike. -/
theorem diff_exact (ha : (a.map Entry.key).Nodup) (hb : (b.map Entry.key).Nodup)
    (hab : ∀ e ∈ a, ∀ f ∈ b, e.key = f.key → e.judged = f.judged) :
    (∀ d, d ∈ diff a b ↔ Differs a b d) ∧
      (∀ k, k ∈ (diff a b).map Difference.key ↔ Dump.get a k ≠ Dump.get b k) ∧
      ((diff a b).map Difference.key).Pairwise (· < ·) ∧
      (diff a b = [] ↔
        (a.map fun e => (e.key, e.value)).Perm (b.map fun e => (e.key, e.value))) ∧
      diff b a = (diff a b).map Difference.exchange :=
  ⟨fun _ => mem_diff_iff_differs ha hb hab, fun _ => mem_map_key_diff ha hb, diff_ascending,
    diff_eq_nil_iff ha hb, diff_exchange ha hb hab⟩

/-- A value that differs and a field that one side lacks. -/
theorem diff_exact_two :
    diff [⟨"uuid", "0", .identity⟩, ⟨"label", "a", .structural⟩]
        [⟨"label", "b", .structural⟩] =
      [⟨"label", some "a", some "b", .structural⟩, ⟨"uuid", some "0", none, .structural⟩] ∧
      diff [⟨"label", "b", .structural⟩]
        [⟨"uuid", "0", .identity⟩, ⟨"label", "a", .structural⟩] =
      [⟨"label", some "b", some "a", .structural⟩, ⟨"uuid", none, some "0", .structural⟩] := by
  have heval : diff [⟨"uuid", "0", .identity⟩, ⟨"label", "a", .structural⟩]
      [⟨"label", "b", .structural⟩] =
      [⟨"label", some "a", some "b", .structural⟩, ⟨"uuid", some "0", none, .structural⟩] := by
    decide +kernel
  refine ⟨heval, ?_⟩
  have hexact := diff_exact (a := [⟨"uuid", "0", .identity⟩, ⟨"label", "a", .structural⟩])
    (b := [⟨"label", "b", .structural⟩]) (by decide) (by decide) (by decide)
  rw [hexact.2.2.2.2, heval]
  rfl

end Exact

end MkfsXfs.Inspect
