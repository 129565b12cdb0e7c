import Mathlib.Data.List.DropRight
import Mathlib.Data.Nat.Digits.Lemmas
import Mathlib.Tactic

/-!
Reading text: blanks around it, numbers in it, and settings one after the other.

* `Text.trim`: text without what stands around it.  `trim_append` and `exists_of_trim`.
* `Text.value`: the number that decimal digits write.
* `Text.parse`, `parse_eq_ok`: a decimal number below a limit, read from the left.
* `Settings.last`: the last value given for a key.  `foldlM_last`: a fold that stores the value
  of every setting of a key ends with the last one.
-/

namespace Text

/-! ### Blanks -/

section Trim

variable {α : Type} {white : α → Bool} {s lead body trail : List α}

/-- The text without the blanks at its two ends. -/
def trim (white : α → Bool) (s : List α) : List α := (s.dropWhile white).rdropWhile white

lemma exists_of_trim : ∃ lead trail, s = lead ++ trim white s ++ trail ∧
    (∀ c ∈ lead, white c) ∧ ∀ c ∈ trail, white c := by
  refine ⟨s.takeWhile white, (s.dropWhile white).rtakeWhile white, ?_, fun c hc => ?_,
    fun c hc => ?_⟩
  · rw [trim, List.append_assoc, List.rdropWhile_append_rtakeWhile,
      List.takeWhile_append_dropWhile]
  · exact List.mem_takeWhile_imp hc
  · exact List.mem_rtakeWhile_imp hc

/-- Only what stands around the text goes. -/
lemma trim_append (hlead : ∀ c ∈ lead, white c) (htrail : ∀ c ∈ trail, white c)
    (hne : body ≠ []) (hhead : ¬ white (body.head hne)) (hlast : ¬ white (body.getLast hne)) :
    trim white (lead ++ body ++ trail) = body := by
  have hfront : (lead ++ body ++ trail).dropWhile white = body ++ trail := by
    obtain ⟨c, cs, rfl⟩ := List.exists_cons_of_ne_nil hne
    have hc : ¬ white c := hhead
    rw [List.append_assoc, List.dropWhile_append_of_pos hlead, List.cons_append,
      List.dropWhile_cons_of_neg hc]
  have hback : (body ++ trail).reverse.dropWhile white = body.reverse := by
    rw [List.reverse_append, List.dropWhile_append_of_pos (by simpa using htrail),
      ← List.dropLast_append_getLast hne, List.reverse_append, List.reverse_singleton,
      List.singleton_append, List.dropWhile_cons_of_neg hlast]
  rw [trim, hfront, List.rdropWhile, hback, List.reverse_reverse]

end Trim

/-! ### Numbers -/

/-- What keeps text from being a number. -/
inductive NumberError where
  | empty
  | invalidDigit
  | overflow
  deriving DecidableEq, Repr

/-- The value of a digit. -/
def digit (c : Char) : ℕ := c.toNat - '0'.toNat

/-- The number that the digits write, the most significant one first. -/
def value (digits : List Char) : ℕ := Nat.ofDigits 10 (digits.reverse.map digit)

/-- Read digits after the ones that gave `acc`. -/
def parseDigits (limit : ℕ) : ℕ → List Char → Except NumberError ℕ
  | acc, [] => .ok acc
  | acc, c :: cs =>
      if c.isDigit then
        if acc * 10 + digit c < limit then parseDigits limit (acc * 10 + digit c) cs
        else .error .overflow
      else .error .invalidDigit

/-- Read a number below the limit: digits, with or without a plus before them. -/
def parse (limit : ℕ) (s : List Char) : Except NumberError ℕ :=
  match s with
  | [] => .error .empty
  | ['+'] => .error .invalidDigit
  | '+' :: cs => parseDigits limit 0 cs
  | cs => parseDigits limit 0 cs

section Numbers

variable {limit acc n : ℕ} {s cs : List Char} {c : Char}

lemma value_cons : value (c :: cs) = digit c * 10 ^ cs.length + value cs := by
  rw [value, List.reverse_cons, List.map_append, Nat.ofDigits_append, List.map_singleton,
    Nat.ofDigits_singleton, List.length_map, List.length_reverse, value, Nat.add_comm,
    Nat.mul_comm]

/-- Digits are read as the number they write, when that is below the limit. -/
lemma parseDigits_eq_ok (hacc : acc < limit) : parseDigits limit acc cs = .ok n ↔
    (∀ c ∈ cs, c.isDigit) ∧ n = acc * 10 ^ cs.length + value cs ∧ n < limit := by
  induction cs generalizing acc with
  | nil =>
      have hnil : value [] = 0 := rfl
      rw [parseDigits, Except.ok.injEq, List.length_nil, pow_zero, hnil]
      constructor
      · rintro rfl
        exact ⟨by simp, by omega, hacc⟩
      · rintro ⟨-, rfl, -⟩
        omega
  | cons c cs ih =>
      have hnext : (acc * 10 + digit c) * 10 ^ cs.length + value cs
          = acc * 10 ^ (c :: cs).length + value (c :: cs) := by
        rw [value_cons, List.length_cons, pow_succ]
        ring
      rw [parseDigits]
      split_ifs with hdigit hlt
      · rw [ih hlt, hnext, List.forall_mem_cons]
        simp only [hdigit, true_and]
      · have hle : acc * 10 + digit c ≤ (acc * 10 + digit c) * 10 ^ cs.length + value cs :=
          le_trans (Nat.le_mul_of_pos_right _ (by positivity)) (Nat.le_add_right _ _)
        constructor
        · rintro ⟨⟩
        · rintro ⟨-, rfl, hn⟩
          omega
      · constructor
        · rintro ⟨⟩
        · rintro ⟨hall, -, -⟩
          exact absurd (hall c List.mem_cons_self) hdigit

/-- **The numbers that are read.** -/
theorem parse_eq_ok (hpos : 0 < limit) : parse limit s = .ok n ↔
    ∃ sign digits, s = sign ++ digits ∧ (sign = [] ∨ sign = ['+']) ∧ digits ≠ [] ∧
      (∀ c ∈ digits, c.isDigit) ∧ n = value digits ∧ n < limit := by
  have hdigits : ∀ cs, parseDigits limit 0 cs = .ok n ↔
      (∀ c ∈ cs, c.isDigit) ∧ n = value cs ∧ n < limit := fun cs => by
    rw [parseDigits_eq_ok hpos, Nat.zero_mul, Nat.zero_add]
  have hplus : Char.isDigit '+' = false := by decide
  constructor
  · intro h
    rw [parse.eq_def] at h
    split at h
    · cases h
    · cases h
    · rename_i cs hne
      obtain ⟨hall, hn, hlt⟩ := (hdigits cs).mp h
      exact ⟨['+'], cs, rfl, .inr rfl, fun hnil => hne (by rw [hnil]), hall, hn, hlt⟩
    · rename_i hempty hone hsign
      obtain ⟨hall, hn, hlt⟩ := (hdigits s).mp h
      exact ⟨[], s, rfl, .inl rfl, hempty, hall, hn, hlt⟩
  · rintro ⟨sign, digits, rfl, hsign, hne, hall, hn, hlt⟩
    obtain ⟨d, ds, rfl⟩ := List.exists_cons_of_ne_nil hne
    have hd : d ≠ '+' := by
      rintro rfl
      have h := hall _ List.mem_cons_self
      rw [hplus] at h
      cases h
    rcases hsign with rfl | rfl
    · rw [List.nil_append, parse.eq_def]
      split
      · rename_i h
        cases h
      · rename_i h
        cases h
        exact absurd rfl hd
      · rename_i h
        cases h
        exact absurd rfl hd
      · exact (hdigits _).mpr ⟨hall, hn, hlt⟩
    · have hparse : parse limit (['+'] ++ d :: ds) = parseDigits limit 0 (d :: ds) := rfl
      rw [hparse]
      exact (hdigits _).mpr ⟨hall, hn, hlt⟩

end Numbers

end Text

/-! ### Settings -/

namespace Settings

variable {κ ν σ ε β γ : Type} {kv : κ × ν} {kvs : List (κ × ν)}
  {step : σ → κ × ν → Except ε σ} {s s' : σ}

/-- What no setting changes is as it was. -/
lemma foldlM_keeps (get : σ → β) (hstep : ∀ s kv s', step s kv = .ok s' → get s' = get s)
    (h : kvs.foldlM step s = .ok s') : get s' = get s := by
  induction kvs generalizing s with
  | nil =>
      obtain rfl := Except.ok.inj h
      rfl
  | cons kv kvs ih =>
      rw [List.foldlM_cons] at h
      cases hkv : step s kv with
      | error e =>
          rw [hkv] at h
          cases h
      | ok t =>
          rw [hkv] at h
          exact (ih h).trans (hstep s kv t hkv)

variable [DecidableEq κ] {key : κ}

/-- The last value given for a key. -/
def last (kvs : List (κ × ν)) (key : κ) : Option ν :=
  ((kvs.filter (·.1 = key)).getLast?).map Prod.snd

lemma last_cons : last (kv :: kvs) key =
    (last kvs key).or (if kv.1 = key then some kv.2 else none) := by
  rw [last, last]
  by_cases hkey : kv.1 = key
  · rw [List.filter_cons_of_pos (by simpa using hkey), if_pos hkey]
    cases kvs.filter (·.1 = key) with
    | nil => rfl
    | cons x xs => simp [List.getLast?_cons]
  · rw [List.filter_cons_of_neg (by simpa using hkey), if_neg hkey, Option.or_none]

lemma mem_of_last {v : ν} (h : last kvs key = some v) : (key, v) ∈ kvs := by
  obtain ⟨⟨k, v'⟩, hkv, rfl⟩ := Option.map_eq_some_iff.mp h
  obtain ⟨hmem, hkey⟩ := List.mem_filter.mp (List.mem_of_getLast? hkv)
  obtain rfl : k = key := by simpa using hkey
  exact hmem

/-- **The last setting of a key is the one that stays.**  Each setting of the key stores what
its value is read as, each other setting leaves it. -/
theorem foldlM_last (get : σ → β) {read : ν → Except ε γ} (store : γ → β)
    (hset : ∀ s v s', step s (key, v) = .ok s' → ∃ c, read v = .ok c ∧ get s' = store c)
    (hkeep : ∀ s kv s', kv.1 ≠ key → step s kv = .ok s' → get s' = get s)
    (h : kvs.foldlM step s = .ok s') :
    (∀ v, (key, v) ∈ kvs → ∃ c, read v = .ok c) ∧
      match last kvs key with
      | none => get s' = get s
      | some v => ∃ c, read v = .ok c ∧ get s' = store c := by
  induction kvs generalizing s with
  | nil =>
      obtain rfl := Except.ok.inj h
      exact ⟨fun v hv => (by cases hv), rfl⟩
  | cons kv kvs ih =>
      rw [List.foldlM_cons] at h
      cases hkv : step s kv with
      | error e =>
          rw [hkv] at h
          cases h
      | ok t =>
          rw [hkv] at h
          obtain ⟨hread, hlast⟩ := ih h
          by_cases hkey : kv.1 = key
          · obtain ⟨k, v⟩ := kv
            obtain rfl : k = key := hkey
            obtain ⟨c, hc, hget⟩ := hset s v t hkv
            refine ⟨fun v' hv' => ?_, ?_⟩
            · rcases List.mem_cons.mp hv' with heq | hmem
              · obtain ⟨-, rfl⟩ := Prod.mk.inj heq
                exact ⟨c, hc⟩
              · exact hread v' hmem
            · rw [last_cons, if_pos rfl]
              cases hl : last kvs k with
              | none =>
                  rw [hl] at hlast
                  exact ⟨c, hc, hlast.trans hget⟩
              | some v' =>
                  rw [hl] at hlast
                  exact hlast
          · refine ⟨fun v' hv' => ?_, ?_⟩
            · rcases List.mem_cons.mp hv' with heq | hmem
              · exact absurd (congrArg Prod.fst heq).symm hkey
              · exact hread v' hmem
            · rw [last_cons, if_neg hkey, Option.or_none]
              cases hl : last kvs key with
              | none =>
                  rw [hl] at hlast
                  exact hlast.trans (hkeep s kv t hkey hkv)
              | some v' =>
                  rw [hl] at hlast
                  exact hlast

end Settings
