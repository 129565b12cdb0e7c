import Mathlib.Tactic

/-!
Checked code: a computation that ends with a value, returns an error of its own, or stops
where no caller can handle it.

* `Fault`, `Run`: the three ways a run ends early, an error it returns, a panic (an
  arithmetic overflow, a division by zero, an index out of range), and a loop that makes no
  progress.
* `sub`, `fit`, `mod`, `ceilDiv`: the operations of machine arithmetic that can panic,
  read on the natural numbers.  Sums, products and left shifts grow, so an expression of
  them that `fit`s its word at the end fits it at every step.
* `Returns`: a run that neither panics nor hangs, with `Returns.bind` to carry it through
  a sequence.
-/

namespace Checked

/-- How a run ends without a value. -/
inductive Fault (ε : Type) where
  /-- an error the code returns -/
  | error (e : ε)
  /-- a panic of the checked arithmetic or indexing -/
  | panic
  /-- a loop without progress -/
  | hang
  deriving DecidableEq, Repr

/-- A run of checked code: a value or a fault. -/
abbrev Run (ε α : Type) := Except (Fault ε) α

variable {ε α β : Type}

/-- A sequence succeeds exactly when both halves do. -/
lemma bind_eq_ok {x : Run ε α} {f : α → Run ε β} {b : β} :
    (x >>= f) = .ok b ↔ ∃ a, x = .ok a ∧ f a = .ok b := by
  refine ⟨fun h => ?_, fun ⟨a, hx, hf⟩ => by rw [hx]; exact hf⟩
  rcases x with e | a
  · cases h
  · exact ⟨a, rfl, h⟩

@[simp] lemma ok_bind (a : α) (f : α → Run ε β) : ((.ok a : Run ε α) >>= f) = f a := rfl

@[simp] lemma error_bind (e : Fault ε) (f : α → Run ε β) :
    ((.error e : Run ε α) >>= f) = .error e := rfl

@[simp] lemma pure_eq_ok (a : α) : (pure a : Run ε α) = .ok a := rfl

/-- A run over a list succeeds when it does at every element. -/
lemma mapM_eq_ok {f : α → Run ε β} {g : α → β} : ∀ {l : List α},
    (∀ a ∈ l, f a = .ok (g a)) → l.mapM f = .ok (l.map g)
  | [], _ => rfl
  | a :: l, h => by
      have ih := mapM_eq_ok fun b hb => h b (List.mem_cons_of_mem a hb)
      rw [List.mapM_cons, h a List.mem_cons_self, ok_bind, ih, ok_bind]
      rfl

/-- A run over a list succeeds with the results of its elements. -/
lemma mapM_eq_ok_iff {f : α → Run ε β} : ∀ {l : List α} {r : List β},
    l.mapM f = .ok r ↔ List.Forall₂ (fun a b => f a = .ok b) l r
  | [], r => by
      rw [List.mapM_nil, pure_eq_ok, List.forall₂_nil_left_iff]
      exact ⟨fun h => (Except.ok.inj h).symm, fun h => by rw [h]⟩
  | a :: l, r => by
      rw [List.mapM_cons, bind_eq_ok, List.forall₂_cons_left_iff]
      constructor
      · rintro ⟨b, hb, h⟩
        obtain ⟨bs, hbs, hr⟩ := bind_eq_ok.mp h
        exact ⟨b, bs, hb, mapM_eq_ok_iff.mp hbs, (Except.ok.inj hr).symm⟩
      · rintro ⟨b, bs, hb, hbs, rfl⟩
        exact ⟨b, hb, bind_eq_ok.mpr ⟨bs, mapM_eq_ok_iff.mpr hbs, rfl⟩⟩

/-- A run over a list fails as it does at the first element that fails. -/
lemma mapM_eq_error {f : α → Run ε β} {l₁ l₂ : List α} {a : α} {e : Fault ε}
    (hok : ∀ b ∈ l₁, ∃ c, f b = .ok c) (ha : f a = .error e) :
    (l₁ ++ a :: l₂).mapM f = .error e := by
  induction l₁ with
  | nil =>
      rw [List.nil_append, List.mapM_cons, ha]
      rfl
  | cons b l ih =>
      obtain ⟨c, hc⟩ := hok b List.mem_cons_self
      rw [List.cons_append, List.mapM_cons, hc, ok_bind,
        ih fun b' hb' => hok b' (List.mem_cons_of_mem b hb')]
      rfl

/-! ### The operations that can fail -/

/-- Return the error `e` when `c` holds. -/
def refuseIf (c : Prop) [Decidable c] (e : ε) : Run ε Unit :=
  if c then .error (.error e) else .ok ()

/-- Subtraction, a panic below zero. -/
def sub (a b : ℕ) : Run ε ℕ := if b ≤ a then .ok (a - b) else .error .panic

/-- A value computed in `w` bits, a panic when it does not fit. -/
def fit (w n : ℕ) : Run ε ℕ := if n < 2 ^ w then .ok n else .error .panic

/-- A check made on the way, a panic when it fails. -/
def ensure (c : Prop) [Decidable c] : Run ε Unit := if c then .ok () else .error .panic

/-- The remainder, a panic at a zero divisor. -/
def mod (a b : ℕ) : Run ε ℕ := if b = 0 then .error .panic else .ok (a % b)

/-- The quotient, a panic at a zero divisor. -/
def div (a b : ℕ) : Run ε ℕ := if b = 0 then .error .panic else .ok (a / b)

/-- The quotient rounded up, a panic at a zero divisor. -/
def ceilDiv (a b : ℕ) : Run ε ℕ := if b = 0 then .error .panic else .ok ((a + b - 1) / b)

variable {a b c w n : ℕ}

@[simp] lemma refuseIf_eq_ok {p : Prop} [Decidable p] {e : ε} {u : Unit} :
    refuseIf p e = .ok u ↔ ¬ p := by
  by_cases h : p <;> simp [refuseIf, h]

@[simp] lemma sub_eq_ok : (sub a b : Run ε ℕ) = .ok c ↔ b ≤ a ∧ c = a - b := by
  by_cases h : b ≤ a <;> simp [sub, h, eq_comm]

@[simp] lemma fit_eq_ok : (fit w n : Run ε ℕ) = .ok c ↔ n < 2 ^ w ∧ c = n := by
  by_cases h : n < 2 ^ w <;> simp [fit, h, eq_comm]

@[simp] lemma mod_eq_ok : (mod a b : Run ε ℕ) = .ok c ↔ b ≠ 0 ∧ c = a % b := by
  by_cases h : b = 0 <;> simp [mod, h, eq_comm]

@[simp] lemma div_eq_ok : (div a b : Run ε ℕ) = .ok c ↔ b ≠ 0 ∧ c = a / b := by
  by_cases h : b = 0 <;> simp [div, h, eq_comm]

@[simp] lemma ceilDiv_eq_ok :
    (ceilDiv a b : Run ε ℕ) = .ok c ↔ b ≠ 0 ∧ c = (a + b - 1) / b := by
  by_cases h : b = 0 <;> simp [ceilDiv, h, eq_comm]

/-! The same facts where the operation is followed by the rest of a run. -/

variable {f : ℕ → Run ε β} {r : β}

@[simp] lemma refuseIf_bind_eq_ok {p : Prop} [Decidable p] {e : ε} {g : Unit → Run ε β} :
    (refuseIf p e >>= g) = .ok r ↔ ¬ p ∧ g () = .ok r := by
  by_cases h : p <;> simp [refuseIf, h]

@[simp] lemma sub_bind_eq_ok : (sub a b >>= f) = .ok r ↔ b ≤ a ∧ f (a - b) = .ok r := by
  by_cases h : b ≤ a <;> simp [sub, h]

@[simp] lemma fit_bind_eq_ok : (fit w n >>= f) = .ok r ↔ n < 2 ^ w ∧ f n = .ok r := by
  by_cases h : n < 2 ^ w <;> simp [fit, h]

@[simp] lemma mod_bind_eq_ok : (mod a b >>= f) = .ok r ↔ b ≠ 0 ∧ f (a % b) = .ok r := by
  by_cases h : b = 0 <;> simp [mod, h]

@[simp] lemma div_bind_eq_ok : (div a b >>= f) = .ok r ↔ b ≠ 0 ∧ f (a / b) = .ok r := by
  by_cases h : b = 0 <;> simp [div, h]

@[simp] lemma ceilDiv_bind_eq_ok :
    (ceilDiv a b >>= f) = .ok r ↔ b ≠ 0 ∧ f ((a + b - 1) / b) = .ok r := by
  by_cases h : b = 0 <;> simp [ceilDiv, h]

lemma sub_of_le (h : b ≤ a) : (sub a b : Run ε ℕ) = .ok (a - b) := if_pos h

lemma sub_of_lt (h : a < b) : (sub a b : Run ε ℕ) = .error .panic := if_neg (by omega)

lemma fit_of_lt (h : n < 2 ^ w) : (fit w n : Run ε ℕ) = .ok n := if_pos h

lemma mod_of_pos (h : 0 < b) : (mod a b : Run ε ℕ) = .ok (a % b) := if_neg (by omega)

lemma div_of_pos (h : 0 < b) : (div a b : Run ε ℕ) = .ok (a / b) := if_neg (by omega)

lemma ceilDiv_of_pos (h : 0 < b) : (ceilDiv a b : Run ε ℕ) = .ok ((a + b - 1) / b) :=
  if_neg (by omega)

lemma refuseIf_of_not {p : Prop} [Decidable p] {e : ε} (h : ¬ p) :
    refuseIf p e = (.ok () : Run ε Unit) := if_neg h

/-! ### Runs that return -/

/-- The run ends with a value or an error of its own: it neither panics nor hangs. -/
def Returns (x : Run ε α) : Prop := ∀ f, x = .error f → ∃ e, f = .error e

@[simp] lemma Returns.ok (a : α) : Returns (.ok a : Run ε α) := fun _ h => by cases h

@[simp] lemma Returns.error (e : ε) : Returns (.error (.error e) : Run ε α) := by
  intro f h
  cases h
  exact ⟨e, rfl⟩

/-- A sequence returns when its first half does and its second does on every value. -/
lemma Returns.bind {x : Run ε α} {f : α → Run ε β} (hx : Returns x)
    (hf : ∀ a, x = .ok a → Returns (f a)) : Returns (x >>= f) := by
  cases x with
  | ok a => exact hf a rfl
  | error e =>
      obtain ⟨e', rfl⟩ := hx e rfl
      exact Returns.error e'

@[simp] lemma Returns.refuseIf (p : Prop) [Decidable p] (e : ε) :
    Returns (refuseIf p e) := by
  by_cases h : p <;> simp [Checked.refuseIf, h]

lemma Returns.sub (h : b ≤ a) : Returns (sub a b : Run ε ℕ) := by
  rw [sub_of_le h]; exact Returns.ok _

lemma Returns.fit (h : n < 2 ^ w) : Returns (fit w n : Run ε ℕ) := by
  rw [fit_of_lt h]; exact Returns.ok _

lemma Returns.mod (h : 0 < b) : Returns (mod a b : Run ε ℕ) := by
  rw [mod_of_pos h]; exact Returns.ok _

lemma Returns.div (h : 0 < b) : Returns (div a b : Run ε ℕ) := by
  rw [div_of_pos h]; exact Returns.ok _

lemma Returns.ceilDiv (h : 0 < b) : Returns (ceilDiv a b : Run ε ℕ) := by
  rw [ceilDiv_of_pos h]; exact Returns.ok _

end Checked
