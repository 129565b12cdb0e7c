import Mathlib.Tactic

/-!
Programs over an interface of operations: a tree whose nodes are operations and whose
leaves are results or errors.  An operation that fails ends the program, so a program is
code in which every call is followed by `?`.

* `Prog`, `Prog.run`: the programs, and their runs under a handler that answers the
  operations from a state.  `run_bind` runs a sequence.
* `Prog.Safe`: whatever the operations answer, each one called is allowed, each error and
  each result is as expected.  `Safe.bind`, `Safe.bind_congr` and `Safe.mono` are its rules,
  `Safe.run` makes it a fact about the runs under any handler that keeps an invariant.
* `Prog.eval`: the value of a program whose operations are answered by a fixed function.
* `Prog.translate`: one interface implemented over another, with a state of the
  implementation carried from call to call.  `run_translate` is its correctness: when each
  operation answers as specified and keeps the simulation relation, the implemented
  program computes what `eval` says.
-/

/-- Programs over the operations `Op`, with the answers `Ans`, the errors `φ` and results
in `α`. -/
inductive Prog (Op : Type) (Ans : Op → Type) (φ α : Type) where
  /-- a result -/
  | pure (a : α)
  /-- an error -/
  | fail (e : φ)
  /-- an operation and what follows each of its answers -/
  | call (op : Op) (k : Ans op → Prog Op Ans φ α)

namespace Prog

variable {Op Op' : Type} {Ans : Op → Type} {Ans' : Op' → Type} {φ α β σ τ : Type}

/-- The program that goes on with `f` at each result. -/
protected def bind : Prog Op Ans φ α → (α → Prog Op Ans φ β) → Prog Op Ans φ β
  | pure a, f => f a
  | fail e, _ => fail e
  | call op k, f => call op fun a => (k a).bind f

instance : Monad (Prog Op Ans φ) where
  pure := Prog.pure
  bind := Prog.bind

/-- An operation by itself. -/
def lift (op : Op) : Prog Op Ans φ (Ans op) := call op Prog.pure

/-- A computation without operations. -/
def ofExcept : Except φ α → Prog Op Ans φ α
  | .ok a => Prog.pure a
  | .error e => fail e

instance : MonadLift (Except φ) (Prog Op Ans φ) := ⟨ofExcept⟩

@[simp] lemma pure_bind' (a : α) (f : α → Prog Op Ans φ β) : Prog.pure a >>= f = f a := rfl

@[simp] lemma fail_bind (e : φ) (f : α → Prog Op Ans φ β) :
    (fail e : Prog Op Ans φ α) >>= f = fail e := rfl

@[simp] lemma call_bind (op : Op) (k : Ans op → Prog Op Ans φ α) (f : α → Prog Op Ans φ β) :
    call op k >>= f = call op fun a => k a >>= f := rfl

@[simp] lemma pure_eq (a : α) : (Pure.pure a : Prog Op Ans φ α) = Prog.pure a := rfl

@[simp] lemma monadLift_ok (a : α) :
    (monadLift (Except.ok a : Except φ α) : Prog Op Ans φ α) = Prog.pure a := rfl

@[simp] lemma monadLift_error (e : φ) :
    (monadLift (Except.error e : Except φ α) : Prog Op Ans φ α) = fail e := rfl

lemma bind_pure' (p : Prog Op Ans φ α) : p >>= Prog.pure = p := by
  induction p with
  | pure a => rfl
  | fail e => rfl
  | call op k ih => exact congrArg (call op) (funext ih)

lemma bind_assoc' {γ : Type} (p : Prog Op Ans φ α) (f : α → Prog Op Ans φ β)
    (g : β → Prog Op Ans φ γ) : (p >>= f) >>= g = p >>= fun a => f a >>= g := by
  induction p with
  | pure a => rfl
  | fail e => rfl
  | call op k ih => exact congrArg (call op) (funext ih)

instance : LawfulMonad (Prog Op Ans φ) :=
  LawfulMonad.mk' _ bind_pure' (fun _ _ => rfl) bind_assoc'

/-! ### Runs under a handler -/

/-- The run of a program: the handler answers each operation, or fails it, and moves the
state on. -/
def run (h : (op : Op) → σ → Except φ (Ans op) × σ) : Prog Op Ans φ α → σ → Except φ α × σ
  | pure a, s => (.ok a, s)
  | fail e, s => (.error e, s)
  | call op k, s =>
      match h op s with
      | (.ok a, s') => run h (k a) s'
      | (.error e, s') => (.error e, s')

section Run

variable {h : (op : Op) → σ → Except φ (Ans op) × σ} {s s' : σ} {p : Prog Op Ans φ α}
  {f : α → Prog Op Ans φ β}

@[simp] lemma run_pure (a : α) : run h (Prog.pure a) s = (.ok a, s) := rfl

@[simp] lemma run_fail (e : φ) : run h (fail e : Prog Op Ans φ α) s = (.error e, s) := rfl

lemma run_call (op : Op) (k : Ans op → Prog Op Ans φ α) : run h (call op k) s =
    match h op s with
    | (.ok a, s') => run h (k a) s'
    | (.error e, s') => (.error e, s') := by
  rw [run]

lemma run_lift (op : Op) : run h (lift op) s = h op s := by
  rw [lift, run_call]
  rcases h op s with ⟨_ | _, s'⟩ <;> rfl

lemma run_bind : run h (p >>= f) s =
    match run h p s with
    | (.ok a, s') => run h (f a) s'
    | (.error e, s') => (.error e, s') := by
  induction p generalizing s with
  | pure a => rfl
  | fail e => rfl
  | call op k ih =>
      rw [call_bind, run_call, run_call]
      rcases h op s with ⟨e | a, s'⟩
      · rfl
      · exact ih a

/-- A sequence whose first half succeeds goes on from there. -/
lemma run_bind_ok {a : α} (hp : run h p s = (.ok a, s')) : run h (p >>= f) s = run h (f a) s' := by
  rw [run_bind, hp]

/-- A sequence whose first half fails ends there. -/
lemma run_bind_error {e : φ} (hp : run h p s = (.error e, s')) :
    run h (p >>= f) s = (.error e, s') := by
  rw [run_bind, hp]

/-- A sequence succeeds exactly when both halves do. -/
lemma run_bind_eq_ok {b : β} : run h (p >>= f) s = (.ok b, s') ↔
    ∃ a t, run h p s = (.ok a, t) ∧ run h (f a) t = (.ok b, s') := by
  refine ⟨fun hr => ?_, fun ⟨a, t, hp, hf⟩ => (run_bind_ok hp).trans hf⟩
  rw [run_bind] at hr
  rcases hp : run h p s with ⟨e | a, t⟩
  · rw [hp] at hr
    cases hr
  · rw [hp] at hr
    exact ⟨a, t, rfl, hr⟩

/-- A sequence fails in its first half or in its second. -/
lemma run_bind_eq_error {e : φ} : run h (p >>= f) s = (.error e, s') ↔
    run h p s = (.error e, s') ∨
      ∃ a t, run h p s = (.ok a, t) ∧ run h (f a) t = (.error e, s') := by
  rw [run_bind]
  rcases run h p s with ⟨e' | a, t⟩ <;> simp

@[simp] lemma run_ofExcept_ok (a : α) :
    run h (ofExcept (.ok a) : Prog Op Ans φ α) s = (.ok a, s) := rfl

/-- **Handlers in lockstep run a program alike**: they answer every operation the same from
related states, and stay related. -/
theorem run_lockstep {H : (op : Op) → τ → Except φ (Ans op) × τ} {R : σ → τ → Prop}
    (sim : ∀ op s t, R s t → (h op s).1 = (H op t).1 ∧ R (h op s).2 (H op t).2)
    {t : τ} (hst : R s t) :
    (run h p s).1 = (run H p t).1 ∧ R (run h p s).2 (run H p t).2 := by
  induction p generalizing s t with
  | pure a => exact ⟨rfl, hst⟩
  | fail e => exact ⟨rfl, hst⟩
  | call op k ih =>
      have hop := sim op s t hst
      rw [run_call, run_call]
      rcases hs : h op s with ⟨x, s'⟩
      rcases ht : H op t with ⟨y, t'⟩
      rw [hs, ht] at hop
      obtain ⟨rfl, hst'⟩ := hop
      cases x with
      | error e => exact ⟨rfl, hst'⟩
      | ok a => exact ih a hst'

end Run

/-! ### Whatever the operations answer -/

/-- Every operation called satisfies `G`, every error `E` and every result `Q`. -/
def Safe (G : Op → Prop) (E : φ → Prop) (Q : α → Prop) : Prog Op Ans φ α → Prop
  | pure a => Q a
  | fail e => E e
  | call op k => G op ∧ ∀ a, Safe G E Q (k a)

section Safe

variable {G G' : Op → Prop} {E E' : φ → Prop} {Q Q' : α → Prop} {R : β → Prop}
  {p : Prog Op Ans φ α} {f : α → Prog Op Ans φ β}

@[simp] lemma safe_pure {a : α} : Safe G E Q (Prog.pure a : Prog Op Ans φ α) ↔ Q a := Iff.rfl

@[simp] lemma safe_fail {e : φ} : Safe G E Q (fail e : Prog Op Ans φ α) ↔ E e := Iff.rfl

lemma safe_lift {op : Op} {Q : Ans op → Prop} :
    Safe G E Q (lift op : Prog Op Ans φ (Ans op)) ↔ G op ∧ ∀ a, Q a := Iff.rfl

lemma safe_ofExcept {x : Except φ α} : Safe G E Q (ofExcept x : Prog Op Ans φ α) ↔
    (∀ e, x = .error e → E e) ∧ ∀ a, x = .ok a → Q a := by
  cases x <;> simp [ofExcept]

/-- Nothing is asked of any program. -/
lemma safe_true (p : Prog Op Ans φ α) : Safe (fun _ => True) (fun _ => True) (fun _ => True) p := by
  induction p with
  | pure a => trivial
  | fail e => trivial
  | call op k ih => exact ⟨trivial, ih⟩

lemma Safe.mono (hp : Safe G E Q p) (hG : ∀ op, G op → G' op) (hE : ∀ e, E e → E' e)
    (hQ : ∀ a, Q a → Q' a) : Safe G' E' Q' p := by
  induction p with
  | pure a => exact hQ a hp
  | fail e => exact hE e hp
  | call op k ih => exact ⟨hG op hp.1, fun a => ih a (hp.2 a)⟩

/-- The rule of sequence. -/
lemma Safe.bind (hp : Safe G E Q p) (hf : ∀ a, Q a → Safe G E R (f a)) :
    Safe G E R (p >>= f) := by
  induction p with
  | pure a => exact hf a hp
  | fail e => exact hp
  | call op k ih => exact ⟨hp.1, fun a => ih a (hp.2 a)⟩

/-- What follows a program matters at its results only. -/
lemma Safe.bind_congr {f' : α → Prog Op Ans φ β} (hp : Safe G E Q p)
    (hf : ∀ a, Q a → f' a = f a) : p >>= f' = p >>= f := by
  induction p with
  | pure a => exact hf a hp
  | fail e => rfl
  | call op k ih => exact congrArg (call op) (funext fun a => ih a (hp.2 a))

/-- **What is safe stays so in every run**: the invariant a handler keeps over the allowed
operations holds at the end, and the run ends in an expected result or error. -/
theorem Safe.run {h : (op : Op) → σ → Except φ (Ans op) × σ} (hp : Safe G E Q p)
    (I : σ → Prop)
    (hstep : ∀ op s, G op → I s → I (h op s).2 ∧ ∀ e, (h op s).1 = .error e → E e)
    {s : σ} (hs : I s) : I (run h p s).2 ∧ (∀ e, (run h p s).1 = .error e → E e) ∧
      ∀ a, (run h p s).1 = .ok a → Q a := by
  induction p generalizing s with
  | pure a => simpa [hs] using hp
  | fail e => simpa [hs] using hp
  | call op k ih =>
      have hop := hstep op s hp.1 hs
      rcases hr : h op s with ⟨e | a, s'⟩
      · have hrun : Prog.run h (call op k) s = (.error e, s') := by rw [run_call, hr]
        rw [hr] at hop
        rw [hrun]
        exact ⟨hop.1, fun e' he => hop.2 e' (by cases he; rfl), fun a ha => by cases ha⟩
      · have hrun : Prog.run h (call op k) s = Prog.run h (k a) s' := by rw [run_call, hr]
        rw [hr] at hop
        rw [hrun]
        exact ih a (hp.2 a) hop.1

end Safe

/-! ### Fixed answers, and one interface over another -/

/-- The value of a program whose operations always answer the same. -/
def eval (answer : (op : Op) → Ans op) : Prog Op Ans φ α → Except φ α
  | pure a => .ok a
  | fail e => .error e
  | call op k => eval answer (k (answer op))

section Eval

variable {answer : (op : Op) → Ans op}

@[simp] lemma eval_pure (a : α) : eval answer (Prog.pure a : Prog Op Ans φ α) = .ok a := rfl

@[simp] lemma eval_fail (e : φ) : eval answer (fail e : Prog Op Ans φ α) = .error e := rfl

@[simp] lemma eval_lift (op : Op) :
    eval answer (lift op : Prog Op Ans φ (Ans op)) = .ok (answer op) := rfl

@[simp] lemma eval_ofExcept (x : Except φ α) :
    eval answer (ofExcept x : Prog Op Ans φ α) = x := by cases x <;> rfl

@[simp] lemma eval_bind (p : Prog Op Ans φ α) (f : α → Prog Op Ans φ β) :
    eval answer (p >>= f) = eval answer p >>= fun a => eval answer (f a) := by
  induction p with
  | pure a => rfl
  | fail e => rfl
  | call op k ih => exact ih _

/-- Answers that agree on the operations a program calls give it one value. -/
lemma Safe.eval_congr {answer' : (op : Op) → Ans op} {G : Op → Prop} {E : φ → Prop}
    {Q : α → Prop} {p : Prog Op Ans φ α} (hp : Safe G E Q p)
    (h : ∀ op, G op → answer op = answer' op) : eval answer p = eval answer' p := by
  induction p with
  | pure a => rfl
  | fail e => rfl
  | call op k ih =>
      rw [eval, eval, h op hp.1]
      exact ih _ (hp.2 _)

end Eval

/-- The program over `Op'` that implements each operation of `Op` by `h`, with a state of
type `σ` handed from call to call. -/
def translate (h : (op : Op) → σ → Prog Op' Ans' φ (Ans op × σ)) :
    Prog Op Ans φ α → σ → Prog Op' Ans' φ (α × σ)
  | pure a, s => pure (a, s)
  | fail e, _ => fail e
  | call op k, s => h op s >>= fun r => translate h (k r.1) r.2

/-- An implementation calls only what its operations call. -/
lemma safe_translate {h : (op : Op) → σ → Prog Op' Ans' φ (Ans op × σ)} {G : Op' → Prop}
    {E : φ → Prop} {p : Prog Op Ans φ α} {A : Op → Prop} {Q : α → Prop} {I : σ → Prop}
    (hp : Safe A E Q p) (hh : ∀ op s, A op → I s → Safe G E (fun r => I r.2) (h op s))
    {s : σ} (hs : I s) : Safe G E (fun r => Q r.1 ∧ I r.2) (translate h p s) := by
  induction p generalizing s with
  | pure a => exact ⟨hp, hs⟩
  | fail e => exact hp
  | call op k ih => exact (hh op s hp.1 hs).bind fun r hr => ih r.1 (hp.2 r.1) hr

/-- **An implementation refines its interface.**  Let each allowed operation, run on states
that `R` relates, give the specified answer and related states.  Then the implemented
program has the result of the evaluated one. -/
theorem run_translate {h : (op : Op) → σ → Prog Op' Ans' φ (Ans op × σ)}
    {H : (op : Op') → τ → Except φ (Ans' op) × τ} {A : Op → Prop}
    (answer : (op : Op) → Ans op) (R : σ → τ → Prop)
    (sim : ∀ op s t, A op → R s t →
      ∃ s' t', run H (h op s) t = (.ok (answer op, s'), t') ∧ R s' t')
    {p : Prog Op Ans φ α} {E : φ → Prop} {Q : α → Prop} (hp : Safe A E Q p)
    {s : σ} {t : τ} (hst : R s t) :
    ∃ s' t', run H (translate h p s) t = ((eval answer p).map fun a => (a, s'), t') ∧
      R s' t' := by
  induction p generalizing s t with
  | pure a => exact ⟨s, t, rfl, hst⟩
  | fail e => exact ⟨s, t, rfl, hst⟩
  | call op k ih =>
      obtain ⟨s₁, t₁, hrun, hst₁⟩ := sim op s t hp.1 hst
      obtain ⟨s', t', hk, hst'⟩ := ih (answer op) (hp.2 _) hst₁
      exact ⟨s', t', (run_bind_ok hrun).trans hk, hst'⟩

end Prog
