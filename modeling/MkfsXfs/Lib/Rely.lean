import MkfsXfs.Lib.Crash

/-!
Programs that rely on how their operations are answered.

* `Prog.SafeUnder`: `Prog.Safe` as long as every answer is an allowed one.  `Safe.under`,
  `SafeUnder.bind` and `SafeUnder.mono` are its rules.
* `Prog.issued`: the operations that a run issues, the one it fails at included.
* `SafeUnder.run`: what is safe under the answers that a handler gives holds of its runs, and of
  all the operations they issue.
* `run_lockstep_issued`: handlers in lockstep on the operations issued run a program alike.
-/

namespace Prog

variable {Op : Type} {Ans : Op → Type} {φ α β σ : Type}

/-- As long as `A` allows the answers, every operation called satisfies `G`, every error `E` and
every result `Q`. -/
def SafeUnder (A : (op : Op) → Ans op → Prop) (G : Op → Prop) (E : φ → Prop) (Q : α → Prop) :
    Prog Op Ans φ α → Prop
  | pure a => Q a
  | fail e => E e
  | call op k => G op ∧ ∀ a, A op a → SafeUnder A G E Q (k a)

section SafeUnder

variable {A : (op : Op) → Ans op → Prop} {G G' : Op → Prop} {E E' : φ → Prop} {Q Q' : α → Prop}
  {R : β → Prop} {p : Prog Op Ans φ α} {f : α → Prog Op Ans φ β}

lemma safeUnder_lift {op : Op} {Q : Ans op → Prop} :
    SafeUnder A G E Q (lift op : Prog Op Ans φ (Ans op)) ↔ G op ∧ ∀ a, A op a → Q a := Iff.rfl

/-- What is safe whatever the answers is safe under some of them. -/
lemma Safe.under (hp : Safe G E Q p) : SafeUnder A G E Q p := by
  induction p with
  | pure a => exact hp
  | fail e => exact hp
  | call op k ih => exact ⟨hp.1, fun a _ => ih a (hp.2 a)⟩

lemma SafeUnder.mono (hp : SafeUnder A G E Q p) (hG : ∀ op, G op → G' op) (hE : ∀ e, E e → E' e)
    (hQ : ∀ a, Q a → Q' a) : SafeUnder A G' E' Q' p := by
  induction p with
  | pure a => exact hQ a hp
  | fail e => exact hE e hp
  | call op k ih => exact ⟨hG op hp.1, fun a ha => ih a (hp.2 a ha)⟩

/-- The rule of sequence. -/
lemma SafeUnder.bind (hp : SafeUnder A G E Q p) (hf : ∀ a, Q a → SafeUnder A G E R (f a)) :
    SafeUnder A G E R (p >>= f) := by
  induction p with
  | pure a => exact hf a hp
  | fail e => exact hp
  | call op k ih => exact ⟨hp.1, fun a ha => ih a (hp.2 a ha)⟩

end SafeUnder

/-! ### Runs -/

/-- The operations that a run issues, in order. -/
def issued (h : (op : Op) → σ → Except φ (Ans op) × σ) : Prog Op Ans φ α → σ → List Op
  | pure _, _ => []
  | fail _, _ => []
  | call op k, s => op ::
      match h op s with
      | (.ok a, s') => issued h (k a) s'
      | (.error _, _) => []

/-- A run completes operations that it issues. -/
lemma trace_subset_issued {h : (op : Op) → σ → Except φ (Ans op) × σ} {p : Prog Op Ans φ α} {s : σ}
    {op : Op} (hop : op ∈ trace h p s) : op ∈ issued h p s := by
  induction p generalizing s with
  | pure a => cases hop
  | fail e => cases hop
  | call op' k ih =>
      rw [trace_call] at hop
      rw [issued]
      rcases hr : h op' s with ⟨e | a, s'⟩
      · rw [hr] at hop
        cases hop
      · rw [hr] at hop
        rcases List.mem_cons.mp hop with rfl | hmem
        · exact List.mem_cons_self
        · exact List.mem_cons_of_mem _ (ih a hmem)

/-- What a program issues does not depend on what becomes of its result. -/
lemma issued_map {h : (op : Op) → σ → Except φ (Ans op) × σ} {p : Prog Op Ans φ α} (f : α → β)
    {s : σ} : issued h (p >>= fun a => Prog.pure (f a)) s = issued h p s := by
  induction p generalizing s with
  | pure a => rfl
  | fail e => rfl
  | call op k ih =>
      rw [call_bind, issued, issued]
      rcases h op s with ⟨e | a, s'⟩
      · rfl
      · exact congrArg (op :: ·) (ih a)

/-- **What is safe under a handler's answers holds of its runs.** -/
theorem SafeUnder.run {A : (op : Op) → Ans op → Prop} {G : Op → Prop} {E : φ → Prop}
    {Q : α → Prop} {p : Prog Op Ans φ α} {h : (op : Op) → σ → Except φ (Ans op) × σ}
    (hp : SafeUnder A G E Q p) (I : σ → Prop)
    (hstep : ∀ op s, G op → I s → I (h op s).2 ∧ (∀ a, (h op s).1 = .ok a → A op a) ∧
      ∀ e, (h op s).1 = .error e → E e)
    {s : σ} (hs : I s) : (∀ op ∈ issued h p s, G op) ∧ I (run h p s).2 ∧
      (∀ e, (run h p s).1 = .error e → E e) ∧ ∀ a, (run h p s).1 = .ok a → Q a := by
  induction p generalizing s with
  | pure a =>
      refine ⟨fun op hop => (by cases hop), hs, fun e he => (by cases he), fun b hb => ?_⟩
      rw [← Except.ok.inj hb]
      exact hp
  | fail e =>
      refine ⟨fun op hop => (by cases hop), hs, fun e' he => ?_, fun b hb => (by cases hb)⟩
      rw [← Except.error.inj he]
      exact hp
  | call op k ih =>
      obtain ⟨hkeep, hans, herr⟩ := hstep op s hp.1 hs
      rw [issued, run_call]
      rcases hr : h op s with ⟨e | a, s'⟩
      · rw [hr] at hkeep herr
        dsimp only
        refine ⟨fun op' hop => ?_, hkeep, fun e' he =>
          herr e' (congrArg Except.error (Except.error.inj he)), fun b hb => (by cases hb)⟩
        rw [List.mem_singleton.mp hop]
        exact hp.1
      · rw [hr] at hkeep hans
        obtain ⟨hissued, hrest⟩ := ih a (hp.2 a (hans a rfl)) hkeep
        refine ⟨fun op' hop => ?_, hrest⟩
        rcases List.mem_cons.mp hop with rfl | hmem
        · exact hp.1
        · exact hissued op' hmem

/-- **Handlers in lockstep on what is issued run a program alike**: they answer the operations
that one of them is issued the same from related states, and stay related. -/
theorem run_lockstep_issued {τ : Type} {h : (op : Op) → σ → Except φ (Ans op) × σ}
    {H : (op : Op) → τ → Except φ (Ans op) × τ} {R : σ → τ → Prop} {G : Op → Prop}
    (sim : ∀ op s t, G op → R s t → (h op s).1 = (H op t).1 ∧ R (h op s).2 (H op t).2)
    {p : Prog Op Ans φ α} {s : σ} {t : τ} (hst : R s t) (hissued : ∀ op ∈ issued H p t, G op) :
    (run h p s).1 = (run H p t).1 ∧ R (run h p s).2 (run H p t).2 := by
  induction p generalizing s t with
  | pure a => exact ⟨rfl, hst⟩
  | fail e => exact ⟨rfl, hst⟩
  | call op k ih =>
      rw [issued] at hissued
      have hop := sim op s t (hissued op List.mem_cons_self) hst
      rw [run_call, run_call]
      rcases hs : h op s with ⟨x, s'⟩
      rcases ht : H op t with ⟨y, t'⟩
      rw [hs, ht] at hop
      rw [ht] at hissued
      obtain ⟨rfl, hst'⟩ := hop
      cases x with
      | error e => exact ⟨rfl, hst'⟩
      | ok a => exact ih a hst' fun op hop => hissued op (List.mem_cons_of_mem _ hop)

end Prog
