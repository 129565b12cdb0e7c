import MkfsXfs.Lib.Prog

/-!
Operations that complete out of order, the operations a run completes, and what a power loss
leaves of them.

* `Unordered`: the order in which tasks complete of which at most `n` are under way.
* `Prog.trace`: the operations a run completes.  `trace_bind`: a sequence completes those of
  its halves; `mem_trace`: each is one the program may call.
* `Survives`: what a power loss leaves of completed operations: everything before the last
  barrier, and any part of the rest.
-/

/-! ### Completion order -/

/-- Tasks started in the order `l`, at most `n` at once, complete in the order `r`: the next
to complete is one of the first `n` left. -/
inductive Unordered {α : Type} (n : ℕ) : List α → List α → Prop where
  | nil : Unordered n [] []
  | next {l r : List α} {i : ℕ} {a : α} (hi : i < n) (ha : l[i]? = some a)
      (hr : Unordered n (l.eraseIdx i) r) : Unordered n l (a :: r)

namespace Unordered

variable {α : Type} {n : ℕ} {l r : List α}

/-- Every task completes once. -/
lemma perm (h : Unordered n l r) : r.Perm l := by
  induction h with
  | nil => exact List.Perm.nil
  | @next l r i a hi ha hr ih =>
      obtain ⟨hlt, rfl⟩ := List.getElem?_eq_some_iff.mp ha
      exact (ih.cons l[i]).trans (List.getElem_cons_eraseIdx_perm hlt)

/-- The tasks may complete in order. -/
lemma self (hn : 0 < n) : ∀ l : List α, Unordered n l l
  | [] => .nil
  | _ :: l => .next (i := 0) hn rfl (self hn l)

end Unordered

/-! ### Completed operations -/

namespace Prog

variable {Op : Type} {Ans : Op → Type} {φ α β σ : Type}

/-- The operations that a run completes, in order. -/
def trace (h : (op : Op) → σ → Except φ (Ans op) × σ) : Prog Op Ans φ α → σ → List Op
  | pure _, _ => []
  | fail _, _ => []
  | call op k, s =>
      match h op s with
      | (.ok a, s') => op :: trace h (k a) s'
      | (.error _, _) => []

variable {h : (op : Op) → σ → Except φ (Ans op) × σ} {s s' : σ} {p : Prog Op Ans φ α}
  {f : α → Prog Op Ans φ β}

@[simp] lemma trace_pure (a : α) : trace h (Prog.pure a : Prog Op Ans φ α) s = [] := rfl

@[simp] lemma trace_fail (e : φ) : trace h (fail e : Prog Op Ans φ α) s = [] := rfl

@[simp] lemma trace_ofExcept (x : Except φ α) : trace h (ofExcept x : Prog Op Ans φ α) s = [] := by
  cases x <;> rfl

lemma trace_call (op : Op) (k : Ans op → Prog Op Ans φ α) : trace h (call op k) s =
    match h op s with
    | (.ok a, s') => op :: trace h (k a) s'
    | (.error _, _) => [] := by
  rw [trace]

/-- An operation by itself is completed when it succeeds. -/
lemma trace_lift (op : Op) : trace h (lift op) s =
    match (h op s).1 with
    | .ok _ => [op]
    | .error _ => [] := by
  rw [lift, trace_call]
  rcases h op s with ⟨_ | _, s'⟩ <;> rfl

/-- **A sequence completes the operations of its first half, and when that succeeds those of
its second.** -/
lemma trace_bind : trace h (p >>= f) s = trace h p s ++
    match run h p s with
    | (.ok a, s') => trace h (f a) s'
    | (.error _, _) => [] := by
  induction p generalizing s with
  | pure a => rfl
  | fail e => rfl
  | call op k ih =>
      rw [call_bind, trace_call, trace_call, run_call]
      rcases h op s with ⟨e | a, s'⟩
      · rfl
      · exact congrArg (op :: ·) (ih a)

lemma trace_bind_ok {a : α} (hp : run h p s = (.ok a, s')) :
    trace h (p >>= f) s = trace h p s ++ trace h (f a) s' := by
  rw [trace_bind, hp]

lemma trace_bind_error {e : φ} (hp : run h p s = (.error e, s')) :
    trace h (p >>= f) s = trace h p s := by
  rw [trace_bind, hp, List.append_nil]

/-- What a run completes, the program may call. -/
lemma mem_trace {G : Op → Prop} {E : φ → Prop} {Q : α → Prop} (hp : Safe G E Q p) {op : Op}
    (hop : op ∈ trace h p s) : G op := by
  induction p generalizing s with
  | pure a => cases hop
  | fail e => cases hop
  | call op' k ih =>
      rw [trace_call] at hop
      rcases hstep : h op' s with ⟨e | a, s'⟩
      · rw [hstep] at hop
        cases hop
      · rw [hstep] at hop
        rcases List.mem_cons.mp hop with rfl | hmem
        · exact hp.1
        · exact ih a (hp.2 a) hmem

end Prog

/-! ### Power loss -/

/-- What a power loss may leave of the completed operations `done`: everything before the
last barrier, and any part of what came after it. -/
def Survives {Op : Type} (barrier : Op → Prop) (done kept : List Op) : Prop :=
  ∃ stable rest left : List Op, done = stable ++ rest ∧ (∀ op ∈ rest, ¬ barrier op) ∧
    (stable = [] ∨ ∃ op, stable.getLast? = some op ∧ barrier op) ∧ left.Sublist rest ∧
    kept = stable ++ left

namespace Survives

variable {Op : Type} {barrier : Op → Prop} {done kept : List Op}

/-- Only completed operations are left. -/
lemma sublist (h : Survives barrier done kept) : kept.Sublist done := by
  obtain ⟨stable, rest, left, rfl, -, -, hleft, rfl⟩ := h
  exact hleft.append_left stable

/-- **Everything up to a barrier is left.** -/
lemma prefix_of_barrier (h : Survives barrier done kept) {before after : List Op} {op : Op}
    (hdone : done = before ++ op :: after) (hop : barrier op) : before ++ [op] <+: kept := by
  obtain ⟨stable, rest, left, hsplit, hrest, -, -, rfl⟩ := h
  rw [hdone] at hsplit
  rcases List.append_eq_append_iff.mp hsplit with ⟨mid, hstable, hmid⟩ | ⟨mid, hbefore, hmid⟩
  · -- the barrier lies before the split, unless the rest begins with it
    cases mid with
    | nil =>
        have hmem : op ∈ rest := by
          rw [← List.nil_append rest, ← hmid]
          exact List.mem_cons_self
        exact absurd hop (hrest op hmem)
    | cons x mid =>
        obtain ⟨rfl, -⟩ := List.cons.inj hmid
        rw [hstable]
        exact ⟨mid ++ left, by simp⟩
  · -- the rest would hold the barrier
    have hmem : op ∈ rest := by
      rw [hmid]
      exact List.mem_append_right _ List.mem_cons_self
    exact absurd hop (hrest op hmem)

/-- All that came after the last barrier may be lost. -/
lemma exists_least (barrier : Op → Prop) (done : List Op) :
    ∃ stable lost, done = stable ++ lost ∧ (∀ op ∈ lost, ¬ barrier op) ∧
      Survives barrier done stable := by
  suffices h : ∃ stable lost, done = stable ++ lost ∧ (∀ op ∈ lost, ¬ barrier op) ∧
      (stable = [] ∨ ∃ op, stable.getLast? = some op ∧ barrier op) by
    obtain ⟨stable, lost, hsplit, hlost, hlast⟩ := h
    exact ⟨stable, lost, hsplit, hlost, stable, lost, [], hsplit, hlost, hlast,
      List.nil_sublist lost, (List.append_nil stable).symm⟩
  induction done using List.reverseRecOn with
  | nil => exact ⟨[], [], rfl, nofun, .inl rfl⟩
  | append_singleton l op ih =>
      by_cases hop : barrier op
      · exact ⟨l ++ [op], [], (List.append_nil _).symm, nofun,
          .inr ⟨op, List.getLast?_concat, hop⟩⟩
      · obtain ⟨stable, lost, rfl, hlost, hlast⟩ := ih
        refine ⟨stable, lost ++ [op], List.append_assoc _ _ _, fun op' hmem => ?_, hlast⟩
        rcases List.mem_append.mp hmem with hin | hin
        · exact hlost op' hin
        · rwa [List.mem_singleton.mp hin]

/-- With no barrier yet, nothing need be left. -/
lemma of_no_barrier (h : ∀ op ∈ done, ¬ barrier op) : Survives barrier done [] :=
  ⟨[], done, [], rfl, h, .inl rfl, List.nil_sublist _, rfl⟩

end Survives
