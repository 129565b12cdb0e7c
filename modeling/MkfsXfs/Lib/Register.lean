import Mathlib.Data.Nat.Bitwise
import Mathlib.Tactic

/-!
A register of `m` bytes that takes in data a byte at a time through a table, as a cyclic
redundancy check is computed.

* `Table`: 256 entries of `m` bytes whose top bytes differ.
* `Table.step`, `Table.run`: the register after one byte, and after a string of them.
* `run_injective`: for fixed data the register at the end tells the register at the start.
* `run_data_injective`: from a fixed register, at most `m` bytes are told by the register at
  the end.
* `run_window`: two strings that differ in at most `m` consecutive bytes lead to different
  registers.
-/

namespace Register

/-- The entries of a table for a register of `m` bytes: their top bytes are all different. -/
structure Table (m : ℕ) where
  entry : ℕ → ℕ
  pos : 0 < m
  entry_lt : ∀ i < 256, entry i < 2 ^ (8 * m)
  top_injective : ∀ i < 256, ∀ j < 256,
    entry i >>> (8 * (m - 1)) = entry j >>> (8 * (m - 1)) → i = j

namespace Table

variable {m : ℕ} (T : Table m)

/-- The register after a byte: its low byte and the data choose an entry, the rest moves
down. -/
def step (c b : ℕ) : ℕ := T.entry ((c ^^^ b) % 256) ^^^ (c >>> 8)

/-- The register after the data. -/
def run (c : ℕ) (data : List ℕ) : ℕ := data.foldl T.step c

@[simp] lemma run_nil (c : ℕ) : T.run c [] = c := rfl

@[simp] lemma run_cons (c b : ℕ) (data : List ℕ) :
    T.run c (b :: data) = T.run (T.step c b) data := rfl

lemma run_append (c : ℕ) (l l' : List ℕ) : T.run c (l ++ l') = T.run (T.run c l) l' :=
  List.foldl_append

variable {T} {c c' b b' k p n : ℕ} {l l' : List ℕ}

lemma step_lt (hc : c < 2 ^ (8 * m)) : T.step c b < 2 ^ (8 * m) := by
  refine Nat.xor_lt_two_pow (T.entry_lt _ (Nat.mod_lt _ (by norm_num))) ?_
  exact (Nat.shiftRight_le c 8).trans_lt hc

lemma run_lt (hc : c < 2 ^ (8 * m)) : T.run c l < 2 ^ (8 * m) := by
  induction l generalizing c with
  | nil => exact hc
  | cons b l ih => exact ih (step_lt hc)

/-- **The bytes of the register after a step tell which entry was chosen**, and all but the
lowest of those before it. -/
lemma step_shift (hc : c < 2 ^ (8 * m)) (hc' : c' < 2 ^ (8 * m)) (hk : k < m)
    (h : T.step c b >>> (8 * k) = T.step c' b' >>> (8 * k)) :
    (c ^^^ b) % 256 = (c' ^^^ b') % 256 ∧ c >>> (8 * (k + 1)) = c' >>> (8 * (k + 1)) := by
  have hm := T.pos
  have hzero : ∀ x < 2 ^ (8 * m), (x >>> 8) >>> (8 * (m - 1)) = 0 := fun x hx => by
    rw [← Nat.shiftRight_add, Nat.shiftRight_eq_div_pow]
    have hexp : 8 + 8 * (m - 1) = 8 * m := by omega
    rw [hexp, Nat.div_eq_of_lt hx]
  -- The top byte comes from the entry alone.
  have htop : ∀ x y, x < 2 ^ (8 * m) →
      T.step x y >>> (8 * (m - 1)) = T.entry ((x ^^^ y) % 256) >>> (8 * (m - 1)) := fun x y hx => by
    rw [step, Nat.shiftRight_xor_distrib, hzero x hx, Nat.xor_zero]
  have hup : T.step c b >>> (8 * (m - 1)) = T.step c' b' >>> (8 * (m - 1)) := by
    have hexp : 8 * (m - 1) = 8 * k + 8 * (m - 1 - k) := by omega
    rw [hexp, Nat.shiftRight_add, Nat.shiftRight_add, h]
  have hindex : (c ^^^ b) % 256 = (c' ^^^ b') % 256 := by
    rw [htop c b hc, htop c' b' hc'] at hup
    exact T.top_injective _ (Nat.mod_lt _ (by norm_num)) _ (Nat.mod_lt _ (by norm_num)) hup
  refine ⟨hindex, ?_⟩
  rw [step, step, Nat.shiftRight_xor_distrib, Nat.shiftRight_xor_distrib, hindex,
    Nat.xor_right_inj, ← Nat.shiftRight_add, ← Nat.shiftRight_add] at h
  have hexp : 8 * (k + 1) = 8 + 8 * k := by omega
  rw [hexp]
  exact h

/-- The chosen entry and the register tell the byte. -/
lemma byte_of_index (hb : b < 256) (hb' : b' < 256) (h : (c ^^^ b) % 256 = (c ^^^ b') % 256) :
    b = b' := by
  have hpow : (256 : ℕ) = 2 ^ 8 := by norm_num
  rw [hpow, Nat.xor_mod_two_pow, Nat.xor_mod_two_pow, Nat.xor_right_inj, ← hpow,
    Nat.mod_eq_of_lt hb, Nat.mod_eq_of_lt hb'] at h
  exact h

/-- The chosen entry and the byte tell the low byte of the register. -/
lemma low_of_index (h : (c ^^^ b) % 256 = (c' ^^^ b) % 256) : c % 256 = c' % 256 := by
  have hpow : (256 : ℕ) = 2 ^ 8 := by norm_num
  rw [hpow, Nat.xor_mod_two_pow, Nat.xor_mod_two_pow, Nat.xor_left_inj] at h
  exact h

/-- A step is one to one in the register. -/
lemma step_injective (hc : c < 2 ^ (8 * m)) (hc' : c' < 2 ^ (8 * m))
    (h : T.step c b = T.step c' b) : c = c' := by
  obtain ⟨hindex, hhigh⟩ := step_shift (k := 0) hc hc' T.pos (by rw [h])
  have hlow := low_of_index hindex
  rw [Nat.shiftRight_eq_div_pow, Nat.shiftRight_eq_div_pow] at hhigh
  norm_num at hhigh
  omega

/-- **For fixed data the register at the end tells the register at the start.** -/
theorem run_injective (hc : c < 2 ^ (8 * m)) (hc' : c' < 2 ^ (8 * m))
    (h : T.run c l = T.run c' l) : c = c' := by
  induction l generalizing c c' with
  | nil => exact h
  | cons b l ih => exact step_injective hc hc' (ih (step_lt hc) (step_lt hc') h)

/-- The bytes of the register that the data has not pushed out are told by those at the end,
and so is the data when both start the same. -/
lemma run_shift (hlen : l.length = l'.length) (hl : ∀ b ∈ l, b < 256) (hl' : ∀ b ∈ l', b < 256)
    (hc : c < 2 ^ (8 * m)) (hc' : c' < 2 ^ (8 * m)) (hk : k + l.length ≤ m)
    (h : T.run c l >>> (8 * k) = T.run c' l' >>> (8 * k)) :
    c >>> (8 * (k + l.length)) = c' >>> (8 * (k + l.length)) ∧ (c = c' → l = l') := by
  induction l generalizing l' c c' with
  | nil =>
      have hnil : l' = [] := List.length_eq_zero_iff.1 hlen.symm
      subst hnil
      exact ⟨h, fun _ => rfl⟩
  | cons b l ih =>
      obtain ⟨b', t, rfl⟩ : ∃ b' t, l' = b' :: t := by
        cases l' with
        | nil => cases hlen
        | cons b' t => exact ⟨b', t, rfl⟩
      rw [List.length_cons] at hk ⊢
      obtain ⟨hreg, hdata⟩ := ih (by simpa using hlen) (fun x hx => hl x (.tail _ hx))
        (fun x hx => hl' x (.tail _ hx)) (step_lt hc) (step_lt hc') (by omega) h
      obtain ⟨hindex, hhigh⟩ := step_shift hc hc' (by omega) hreg
      refine ⟨hhigh, fun heq => ?_⟩
      subst heq
      have hbyte : b = b' := byte_of_index (hl b (.head _)) (hl' b' (.head _)) hindex
      subst hbyte
      rw [hdata rfl]

/-- **From a fixed register at most `m` bytes are told by the register at the end.** -/
theorem run_data_injective (hlen : l.length = l'.length) (hl : ∀ b ∈ l, b < 256)
    (hl' : ∀ b ∈ l', b < 256) (hc : c < 2 ^ (8 * m)) (hm : l.length ≤ m)
    (h : T.run c l = T.run c l') : l = l' :=
  (run_shift (k := 0) hlen hl hl' hc hc (by omega) (by rw [h])).2 rfl

/-- **Two strings that differ in at most `m` consecutive bytes lead to different registers.** -/
theorem run_window (hlen : l.length = l'.length) (hl : ∀ b ∈ l, b < 256)
    (hl' : ∀ b ∈ l', b < 256) (hc : c < 2 ^ (8 * m)) (hm : n ≤ m)
    (hpre : l.take p = l'.take p) (hsuf : l.drop (p + n) = l'.drop (p + n))
    (h : T.run c l = T.run c l') : l = l' := by
  have hsplit : ∀ x : List ℕ, x = x.take p ++ ((x.drop p).take n ++ x.drop (p + n)) := fun x => by
    rw [← List.drop_drop, List.take_append_drop, List.take_append_drop]
  rw [hsplit l, hsplit l', hpre, hsuf, run_append, run_append, run_append, run_append] at h
  have hstart : T.run c (l'.take p) < 2 ^ (8 * m) := run_lt hc
  have hmid := run_injective (run_lt hstart) (run_lt hstart) h
  have hwindow : (l.drop p).take n = (l'.drop p).take n := by
    refine run_data_injective (by simp [hlen]) (fun b hb => ?_) (fun b hb => ?_) hstart ?_ hmid
    · exact hl b (List.mem_of_mem_drop (List.mem_of_mem_take hb))
    · exact hl' b (List.mem_of_mem_drop (List.mem_of_mem_take hb))
    · rw [List.length_take]
      omega
  rw [hsplit l, hsplit l', hpre, hsuf, hwindow]

end Table

end Register
