import Mathlib.Tactic

/-!
Shift registers over GF(2), on the natural numbers.

* `shift p`: one step of the register with the feedback `p`, reflected: the low bit goes out, and
  feeds `p` back.  `shift_xor`: it is linear.
* `feedBit p`: one step that takes a bit of the message in; `foldl_feedBit`: the bits taken in one
  at a time may be taken in at once.
* `iterate_shift_eq`: eight steps at once are an entry of a table and a shift.
-/

namespace Lfsr

variable {p a b c n k : ℕ} {bs : List Bool}

/-- One step of the register. -/
def shift (p c : ℕ) : ℕ := c >>> 1 ^^^ bif c.testBit 0 then p else 0

/-- One step that takes in a bit. -/
def feedBit (p c : ℕ) (bit : Bool) : ℕ := shift p (c ^^^ bit.toNat)

/-- The number whose bits are listed, low ones first. -/
def number (bs : List Bool) : ℕ := bs.foldr (fun bit n => Nat.bit bit n) 0

/-! ### Linearity -/

/-- **The register is linear.** -/
lemma shift_xor : shift p (a ^^^ b) = shift p a ^^^ shift p b := by
  have hfeed : (bif (a ^^^ b).testBit 0 then p else 0) =
      (bif a.testBit 0 then p else 0) ^^^ bif b.testBit 0 then p else 0 := by
    rw [Nat.testBit_xor]
    cases a.testBit 0 <;> cases b.testBit 0 <;> simp
  rw [shift, shift, shift, hfeed, Nat.shiftRight_xor_distrib]
  ac_rfl

lemma iterate_shift_xor : (shift p)^[k] (a ^^^ b) = (shift p)^[k] a ^^^ (shift p)^[k] b := by
  induction k generalizing a b with
  | zero => rfl
  | succ k ih => rw [Function.iterate_succ_apply, shift_xor, ih]; rfl

/-- An even number only moves down. -/
lemma shift_two_mul : shift p (2 * n) = n := by
  have hlow : (2 * n).testBit 0 = false := by simp
  rw [shift, hlow, cond_false, Nat.xor_zero, Nat.shiftRight_one]
  omega

lemma iterate_shift_two_pow_mul : (shift p)^[k] (2 ^ k * n) = n := by
  induction k with
  | zero => simp
  | succ k ih =>
      have hdouble : 2 ^ (k + 1) * n = 2 * (2 ^ k * n) := by ring
      rw [Function.iterate_succ_apply, hdouble, shift_two_mul, ih]

/-! ### Taking bits in -/

lemma number_cons {bit : Bool} : number (bit :: bs) = bit.toNat ^^^ 2 * number bs := by
  have hbit : ∀ n, Nat.bit bit n = bit.toNat ^^^ 2 * n := fun n => by
    refine Nat.eq_of_testBit_eq fun i => ?_
    rw [Nat.testBit_xor]
    cases i with
    | zero => cases bit <;> simp
    | succ i =>
        have hhalf : Nat.bit bit n / 2 = n := Nat.bit_div_two bit n
        rw [Nat.testBit_succ, Nat.testBit_succ, Nat.testBit_succ, hhalf,
          Nat.mul_div_cancel_left _ (by norm_num)]
        cases bit <;> simp
  exact hbit _

/-- **The bits may be taken in at once**, before the steps. -/
lemma foldl_feedBit : bs.foldl (feedBit p) c = (shift p)^[bs.length] (c ^^^ number bs) := by
  induction bs generalizing c with
  | nil => simp [number]
  | cons bit bs ih =>
      calc (bit :: bs).foldl (feedBit p) c
          = (shift p)^[bs.length] (shift p (c ^^^ bit.toNat) ^^^ number bs) := ih
        _ = (shift p)^[bs.length] (shift p (c ^^^ bit.toNat) ^^^ shift p (2 * number bs)) := by
            rw [shift_two_mul]
        _ = (shift p)^[bs.length] (shift p (c ^^^ number (bit :: bs))) := by
            rw [← shift_xor, number_cons, Nat.xor_assoc]

/-- The low bits of a number list it. -/
lemma number_testBit : number ((List.range k).map n.testBit) = n % 2 ^ k := by
  induction k generalizing n with
  | zero => simp [number, Nat.mod_one]
  | succ k ih =>
      have hhalf : (List.range k).map (fun i => n.testBit (i + 1)) =
          (List.range k).map (n / 2).testBit :=
        List.map_congr_left fun i _ => by rw [Nat.testBit_succ]
      calc number ((List.range (k + 1)).map n.testBit)
          = Nat.bit (n.testBit 0) (number ((List.range k).map fun i => n.testBit (i + 1))) := by
            rw [List.range_succ_eq_map, List.map_cons, List.map_map]
            rfl
        _ = Nat.bit (n.testBit 0) (n / 2 % 2 ^ k) := by rw [hhalf, ih]
        _ = n % 2 ^ (k + 1) := by
            rw [Nat.bit_val, Nat.testBit_zero, Nat.pow_succ', Nat.mod_mul]
            rcases Nat.mod_two_eq_zero_or_one n with h | h
            · simp [h]
            · simp [h]
              omega

/-! ### A table of the steps -/

/-- **Steps at once**: the low bits come from a table, the others move down. -/
lemma iterate_shift_eq : (shift p)^[k] c = (shift p)^[k] (c % 2 ^ k) ^^^ c >>> k := by
  have hsplit : c = c % 2 ^ k ^^^ 2 ^ k * (c / 2 ^ k) := by
    refine Nat.eq_of_testBit_eq fun i => ?_
    rw [Nat.testBit_xor, Nat.testBit_mod_two_pow, Nat.testBit_two_pow_mul, Nat.testBit_div_two_pow]
    rcases Nat.lt_or_ge i k with h | h
    · simp [h, Nat.not_le.2 h]
    · simp [Nat.not_lt.2 h, h]
  calc (shift p)^[k] c
      = (shift p)^[k] (c % 2 ^ k ^^^ 2 ^ k * (c / 2 ^ k)) := congrArg _ hsplit
    _ = (shift p)^[k] (c % 2 ^ k) ^^^ c >>> k := by
        rw [iterate_shift_xor, iterate_shift_two_pow_mul, Nat.shiftRight_eq_div_pow]

end Lfsr
