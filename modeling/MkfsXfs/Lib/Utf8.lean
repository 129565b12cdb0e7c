import Mathlib.Tactic

/-!
The bytes of a string.

* `toUTF8_toList`: they are those of its characters, one after the other.
* `zero_mem_utf8EncodeChar`, `zero_mem_toUTF8`: a zero byte stands for the NUL character only.
* `takeWhile_padded`: bytes without a zero are read back from a field padded with zeros.
-/

namespace Utf8

lemma byteArray_toList_loop (a : ByteArray) (i : ℕ) (r : List UInt8) :
    ByteArray.toList.loop a i r = r.reverse ++ a.data.toList.drop i := by
  induction hk : a.size - i generalizing i r with
  | zero =>
      have hlen : a.data.toList.length = a.size := rfl
      rw [ByteArray.toList.loop, if_neg (by omega), List.drop_eq_nil_of_le (by omega),
        List.append_nil]
  | succ k ih =>
      have hi : i < a.data.toList.length := by
        have hlen : a.data.toList.length = a.size := rfl
        omega
      have hget : a.get! i = a.data.toList[i] := by
        have hi' : i < a.data.size := hi
        rw [ByteArray.get!, getElem!_pos a.data i hi', Array.getElem_toList]
      rw [ByteArray.toList.loop, if_pos (by omega), ih (i + 1) _ (by omega), hget,
        List.reverse_cons, List.append_assoc, List.singleton_append, List.cons_getElem_drop_succ]

lemma byteArray_toList (a : ByteArray) : a.toList = a.data.toList := by
  rw [ByteArray.toList, byteArray_toList_loop, List.reverse_nil, List.nil_append, List.drop_zero]

/-- The bytes of a string are those of its characters. -/
theorem toUTF8_toList (s : String) :
    s.toUTF8.toList = s.toList.flatMap String.utf8EncodeChar := by
  rw [byteArray_toList, String.toUTF8_eq_toByteArray, ← String.utf8Encode_toList, List.utf8Encode,
    List.data_toByteArray]

/-- A byte of a character is zero for NUL alone. -/
lemma zero_mem_utf8EncodeChar {c : Char} : 0 ∈ String.utf8EncodeChar c ↔ c = '\x00' := by
  constructor
  · intro h
    have hbyte : ∀ n, (0 : UInt8) = UInt8.ofNat n → n % 256 = 0 := fun n hn => by
      have hnat := congrArg UInt8.toNat hn
      rw [UInt8.toNat_ofNat'] at hnat
      exact hnat.symm
    rw [String.utf8EncodeChar] at h
    split_ifs at h with h₁ h₂ h₃
    · have hzero := hbyte _ (List.mem_singleton.mp h)
      refine Char.ext (UInt32.toNat_inj.mp ?_)
      change c.val.toNat = 0
      omega
    · -- Every byte of a longer form has its high bit set.
      simp only [List.mem_cons, List.not_mem_nil, or_false] at h
      rcases h with h | h <;> have := hbyte _ h <;> omega
    · simp only [List.mem_cons, List.not_mem_nil, or_false] at h
      rcases h with h | h | h <;> have := hbyte _ h <;> omega
    · simp only [List.mem_cons, List.not_mem_nil, or_false] at h
      rcases h with h | h | h | h <;> have := hbyte _ h <;> omega
  · rintro rfl
    decide

/-- **A zero byte is a NUL.** -/
theorem zero_mem_toUTF8 {s : String} : 0 ∈ s.toUTF8.toList ↔ '\x00' ∈ s.toList := by
  rw [toUTF8_toList, List.mem_flatMap]
  constructor
  · rintro ⟨c, hc, hzero⟩
    rwa [← zero_mem_utf8EncodeChar.mp hzero]
  · intro h
    exact ⟨_, h, zero_mem_utf8EncodeChar.mpr rfl⟩

/-- Bytes without a zero, read back up to the first zero of their padding. -/
lemma takeWhile_padded {b : List UInt8} {n : ℕ} (h : 0 ∉ b) :
    (b ++ List.replicate n 0).takeWhile (fun x => decide (x ≠ 0)) = b := by
  have hb : ∀ x ∈ b, decide (x ≠ 0) = true := fun x hx =>
    decide_eq_true fun hzero => h (hzero ▸ hx)
  rw [List.takeWhile_append_of_pos hb]
  cases n with
  | zero => simp
  | succ n => simp [List.replicate_succ]

end Utf8
