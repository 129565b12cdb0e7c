import MkfsXfs.Completed
import MkfsXfs.Lib.Rely
import MkfsXfs.MemDevice

/-!
Operations that are whole blocks, and what the devices do with the bytes they hold.

* `DevOp.Whole`: an operation on whole blocks, on the device.
* `Serves`: a device that fails an operation or does it.  `Device.serves`, `MemDevice.serves`:
  the disk does, and so does the device held in memory.
* `MemDevice.admits_of_whole`: whole blocks pass the checks of a strict device.
-/

namespace MkfsXfs

open Checked

lemma dvd_min {k m n : ℕ} (hm : k ∣ m) (hn : k ∣ n) : k ∣ min m n := by
  rcases min_choice m n with heq | heq
  · rwa [heq]
  · rwa [heq]

/-- The operation is about whole blocks of `bs` bytes, on a device of `size` bytes. -/
structure DevOp.Whole (bs size : ℕ) (op : DevOp) : Prop where
  offset : bs ∣ op.offset
  len : bs ∣ op.len
  inside : op.offset + op.len ≤ size

lemma DevOp.whole_flush (bs size : ℕ) : DevOp.flush.Whole bs size :=
  ⟨dvd_zero _, dvd_zero _, Nat.zero_le _⟩

/-- What a device that answers by `h` does with the bytes it holds: a failed operation leaves
them, one that is done reads or writes what it says. -/
structure Serves {σ : Type} (h : (op : DevOp) → σ → Exec op.Ans × σ) (bytes : σ → ℕ → UInt8) :
    Prop where
  failed : ∀ op s e, (h op s).1 = .error e → bytes (h op s).2 = bytes s
  kept : ∀ op s a i, (h op s).1 = .ok a → ¬ op.Touches i → bytes (h op s).2 i = bytes s i
  wrote : ∀ off buf s a i, (h (.writeAt off buf) s).1 = .ok a → off ≤ i → i < off + buf.length →
    bytes (h (.writeAt off buf) s).2 i = byteAt buf (i - off)
  read : ∀ off n s b i, (h (.readAt off n) s).1 = .ok b → i < n → byteAt b.1 i = bytes s (off + i)

/-- **The disk serves**, whatever fails on it. -/
lemma Device.serves (dev : Device) : Serves dev.step Disk.bytes where
  failed op d e he := by
    rw [step] at he ⊢
    split_ifs at he ⊢
    · rfl
    · rfl
  kept op d a i _ hi := (step_untouched dev d hi).1
  wrote off buf d a i ha hlo hhi := by
    rw [step] at ha ⊢
    split_ifs at ha ⊢
    · exact Disk.bytes_put_of_mem hlo hhi
  read off n d b i hb hi := by
    rw [step] at hb
    split_ifs at hb
    · rw [← Except.ok.inj hb]
      exact Disk.byteAt_readBuf hi

namespace MemDevice

variable {dev : MemDevice} {m : Chunks} {op : DevOp} {bs : ℕ}

/-- What a call answers comes from its checks, and what it leaves from the chunks. -/
lemma step_cases (dev : MemDevice) (op : DevOp) (m : Chunks) :
    (∃ e, dev.step op m = (.error e, m) ∧
      (dev.checkCall op.offset op.len = .error e ∨ e = .panic)) ∨
    ∃ a m', dev.step op m = (.ok a, m') ∧ ∀ i, ¬ op.Touches i → m'.byte i = m.byte i := by
  cases op with
  | readAt off n =>
      rw [step]
      rcases hc : dev.checkCall off n with e | u
      · exact .inl ⟨e, rfl, .inl hc⟩
      · exact .inr ⟨_, m, rfl, fun _ _ => rfl⟩
  | writeAt off buf =>
      rw [step]
      rcases hc : dev.checkCall off buf.length with e | u
      · exact .inl ⟨e, rfl, .inl hc⟩
      · refine .inr ⟨_, _, rfl, fun i hi => ?_⟩
        rw [Chunks.byte_copyIn]
        exact if_neg hi
  | writeZeroes off n =>
      rw [step]
      rcases hc : dev.checkCall off n with e | u
      · exact .inl ⟨e, rfl, .inl hc⟩
      · rcases Chunks.zeroRange_cases m off n with hz | ⟨m', hz, hkept⟩
        · rw [hz]
          exact .inl ⟨.panic, rfl, .inr rfl⟩
        · rw [hz]
          exact .inr ⟨_, m', rfl, hkept⟩
  | flush => exact .inr ⟨(), m, rfl, fun _ _ => rfl⟩

/-- **So does the device held in memory.** -/
lemma serves (dev : MemDevice) : Serves dev.step Chunks.byte where
  failed op m e he := by
    rcases step_cases dev op m with ⟨e', h, -⟩ | ⟨a, m', h, -⟩
    · rw [h]
    · rw [h] at he
      cases he
  kept op m a i ha hi := by
    rcases step_cases dev op m with ⟨e', h, -⟩ | ⟨a, m', h, hkept⟩
    · rw [h]
    · rw [h]
      exact hkept i hi
  wrote off buf m a i ha hlo hhi := by
    rw [step] at ha ⊢
    rcases hc : dev.checkCall off buf.length with e | u
    · rw [hc] at ha
      cases ha
    · dsimp only
      rw [Chunks.byte_copyIn, if_pos ⟨hlo, hhi⟩]
  read off n m b i hb hi := by
    rw [step] at hb
    rcases hc : dev.checkCall off n with e | u
    · rw [hc] at hb
      cases hb
    · rw [hc] at hb
      rw [← Except.ok.inj hb]
      exact Chunks.byteAt_copyOut hi

/-- A call that the checks admit only fails by a panic. -/
lemma error_of_admits (hpos : 0 < dev.logical) (h : dev.Admits op.offset op.len) {e : Fault Error}
    (he : (dev.step op m).1 = .error e) : e = .panic := by
  rcases step_cases dev op m with ⟨e', hrun, hcases⟩ | ⟨a, m', hrun, -⟩
  · obtain rfl : e' = e := Except.error.inj ((congrArg Prod.fst hrun).symm.trans he)
    rcases hcases with hc | hpanic
    · cases (checkCall_of_admits hpos h).symm.trans hc
    · exact hpanic
  · cases (congrArg Prod.fst hrun).symm.trans he

/-- Whole blocks pass the checks, when a block is whole sectors. -/
lemma admits_of_whole (hdvd : dev.logical ∣ bs) (h : op.Whole bs dev.size) :
    dev.Admits op.offset op.len :=
  ⟨h.inside, fun _ => ⟨hdvd.trans h.offset, hdvd.trans h.len⟩⟩

end MemDevice

end MkfsXfs
