import MkfsXfs.MemDevice

/-!
What the device in memory holds memory for (`nonzero_chunks` and `resident` in `src/device.rs`).

* `MemDevice.nonzeroChunks`, `MemDevice.resident`: what it tells of its chunks.
* `DevOp.Fills`, `DevOp.Covers`: operations that need memory for a chunk, and that can free it.
  `MemDevice.held_step`: which chunks an operation leaves in memory.
* `MemDevice.held_after`: a chunk is in memory exactly when it was filled and not covered since.
* `MemDevice.resident_after`: how much memory that is.
* `MemDevice.nonzeroChunks_after`: the chunks it lists are those of the flat array that are not
  all zeroes.
-/

namespace MkfsXfs

open Checked

/-- The operation writes a byte other than zero in chunk `idx`. -/
def DevOp.Fills : DevOp → ℕ → Prop
  | .writeAt off buf, idx => ∃ a, a / memChunk = idx ∧ off ≤ a ∧ a < off + buf.length ∧
      byteAt buf (a - off) ≠ 0
  | _, _ => False

/-- The operation writes or zeroes all of chunk `idx`. -/
def DevOp.Covers (op : DevOp) (idx : ℕ) : Prop := ∀ a, a / memChunk = idx → op.Touches a

namespace Chunks

variable {m : Chunks} {idx i within pos : ℕ} {src buf : Buf}

/-- A piece that is not all zeroes has a byte that is not. -/
lemma all_zero_iff : src.all (· == 0) = true ↔ ∀ k < src.length, byteAt src k = 0 := by
  rw [List.all_eq_true]
  refine ⟨fun h k hk => ?_, fun h b hb => ?_⟩
  · rw [byteAt, List.getElem?_eq_getElem hk]
    exact eq_of_beq (h _ (List.getElem_mem hk))
  · obtain ⟨k, hk, rfl⟩ := List.getElem_of_mem hb
    have hzero := h k hk
    rw [byteAt, List.getElem?_eq_getElem hk] at hzero
    exact beq_iff_eq.2 hzero

/-- **A piece leaves its chunk in memory** when it has a byte other than zero, or when the chunk
was and the piece is not all of it. -/
lemma isSome_putPiece : (m.putPiece idx within src i).isSome = true ↔
    (i = idx ∧ ∃ k < src.length, byteAt src k ≠ 0) ∨
      ((m i).isSome = true ∧ ¬ (i = idx ∧ src.length = memChunk)) := by
  rw [putPiece]
  by_cases hi : i = idx
  · subst hi
    split_ifs with hzero hwhole
    · -- The chunk is dropped.
      have hbytes : ∀ k < memChunk, byteAt src k = 0 := hwhole ▸ all_zero_iff.1 hzero
      rw [remove, Function.update_self]
      simpa [hwhole] using hbytes
    · have hbytes := all_zero_iff.1 hzero
      cases hm : m i with
      | none => simpa [hm] using hbytes
      | some c => simp [insert, hwhole]
    · have hbyte : ∃ k < src.length, byteAt src k ≠ 0 := by
        rw [all_zero_iff] at hzero
        simpa using hzero
      rw [insert, Function.update_self]
      simp [hbyte]
  · have hother : m.putPiece idx within src i = m i := by
      rw [putPiece]
      split_ifs
      · exact Function.update_of_ne hi _ _
      · cases m idx with
        | none => rfl
        | some c => exact Function.update_of_ne hi _ _
      · exact Function.update_of_ne hi _ _
    rw [putPiece] at hother
    rw [hother]
    simp [hi]

section Piece

variable {n : ℕ} (hn : 0 < n) (hmin : n = min buf.length (memChunk - pos % memChunk))

include hmin

/-- The first piece lies in its chunk. -/
lemma piece_in_chunk {a : ℕ} (hlo : pos ≤ a) (hhi : a < pos + n) :
    a / memChunk = pos / memChunk := by
  have hc : memChunk = 65536 := rfl
  rw [hc] at hmin ⊢
  omega

/-- What is left of that chunk is past the end. -/
lemma piece_to_end {a : ℕ} (ha : a / memChunk = pos / memChunk) (hge : pos + n ≤ a) :
    n = buf.length := by
  have hc : memChunk = 65536 := rfl
  rw [hc] at hmin ha
  omega

/-- In its chunk the first piece is all that is written. -/
lemma fills_piece : (DevOp.writeAt pos buf).Fills (pos / memChunk) ↔
    ∃ k < n, byteAt (buf.take n) k ≠ 0 := by
  have hle : n ≤ buf.length := hmin.trans_le (Nat.min_le_left _ _)
  constructor
  · rintro ⟨a, ha, hlo, hhi, hne⟩
    rcases Nat.lt_or_ge a (pos + n) with hlt | hge
    · exact ⟨a - pos, by omega, by rwa [byteAt_take (by omega)]⟩
    · have := piece_to_end hmin ha hge
      omega
  · rintro ⟨k, hk, hne⟩
    rw [byteAt_take hk] at hne
    exact ⟨pos + k, piece_in_chunk hmin (by omega) (by omega), by omega, by omega,
      by rwa [Nat.add_sub_cancel_left]⟩

lemma covers_piece : (DevOp.writeAt pos buf).Covers (pos / memChunk) ↔ n = memChunk := by
  have hc : memChunk = 65536 := rfl
  refine ⟨fun h => ?_, fun h a ha => ⟨?_, ?_⟩⟩
  · obtain ⟨hlo, -⟩ := h (pos / memChunk * memChunk) (Nat.mul_div_cancel _ (by decide))
    obtain ⟨-, hhi⟩ := h (pos / memChunk * memChunk + (memChunk - 1)) (by rw [hc]; omega)
    rw [hc] at hmin hlo hhi ⊢
    omega
  · rw [hc] at hmin h ha
    omega
  · rw [hc] at hmin h ha
    omega

include hn

/-- What follows it does not reach its chunk. -/
lemma rest_of_piece : ¬ (DevOp.writeAt (pos + n) (buf.drop n)).Fills (pos / memChunk) ∧
    ¬ (DevOp.writeAt (pos + n) (buf.drop n)).Covers (pos / memChunk) := by
  refine ⟨?_, fun h => ?_⟩
  · rintro ⟨a, ha, hlo, hhi, -⟩
    rw [List.length_drop] at hhi
    have := piece_to_end hmin ha hlo
    omega
  · have := (h _ (Nat.mul_div_cancel (pos / memChunk) (by decide))).1
    have := Nat.div_mul_le_self pos memChunk
    omega

omit hn in
/-- The other chunks see what follows it. -/
lemma rest_elsewhere (hi : i ≠ pos / memChunk) :
    ((DevOp.writeAt (pos + n) (buf.drop n)).Fills i ↔ (DevOp.writeAt pos buf).Fills i) ∧
    ((DevOp.writeAt (pos + n) (buf.drop n)).Covers i ↔ (DevOp.writeAt pos buf).Covers i) := by
  have htouch : ∀ a, a / memChunk = i → ((pos + n ≤ a ∧ a < pos + n + (buf.drop n).length) ↔
      (pos ≤ a ∧ a < pos + buf.length)) := fun a ha => by
    rw [List.length_drop]
    have hne : ¬ (pos ≤ a ∧ a < pos + n) := fun hand =>
      hi (ha ▸ piece_in_chunk hmin hand.1 hand.2)
    omega
  refine ⟨exists_congr fun a => and_congr_right fun ha => ?_, forall₂_congr htouch⟩
  rw [← and_assoc, ← and_assoc, htouch a ha]
  refine and_congr_right fun hand => ?_
  have hge := ((htouch a ha).2 hand).1
  have hoff : n + (a - (pos + n)) = a - pos := by omega
  rw [byteAt_drop, hoff]

end Piece

/-- **What is written needs memory** where it is not zero, and frees it where it is a whole chunk
of zeroes. -/
lemma isSome_copyIn : (m.copyIn pos buf i).isSome = true ↔
    (DevOp.writeAt pos buf).Fills i ∨
      ((m i).isSome = true ∧ ¬ (DevOp.writeAt pos buf).Covers i) := by
  induction m, pos, buf using copyIn.induct with
  | case1 m pos buf hpos idx within n ih =>
      have hmin : n = min buf.length (memChunk - pos % memChunk) := rfl
      have hn : 0 < n := piece_pos pos hpos
      have htake : (buf.take n).length = n := by
        rw [List.length_take]
        exact Nat.min_eq_left (Nat.min_le_left _ _)
      rw [copyIn, dif_pos hpos, ih, isSome_putPiece, htake]
      by_cases hi : i = idx
      · obtain ⟨hfills, hcovers⟩ : ¬ (DevOp.writeAt (pos + n) (buf.drop n)).Fills idx ∧
            ¬ (DevOp.writeAt (pos + n) (buf.drop n)).Covers idx := rest_of_piece hn hmin
        rw [hi, fills_piece hmin, covers_piece hmin]
        simp [hfills, hcovers]
      · obtain ⟨hfills, hcovers⟩ := rest_elsewhere hmin hi
        rw [hfills, hcovers]
        simp [hi]
  | case2 m pos buf hpos =>
      have hempty : buf.length = 0 := by omega
      have hfills : ¬ (DevOp.writeAt pos buf).Fills i := by
        rintro ⟨a, -, hlo, hhi, -⟩
        omega
      have hcovers : ¬ (DevOp.writeAt pos buf).Covers i := fun h => by
        obtain ⟨hlo, hhi⟩ := h (i * memChunk) (Nat.mul_div_cancel _ (by decide))
        omega
      rw [copyIn, dif_neg hpos]
      simp [hfills, hcovers]

lemma nodup_keys {first last : ℕ} : (m.keys first last).Nodup :=
  List.Nodup.filter _ List.nodup_range'

/-! ### Zeroing -/

/-- A chunk that a range covers is dropped, and the others stay. -/
lemma isSome_zeroChunk {offset stop : ℕ} (hword : (idx + 1) * memChunk < 2 ^ 64)
    (hlo : offset < (idx + 1) * memChunk) {m' : Chunks}
    (hrun : zeroChunk offset stop m idx = .ok m') : (m' i).isSome = true ↔
      (m i).isSome = true ∧
        ¬ (i = idx ∧ offset ≤ idx * memChunk ∧ (idx + 1) * memChunk ≤ stop) := by
  have hnext : (idx + 1) * memChunk = idx * memChunk + memChunk := Nat.succ_mul idx memChunk
  have hstart : idx * memChunk < 2 ^ 64 := by omega
  rw [zeroChunk, fit_of_lt hstart, ok_bind, fit_of_lt hword, ok_bind] at hrun
  dsimp only at hrun
  split_ifs at hrun with hwhole
  · -- The whole chunk is dropped.
    rw [← Except.ok.inj hrun, remove]
    have hcover : offset ≤ idx * memChunk ∧ (idx + 1) * memChunk ≤ stop := by omega
    by_cases hi : i = idx
    · rw [hi, Function.update_self]
      simp [hcover]
    · rw [Function.update_of_ne hi]
      simp [hi]
  · have hpart : ¬ (offset ≤ idx * memChunk ∧ (idx + 1) * memChunk ≤ stop) := by omega
    rw [iff_comm, and_iff_left fun hand => hpart hand.2]
    cases hm : m idx with
    | none =>
        rw [hm] at hrun
        rw [← Except.ok.inj hrun]
    | some c =>
        rw [hm] at hrun
        dsimp only at hrun
        obtain ⟨lo, -, hrun⟩ := bind_eq_ok.mp hrun
        obtain ⟨hi, -, hrun⟩ := bind_eq_ok.mp hrun
        obtain ⟨c', -, hrun⟩ := bind_eq_ok.mp hrun
        rw [← Except.ok.inj hrun, insert]
        by_cases heq : i = idx
        · rw [heq, Function.update_self, hm]
          rfl
        · rw [Function.update_of_ne heq]

/-- So in the chunks of a list. -/
lemma isSome_zeroChunks {offset stop : ℕ} {ks : List ℕ}
    (hks : ∀ k ∈ ks, (k + 1) * memChunk < 2 ^ 64 ∧ offset < (k + 1) * memChunk)
    {m' : Chunks} (hrun : ks.foldlM (zeroChunk offset stop) m = .ok m') :
    (m' i).isSome = true ↔ (m i).isSome = true ∧
      ¬ (i ∈ ks ∧ offset ≤ i * memChunk ∧ (i + 1) * memChunk ≤ stop) := by
  induction ks generalizing m with
  | nil =>
      rw [← Except.ok.inj hrun]
      simp
  | cons k ks ih =>
      obtain ⟨hword, hlo⟩ := hks k List.mem_cons_self
      rw [List.foldlM_cons] at hrun
      obtain ⟨m₁, hfirst, hrest⟩ := bind_eq_ok.mp hrun
      rw [ih (fun k' hk' => hks k' (List.mem_cons_of_mem k hk')) hrest,
        isSome_zeroChunk hword hlo hfirst, List.mem_cons]
      constructor
      · rintro ⟨⟨hsome, hk⟩, hin⟩
        refine ⟨hsome, ?_⟩
        rintro ⟨rfl | hmem, hcover⟩
        · exact hk ⟨rfl, hcover⟩
        · exact hin ⟨hmem, hcover⟩
      · rintro ⟨hsome, hnot⟩
        refine ⟨⟨hsome, ?_⟩, fun hand => hnot ⟨.inr hand.1, hand.2⟩⟩
        rintro ⟨rfl, hcover⟩
        exact hnot ⟨.inl rfl, hcover⟩

/-- **What is zeroed frees the chunks it covers**, and needs no memory. -/
lemma isSome_zeroRange {offset len : ℕ} (h : offset + len ≤ 2 ^ 64 - memChunk) {m' : Chunks}
    (hrun : m.zeroRange offset len = .ok m') : (m' i).isSome = true ↔
      (m i).isSome = true ∧ ¬ (DevOp.writeZeroes offset len).Covers i := by
  have hc : memChunk = 65536 := rfl
  have hks : ∀ k ∈ m.keys (offset / memChunk) (divCeil (offset + len) memChunk),
      (k + 1) * memChunk < 2 ^ 64 ∧ offset < (k + 1) * memChunk := fun k hk => by
      have := key_bounds hk
      rw [hc] at h this ⊢
      omega
  have hfit : (fit 64 (offset + len) : Exec ℕ) = .ok (offset + len) := fit_of_lt (by omega)
  rw [zeroRange, hfit, ok_bind] at hrun
  rw [isSome_zeroChunks hks hrun]
  refine and_congr_right fun hsome => not_congr ⟨?_, fun hcover => ?_⟩
  · rintro ⟨-, hlo, hhi⟩ a ha
    rw [hc] at hlo hhi ha
    exact ⟨by omega, by omega⟩
  · obtain ⟨hlo, -⟩ := hcover (i * memChunk) (Nat.mul_div_cancel _ (by decide))
    obtain ⟨-, hhi⟩ := hcover (i * memChunk + (memChunk - 1)) (by rw [hc]; omega)
    rw [mem_keys, divCeil]
    refine ⟨⟨?_, ?_, hsome⟩, hlo, ?_⟩
    all_goals
      rw [hc] at hlo hhi ⊢
      omega

end Chunks

/-! ### What the device tells -/

namespace MemDevice

/-- The number of chunks that hold bytes of the device. -/
def chunkCount (dev : MemDevice) : ℕ := divCeil dev.size memChunk

/-- Every chunk holding a non-zero byte, as its byte offset and its contents. -/
def nonzeroChunks (dev : MemDevice) (m : Chunks) : List (ℕ × Buf) :=
  (m.keys 0 dev.chunkCount).filterMap fun idx =>
    match m idx with
    | some c => if c.1.any (· != 0) then some (idx * memChunk, c.1) else none
    | none => none

/-- Bytes of memory the device holds. -/
def resident (dev : MemDevice) (m : Chunks) : ℕ := (m.keys 0 dev.chunkCount).length * memChunk

/-- After the calls `ops` the chunk is in memory: one filled it, and none covered it since. -/
def Kept (dev : MemDevice) (ops : List DevOp) (idx : ℕ) : Prop :=
  ∃ pre op post, ops = pre ++ op :: post ∧ dev.Admits op.offset op.len ∧ op.Fills idx ∧
    ∀ op' ∈ post, dev.Admits op'.offset op'.len → ¬ op'.Covers idx

section Held

variable {dev : MemDevice} {m : Chunks} {idx : ℕ} {op : DevOp} {ops : List DevOp}

/-- What fills a chunk of an admitted call is a chunk of the device. -/
lemma lt_of_fills (hop : dev.Admits op.offset op.len) (h : op.Fills idx) :
    idx < dev.chunkCount := by
  cases op with
  | writeAt off buf =>
      obtain ⟨a, rfl, -, hhi, -⟩ := h
      have hroom : off + buf.length ≤ dev.size := hop.1
      have hc : memChunk = 65536 := rfl
      rw [chunkCount, divCeil, hc]
      omega
  | readAt off n => exact h.elim
  | writeZeroes off n => exact h.elim
  | flush => exact h.elim

variable (hpos : 0 < dev.logical) (hreach : dev.reach ≤ 2 ^ 64 - memChunk)

include hpos hreach

/-- **Which chunks a call leaves in memory**: those it fills, and those that were and that it does
not cover. -/
lemma held_step (op : DevOp) : ((dev.step op m).2 idx).isSome = true ↔
    (dev.Admits op.offset op.len ∧ op.Fills idx) ∨
      ((m idx).isSome = true ∧ ¬ (dev.Admits op.offset op.len ∧ op.Covers idx)) := by
  by_cases hadmits : dev.Admits op.offset op.len
  · have hadmit := checkCall_of_admits hpos hadmits
    simp only [hadmits, true_and]
    cases op with
    | readAt off len =>
        have hok : dev.checkCall off len = .ok () := hadmit
        have hcover : ¬ (DevOp.readAt off len).Covers idx := fun h =>
          h (idx * memChunk) (Nat.mul_div_cancel _ (by decide))
        have hfill : ¬ (DevOp.readAt off len).Fills idx := id
        rw [step, hok]
        simp [hcover, hfill]
    | writeAt off buf =>
        have hok : dev.checkCall off buf.length = .ok () := hadmit
        rw [step, hok]
        exact Chunks.isSome_copyIn
    | writeZeroes off len =>
        have hroom : off + len ≤ 2 ^ 64 - memChunk := hadmits.le_reach.trans hreach
        obtain ⟨m', hrun, -⟩ := Chunks.zeroRange_spec (m := m) hroom
        have hok : dev.checkCall off len = .ok () := hadmit
        have hfill : ¬ (DevOp.writeZeroes off len).Fills idx := id
        rw [step, hok, hrun, or_iff_right hfill]
        exact Chunks.isSome_zeroRange hroom hrun
    | flush =>
        have hcover : ¬ DevOp.flush.Covers idx := fun h =>
          h (idx * memChunk) (Nat.mul_div_cancel _ (by decide))
        have hfill : ¬ DevOp.flush.Fills idx := id
        rw [step]
        simp [hcover, hfill]
  · obtain ⟨e, hrefused, -⟩ := flatStep_of_not_admits (d := Disk.blank) hpos hadmits
    have hflush : op ≠ .flush := fun heq => by
      subst heq
      exact hadmits ⟨Nat.zero_le _, fun _ => ⟨dvd_zero _, dvd_zero _⟩⟩
    rw [step_of_refused hflush hrefused]
    simp [hadmits]

/-- **A chunk is in memory exactly when it was filled and not covered since.** -/
lemma held_after : (dev.after Chunks.empty ops idx).isSome = true ↔ dev.Kept ops idx := by
  induction ops using List.reverseRecOn with
  | nil =>
      refine iff_of_false nofun ?_
      rintro ⟨pre, op, post, hops, -⟩
      simp at hops
  | append_singleton ops op ih =>
      have hafter : dev.after Chunks.empty (ops ++ [op]) =
          (dev.step op (dev.after Chunks.empty ops)).2 := by
        rw [after, List.foldl_append]
        rfl
      rw [hafter, held_step hpos hreach, ih]
      constructor
      · rintro (⟨hadmits, hfill⟩ | ⟨⟨pre, op', post, rfl, hadmits, hfill, hpost⟩, hnot⟩)
        · exact ⟨ops, op, [], rfl, hadmits, hfill, fun _ h => absurd h List.not_mem_nil⟩
        · refine ⟨pre, op', post ++ [op], by simp, hadmits, hfill, fun o ho hadm => ?_⟩
          rcases List.mem_append.mp ho with hin | hlast
          · exact hpost o hin hadm
          · rw [List.mem_singleton.mp hlast] at hadm ⊢
            exact fun hcover => hnot ⟨hadm, hcover⟩
      · rintro ⟨pre, op', post, hops, hadmits, hfill, hpost⟩
        rcases List.eq_nil_or_concat post with rfl | ⟨post, last, rfl⟩
        · obtain ⟨rfl, hop⟩ := List.append_inj' hops rfl
          obtain rfl : op = op' := by simpa using hop
          exact .inl ⟨hadmits, hfill⟩
        · rw [List.concat_eq_append, ← List.cons_append, ← List.append_assoc] at hops
          obtain ⟨rfl, hop⟩ := List.append_inj' hops rfl
          obtain rfl : op = last := by simpa using hop
          rw [List.concat_eq_append] at hpost
          exact .inr ⟨⟨pre, op', post, rfl, hadmits, hfill, fun o ho =>
            hpost o (List.mem_append_left _ ho)⟩, fun hand =>
            hpost op (List.mem_append_right _ (List.mem_singleton_self _)) hand.1 hand.2⟩

/-- A chunk in memory is a chunk of the device. -/
lemma lt_of_held (h : (dev.after Chunks.empty ops idx).isSome = true) : idx < dev.chunkCount := by
  obtain ⟨pre, op, post, -, hadmits, hfill, -⟩ := (held_after hpos hreach).mp h
  exact lt_of_fills hadmits hfill

end Held

lemma pebibyte_lt : 2 ^ 50 < 2 ^ 64 := by norm_num

/-- A strict device of a pebibyte. -/
def pebibyte : MemDevice := ⟨2 ^ 50, 4096, true, pebibyte_lt⟩

lemma pebibyte_logical : 0 < pebibyte.logical := by norm_num [pebibyte]

lemma pebibyte_reach : pebibyte.reach ≤ 2 ^ 64 - memChunk := by
  norm_num [pebibyte, reach, memChunk]

/-- **The memory it holds is that of the chunks filled and not covered since.** -/
theorem resident_after (dev : MemDevice) (hpos : 0 < dev.logical)
    (hreach : dev.reach ≤ 2 ^ 64 - memChunk) (ops : List DevOp) :
    dev.resident (dev.after Chunks.empty ops) = {idx | dev.Kept ops idx}.ncard * memChunk := by
  have hset : {idx | dev.Kept ops idx} =
      (((dev.after Chunks.empty ops).keys 0 dev.chunkCount).toFinset : Set ℕ) := by
    ext idx
    rw [Set.mem_ofPred_eq, ← held_after hpos hreach, List.coe_toFinset, Set.mem_ofPred_eq,
      Chunks.mem_keys]
    exact ⟨fun h => ⟨Nat.zero_le _, lt_of_held hpos hreach h, h⟩, fun h => h.2.2⟩
  rw [resident, hset, Set.ncard_coe_finset, List.toFinset_card_of_nodup Chunks.nodup_keys]

/-- A pebibyte with one sector written. -/
theorem resident_pebibyte :
    pebibyte.resident (pebibyte.after Chunks.empty [.writeAt 0 (List.replicate 4096 7)]) =
      {idx | pebibyte.Kept [.writeAt 0 (List.replicate 4096 7)] idx}.ncard * memChunk :=
  resident_after pebibyte pebibyte_logical pebibyte_reach [.writeAt 0 (List.replicate 4096 7)]

/-! ### The chunks it lists -/

/-- The chunks of a flat array that are not all zeroes. -/
def flatChunks (dev : MemDevice) (d : Disk) : List (ℕ × Buf) :=
  ((List.range dev.chunkCount).map fun idx =>
    (idx * memChunk, d.readBuf (idx * memChunk) memChunk)).filter fun p => p.2.any (· != 0)

section Listed

variable {dev : MemDevice} {m : Chunks} {d d' : Disk} {idx a : ℕ}

/-- The device lists what the array it stands for holds. -/
lemma nonzeroChunks_of_shows (h : Shows m d) : dev.nonzeroChunks m = dev.flatChunks d := by
  have hzero : (List.replicate memChunk (0 : UInt8)).any (· != 0) = false := by
    rw [List.any_eq_false]
    intro b hb
    rw [List.eq_of_mem_replicate hb]
    decide
  have hread : ∀ idx, d.readBuf (idx * memChunk) memChunk =
      match m idx with
      | some c => c.1
      | none => List.replicate memChunk 0 := fun idx => by
    refine Buf.ext ?_ fun i hi => ?_
    · rw [Disk.length_readBuf]
      cases m idx with
      | none => exact List.length_replicate.symm
      | some c => exact c.2.symm
    · rw [Disk.length_readBuf] at hi
      have hplace : (idx * memChunk + i) / memChunk = idx ∧
          (idx * memChunk + i) % memChunk = i := by
        have hc : memChunk = 65536 := rfl
        rw [hc] at hi ⊢
        omega
      rw [Disk.byteAt_readBuf hi, ← h]
      cases hm : m idx with
      | none => rw [Chunks.byte_of_none (by rw [hplace.1, hm]), byteAt_replicate_zero]
      | some c => rw [Chunks.byte_of_some (by rw [hplace.1, hm]), hplace.2]
  rw [nonzeroChunks, flatChunks, Chunks.keys, Nat.sub_zero, ← List.range_eq_range',
    List.filterMap_filter, ← List.filterMap_eq_filter, List.filterMap_map]
  refine List.filterMap_congr fun idx _ => ?_
  rw [Function.comp_apply, hread]
  cases hm : m idx with
  | none => simp [Option.guard, hzero]
  | some c => simp [Option.guard]

/-- A chunk is listed with its contents exactly when it is not all zeroes. -/
lemma mem_flatChunks {b : Buf} : (idx * memChunk, b) ∈ dev.flatChunks d ↔
    idx < dev.chunkCount ∧ b = d.readBuf (idx * memChunk) memChunk ∧ b.any (· != 0) = true := by
  rw [flatChunks, List.mem_filter, List.mem_map]
  constructor
  · rintro ⟨⟨k, hk, heq⟩, hany⟩
    rw [Prod.mk.injEq] at heq
    have hk' : k = idx := by
      have hc : memChunk = 65536 := rfl
      have hoff := heq.1
      rw [hc] at hoff
      omega
    rw [hk'] at hk heq
    exact ⟨List.mem_range.mp hk, heq.2.symm, hany⟩
  · rintro ⟨hlt, hread, hany⟩
    exact ⟨⟨idx, List.mem_range.mpr hlt, congrArg (Prod.mk (idx * memChunk)) hread.symm⟩, hany⟩

/-- A byte other than zero is in a chunk that is listed. -/
lemma any_of_byte (ha : d.bytes a ≠ 0) :
    (d.readBuf (a / memChunk * memChunk) memChunk).any (· != 0) = true := by
  have hmod := Nat.mod_lt a (by decide : 0 < memChunk)
  have hread : byteAt (d.readBuf (a / memChunk * memChunk) memChunk) (a % memChunk) =
      d.bytes a := by
    rw [Disk.byteAt_readBuf hmod, Nat.mul_comm, Nat.div_add_mod]
  by_contra hnone
  rw [Bool.not_eq_true, List.any_eq_false] at hnone
  refine ha (hread.symm.trans (Chunks.byteAt_of_all_zero ?_ _))
  rw [List.all_eq_true]
  intro b hb
  simpa using hnone b hb

/-- Arrays that are listed alike have the same bytes, in the chunks of the device. -/
lemma bytes_of_flatChunks (h : dev.flatChunks d = dev.flatChunks d')
    (ha : a / memChunk < dev.chunkCount) (hne : d.bytes a ≠ 0) : d'.bytes a = d.bytes a := by
  have hmem : (a / memChunk * memChunk, d.readBuf (a / memChunk * memChunk) memChunk) ∈
      dev.flatChunks d := mem_flatChunks.mpr ⟨ha, rfl, any_of_byte hne⟩
  rw [h] at hmem
  obtain ⟨-, hread, -⟩ := mem_flatChunks.mp hmem
  have hmod := Nat.mod_lt a (by decide : 0 < memChunk)
  have hbyte := congrArg (byteAt · (a % memChunk)) hread
  rw [Disk.byteAt_readBuf hmod, Disk.byteAt_readBuf hmod, Nat.mul_comm, Nat.div_add_mod] at hbyte
  exact hbyte.symm

end Listed

/-- **The device lists the chunks of its array that are not all zeroes**, and two histories of
calls leave it with the same list exactly when they leave it with the same bytes. -/
theorem nonzeroChunks_after (dev : MemDevice) (hpos : 0 < dev.logical)
    (hreach : dev.reach ≤ 2 ^ 64 - memChunk) (ops : List DevOp) :
    dev.nonzeroChunks (dev.after Chunks.empty ops) =
        dev.flatChunks (dev.flatAfter Disk.blank ops) ∧
    ∀ ops', dev.nonzeroChunks (dev.after Chunks.empty ops) =
        dev.nonzeroChunks (dev.after Chunks.empty ops') ↔
      ∀ a, (dev.after Chunks.empty ops).byte a = (dev.after Chunks.empty ops').byte a := by
  have hshows : ∀ ops, Shows (dev.after Chunks.empty ops) (dev.flatAfter Disk.blank ops) :=
    after_lockstep hpos hreach fun _ => rfl
  have hlist : ∀ ops, dev.nonzeroChunks (dev.after Chunks.empty ops) =
      dev.flatChunks (dev.flatAfter Disk.blank ops) := fun ops =>
    nonzeroChunks_of_shows (hshows ops)
  -- A byte past the chunks of the device is in no chunk.
  have hpast : ∀ ops a, ¬ a / memChunk < dev.chunkCount →
      (dev.flatAfter Disk.blank ops).bytes a = 0 := fun ops a ha => by
    rw [← hshows ops a]
    refine Chunks.byte_of_none (Option.not_isSome_iff_eq_none.1 fun hsome => ha ?_)
    exact lt_of_held hpos hreach hsome
  refine ⟨hlist ops, fun ops' => ⟨fun h a => ?_, fun h => ?_⟩⟩
  · rw [hlist, hlist] at h
    rw [hshows, hshows]
    by_cases ha : a / memChunk < dev.chunkCount
    · by_cases hne : (dev.flatAfter Disk.blank ops).bytes a = 0
      · by_contra hother
        rw [hne] at hother
        exact hother ((bytes_of_flatChunks h.symm ha (Ne.symm hother)).symm.trans hne).symm
      · exact (bytes_of_flatChunks h ha hne).symm
    · rw [hpast ops a ha, hpast ops' a ha]
  · have hshows' : Shows (dev.after Chunks.empty ops') (dev.flatAfter Disk.blank ops) := fun a =>
      (h a).symm.trans (hshows ops a)
    rw [hlist, nonzeroChunks_of_shows hshows']

/-- A pebibyte with its first sector written. -/
lemma flatAfter_pebibyte {b : Buf} (hlen : b.length = 4096) :
    pebibyte.flatAfter Disk.blank [.writeAt 0 b] = Disk.blank.put 0 b := by
  have hroom : 0 + b.length ≤ pebibyte.size := by
    rw [hlen]
    exact (by norm_num : 0 + 4096 ≤ 2 ^ 50)
  have hadmits : pebibyte.Admits 0 b.length := ⟨hroom, fun _ => ⟨dvd_zero _, hlen ▸ dvd_rfl⟩⟩
  exact congrArg Prod.snd (@flatStep_of_admits pebibyte Disk.blank (.writeAt 0 b) hadmits)

/-- Its first chunk is listed, as of the array. -/
theorem nonzeroChunks_pebibyte :
    pebibyte.nonzeroChunks (pebibyte.after Chunks.empty [.writeAt 0 (List.replicate 4096 7)]) =
      pebibyte.flatChunks
        (pebibyte.flatAfter Disk.blank [.writeAt 0 (List.replicate 4096 7)]) ∧
    ∃ b, (0 * memChunk, b) ∈ pebibyte.nonzeroChunks
      (pebibyte.after Chunks.empty [.writeAt 0 (List.replicate 4096 7)]) := by
  have hlist := (nonzeroChunks_after pebibyte pebibyte_logical pebibyte_reach
    [.writeAt 0 (List.replicate 4096 7)]).1
  have hlen : (List.replicate 4096 (7 : UInt8)).length = 4096 := List.length_replicate
  generalize hb : List.replicate 4096 (7 : UInt8) = b at hlist hlen ⊢
  have hbyte : (Disk.blank.put 0 b).bytes 0 ≠ 0 := by
    rw [Disk.bytes_put_of_mem le_rfl (by omega), ← hb, byteAt,
      List.getElem?_replicate_of_lt (by norm_num)]
    decide
  have hchunk : 0 < pebibyte.chunkCount := by
    norm_num [pebibyte, chunkCount, divCeil, memChunk]
  have hany := any_of_byte hbyte
  rw [Nat.zero_div] at hany
  refine ⟨hlist, (Disk.blank.put 0 b).readBuf (0 * memChunk) memChunk, ?_⟩
  rw [hlist, flatAfter_pebibyte hlen]
  exact mem_flatChunks.mpr ⟨hchunk, rfl, hany⟩

end MemDevice

end MkfsXfs
