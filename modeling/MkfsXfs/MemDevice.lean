import MkfsXfs.Device
import MkfsXfs.Geometry.Params

/-!
The sparse device held in memory (`MemDevice` in `src/device.rs`), and the flat array of bytes
it stands for.

* `Chunks`: the chunks that hold memory; `copyOut`, `copyIn` and `zeroRange` read, write and
  zero a range of bytes of them.  `Chunks.byte`: the byte at an offset.
* `MemDevice.step`: a call on the device; `MemDevice.flatStep`: the same call on a flat array.
* `step_lockstep`: the two answer alike, as long as no chunk ends at the end of the address
  space.
* `writeZeroesFrom`: the trait's own zeroing, by writes.
* `MemDevice.refines_iff`: the device refines the flat array exactly when its last chunk is
  out of reach.
-/

namespace MkfsXfs

open Checked

/-! ### Chunks -/

/-- `CHUNK`: granularity of the sparse storage. -/
def memChunk : ℕ := 64 * 1024

/-- The contents of a chunk. -/
abbrev Chunk := {b : Buf // b.length = memChunk}

namespace Chunk

/-- A chunk of zeroes. -/
def zero : Chunk := ⟨List.replicate memChunk 0, List.length_replicate⟩

/-- The chunk with `src` copied in at `within`. -/
def write (c : Chunk) (within : ℕ) (src : Buf) : Chunk :=
  ⟨splice c.1 within src, length_splice.trans c.2⟩

end Chunk

/-- The chunks that hold memory, by their number. -/
abbrev Chunks := ℕ → Option Chunk

namespace Chunks

/-- No chunk holds memory. -/
def empty : Chunks := fun _ => none

def insert (m : Chunks) (idx : ℕ) (c : Chunk) : Chunks := Function.update m idx (some c)

def remove (m : Chunks) (idx : ℕ) : Chunks := Function.update m idx none

/-- A piece read inside one chunk: a chunk without memory reads as zeroes. -/
def getPiece (m : Chunks) (idx within n : ℕ) : Buf :=
  match m idx with
  | some c => (c.1.drop within).take n
  | none => List.replicate n 0

/-- The `len` bytes at `pos`, piece by piece. -/
def copyOut (m : Chunks) (pos len : ℕ) : Buf :=
  if _ : 0 < len then
    let idx := pos / memChunk
    let within := pos % memChunk
    let n := min len (memChunk - within)
    m.getPiece idx within n ++ copyOut m (pos + n) (len - n)
  else []
termination_by len
decreasing_by
  have := Nat.mod_lt pos (by decide : 0 < memChunk)
  omega

/-- A piece written inside one chunk: zeroes need no memory, they drop a whole chunk or zero
part of one that exists. -/
def putPiece (m : Chunks) (idx within : ℕ) (src : Buf) : Chunks :=
  if src.all (· == 0) then
    if src.length = memChunk then m.remove idx
    else match m idx with
      | some c => m.insert idx (c.write within (List.replicate src.length 0))
      | none => m
  else m.insert idx (((m idx).getD Chunk.zero).write within src)

/-- The bytes `buf` written at `pos`, piece by piece. -/
def copyIn (m : Chunks) (pos : ℕ) (buf : Buf) : Chunks :=
  if _ : 0 < buf.length then
    let idx := pos / memChunk
    let within := pos % memChunk
    let n := min buf.length (memChunk - within)
    copyIn (m.putPiece idx within (buf.take n)) (pos + n) (buf.drop n)
  else m
termination_by buf.length
decreasing_by
  have := Nat.mod_lt pos (by decide : 0 < memChunk)
  rw [List.length_drop]
  omega

/-- `c[lo..hi].fill(0)`, a panic outside the chunk. -/
def fillZero (c : Chunk) (lo hi : ℕ) : Exec Chunk :=
  if lo ≤ hi ∧ hi ≤ memChunk then .ok (c.write lo (List.replicate (hi - lo) 0))
  else .error .panic

/-- Chunk `idx` zeroed where it lies between `offset` and `stop`. -/
def zeroChunk (offset stop : ℕ) (m : Chunks) (idx : ℕ) : Exec Chunks := do
  let cs ← fit 64 (idx * memChunk)
  let ce ← fit 64 ((idx + 1) * memChunk)
  let zs := max offset cs
  let ze := min stop ce
  if zs = cs ∧ ze = ce then return m.remove idx
  else match m idx with
    | some c => do
        let lo ← sub zs cs
        let hi ← sub ze cs
        let c ← fillZero c lo hi
        return m.insert idx c
    | none => return m

/-- The chunks from `first` to `last` that hold memory. -/
def keys (m : Chunks) (first last : ℕ) : List ℕ :=
  (List.range' first (last - first)).filter fun idx => (m idx).isSome

/-- The `len` bytes at `offset` zeroed, in the chunks that hold memory. -/
def zeroRange (m : Chunks) (offset len : ℕ) : Exec Chunks := do
  let stop ← fit 64 (offset + len)
  let first := offset / memChunk
  let last := divCeil stop memChunk
  (m.keys first last).foldlM (zeroChunk offset stop) m

/-- The byte at `a`. -/
def byte (m : Chunks) (a : ℕ) : UInt8 :=
  match m (a / memChunk) with
  | some c => byteAt c.1 (a % memChunk)
  | none => 0

/-! ### Bytes -/

section Bytes

variable {m : Chunks} {idx within pos len a : ℕ} {src buf : Buf} {c : Chunk}

lemma byte_of_some (h : m (a / memChunk) = some c) : m.byte a = byteAt c.1 (a % memChunk) := by
  rw [byte, h]

lemma byte_of_none (h : m (a / memChunk) = none) : m.byte a = 0 := by
  rw [byte, h]

lemma byte_insert : (m.insert idx c).byte a =
    if a / memChunk = idx then byteAt c.1 (a % memChunk) else m.byte a := by
  rw [byte, insert, Function.update_apply]
  split_ifs with h
  · rfl
  · rfl

lemma byte_remove : (m.remove idx).byte a = if a / memChunk = idx then 0 else m.byte a := by
  rw [byte, remove, Function.update_apply]
  split_ifs with h
  · rfl
  · rfl

lemma byteAt_write {i : ℕ} (h : within + src.length ≤ memChunk) :
    byteAt (c.write within src).1 i =
      if within ≤ i ∧ i < within + src.length then byteAt src (i - within) else byteAt c.1 i := by
  rw [Chunk.write]
  split_ifs with hi
  · exact byteAt_splice_of_mem hi.1 hi.2 (by rw [c.2]; omega)
  · exact byteAt_splice_of_not_mem (by omega)

lemma byteAt_of_all_zero (h : src.all (· == 0) = true) (i : ℕ) : byteAt src i = 0 := by
  rcases Nat.lt_or_ge i src.length with hlt | hge
  · rw [byteAt, List.getElem?_eq_getElem hlt]
    exact eq_of_beq (List.all_eq_true.1 h _ (List.getElem_mem hlt))
  · exact byteAt_of_le hge

/-- A piece is written where it says, and nowhere else. -/
lemma byte_putPiece (h : within + src.length ≤ memChunk) :
    (m.putPiece idx within src).byte a =
      if idx * memChunk + within ≤ a ∧ a < idx * memChunk + within + src.length then
        byteAt src (a - (idx * memChunk + within))
      else m.byte a := by
  have hc : memChunk = 65536 := rfl
  have hmod := Nat.mod_lt a (by decide : 0 < memChunk)
  -- The piece lies in chunk `idx`.
  have hplace : (idx * memChunk + within ≤ a ∧ a < idx * memChunk + within + src.length) ↔
      a / memChunk = idx ∧ within ≤ a % memChunk ∧ a % memChunk < within + src.length := by
    rw [hc] at h hmod ⊢
    omega
  have hoff : a / memChunk = idx → a - (idx * memChunk + within) = a % memChunk - within := by
    rw [hc] at h hmod ⊢
    omega
  rw [putPiece]
  split_ifs with hzero hwhole hin hin hin
  · -- A whole chunk of zeroes is dropped.
    rw [byte_remove, if_pos (hplace.1 hin).1, byteAt_of_all_zero hzero]
  · rw [byte_remove, if_neg fun heq => hin (hplace.2 ⟨heq, by omega, by omega⟩)]
  · -- Part of a chunk is zeroed, if the chunk holds memory.
    obtain ⟨heq, hlo, hhi⟩ := hplace.1 hin
    rw [byteAt_of_all_zero hzero]
    cases hm : m idx with
    | none => exact byte_of_none (heq.symm ▸ hm)
    | some c =>
        dsimp only
        rw [byte_insert, if_pos heq, byteAt_write (by rw [List.length_replicate]; exact h),
          List.length_replicate, if_pos ⟨hlo, hhi⟩, byteAt_replicate_zero]
  · cases hm : m idx with
    | none => rfl
    | some c =>
        dsimp only
        rw [byte_insert]
        split_ifs with heq
        · rw [byteAt_write (by rw [List.length_replicate]; exact h), List.length_replicate,
            if_neg fun hand => hin (hplace.2 ⟨heq, hand⟩), byte_of_some (heq.symm ▸ hm)]
        · rfl
  · obtain ⟨heq, hlo, hhi⟩ := hplace.1 hin
    rw [byte_insert, if_pos heq, byteAt_write h, if_pos ⟨hlo, hhi⟩, hoff heq]
  · rw [byte_insert]
    split_ifs with heq
    · rw [byteAt_write h, if_neg fun hand => hin (hplace.2 ⟨heq, hand⟩)]
      cases hm : m idx with
      | none =>
          rw [byte_of_none (heq.symm ▸ hm)]
          exact byteAt_replicate_zero
      | some c => rw [byte_of_some (heq.symm ▸ hm), Option.getD_some]
    · rfl

lemma length_getPiece {n : ℕ} (h : within + n ≤ memChunk) : (m.getPiece idx within n).length = n := by
  rw [getPiece]
  split
  · rename_i c _
    rw [List.length_take, List.length_drop, c.2]
    omega
  · exact List.length_replicate

/-- A piece is read from where it says. -/
lemma byteAt_getPiece {n i : ℕ} (h : within + n ≤ memChunk) (hi : i < n) :
    byteAt (m.getPiece idx within n) i = m.byte (idx * memChunk + within + i) := by
  have hc : memChunk = 65536 := rfl
  have hdiv : (idx * memChunk + within + i) / memChunk = idx := by
    rw [hc] at h ⊢
    omega
  have hmod : (idx * memChunk + within + i) % memChunk = within + i := by
    rw [hc] at h ⊢
    omega
  rw [getPiece]
  cases hm : m idx with
  | none =>
      rw [byte_of_none (hdiv.symm ▸ hm)]
      exact byteAt_replicate_zero
  | some c =>
      dsimp only
      rw [byte_of_some (hdiv.symm ▸ hm), byteAt_take hi, byteAt_drop, hmod]

/-- The first piece of a range lies inside its chunk. -/
lemma piece_le (pos len : ℕ) : pos % memChunk + min len (memChunk - pos % memChunk) ≤ memChunk := by
  have hmod := Nat.mod_lt pos (by decide : 0 < memChunk)
  omega

lemma piece_pos (pos : ℕ) (h : 0 < len) : 0 < min len (memChunk - pos % memChunk) := by
  have hmod := Nat.mod_lt pos (by decide : 0 < memChunk)
  omega

/-- The byte at the start of a range, in its chunk. -/
lemma chunk_add_within (pos : ℕ) : pos / memChunk * memChunk + pos % memChunk = pos := by
  rw [Nat.mul_comm]
  exact Nat.div_add_mod pos memChunk

lemma length_copyOut : (m.copyOut pos len).length = len := by
  induction pos, len using copyOut.induct with
  | case1 pos len hpos within n ih =>
      rw [copyOut, dif_pos hpos]
      dsimp only
      rw [List.length_append, ih, length_getPiece (piece_le pos len)]
      exact Nat.add_sub_cancel' (Nat.min_le_left _ _)
  | case2 pos len hpos =>
      rw [copyOut, dif_neg hpos, List.length_nil]
      omega

/-- **What is read out is what the chunks hold.** -/
lemma byteAt_copyOut {i : ℕ} (h : i < len) : byteAt (m.copyOut pos len) i = m.byte (pos + i) := by
  induction pos, len using copyOut.induct generalizing i with
  | case1 pos len hpos within n =>
      rename_i ih
      have hlen : (m.getPiece (pos / memChunk) (pos % memChunk)
          (min len (memChunk - pos % memChunk))).length = _ := length_getPiece (piece_le pos len)
      rw [copyOut, dif_pos hpos]
      dsimp only
      rcases Nat.lt_or_ge i (min len (memChunk - pos % memChunk)) with hlt | hge
      · rw [byteAt_append_left (by rw [hlen]; exact hlt), byteAt_getPiece (piece_le pos len) hlt,
          chunk_add_within]
      · rw [byteAt_append_right (by rw [hlen]; exact hge), hlen, ih (by omega)]
        congr 1
        omega
  | case2 pos len hpos => omega

/-- **What is written in is held from then on**, and nothing else changes. -/
lemma byte_copyIn : (m.copyIn pos buf).byte a =
    if pos ≤ a ∧ a < pos + buf.length then byteAt buf (a - pos) else m.byte a := by
  induction m, pos, buf using copyIn.induct with
  | case1 m pos buf hpos idx within n ih =>
      have hn : n ≤ buf.length := Nat.min_le_left _ _
      have htake : (buf.take n).length = n := by
        rw [List.length_take]
        exact Nat.min_eq_left hn
      have hpiece : within + (buf.take n).length ≤ memChunk := by
        rw [htake]
        exact piece_le pos buf.length
      have hstart : idx * memChunk + within = pos := chunk_add_within pos
      rw [copyIn, dif_pos hpos]
      dsimp only
      rw [ih, byte_putPiece hpiece, hstart, htake, List.length_drop]
      rcases Nat.lt_or_ge a pos with hlo | hlo
      · rw [if_neg (by omega), if_neg (by omega), if_neg (by omega)]
      rcases Nat.lt_or_ge a (pos + n) with hmid | hmid
      · rw [if_neg (by omega), if_pos ⟨hlo, hmid⟩, if_pos ⟨hlo, by omega⟩, byteAt_take (by omega)]
      · by_cases hhi : a < pos + buf.length
        · rw [if_pos ⟨hmid, by omega⟩, if_pos ⟨hlo, hhi⟩, byteAt_drop]
          congr 1
          omega
        · rw [if_neg (by omega), if_neg (by omega), if_neg (by omega)]
  | case2 m pos buf hpos =>
      rw [copyIn, dif_neg hpos, if_neg (by omega)]

/-- Zeroing a range of a chunk. -/
lemma zeroChunk_spec {offset stop : ℕ} (hword : (idx + 1) * memChunk < 2 ^ 64)
    (hle : offset ≤ stop) (hlo : offset < (idx + 1) * memChunk) (hhi : idx * memChunk < stop) :
    ∃ m', zeroChunk offset stop m idx = .ok m' ∧
      ∀ a, m'.byte a = if offset ≤ a ∧ a < stop ∧ a / memChunk = idx then 0 else m.byte a := by
  have hc : memChunk = 65536 := rfl
  have hstart : idx * memChunk < 2 ^ 64 :=
    lt_of_le_of_lt (Nat.mul_le_mul_right _ (Nat.le_succ idx)) hword
  have hnext : (idx + 1) * memChunk = idx * memChunk + memChunk := Nat.succ_mul idx memChunk
  rw [hnext] at hword hlo
  rw [zeroChunk, fit_of_lt hstart, ok_bind, hnext, fit_of_lt hword, ok_bind]
  dsimp only
  generalize hcs : idx * memChunk = cs at *
  have hplace : ∀ a, a / memChunk = idx ↔ cs ≤ a ∧ a < cs + memChunk := fun a => by
    rw [hc] at hcs ⊢
    omega
  split_ifs with hwhole
  · -- The whole chunk is dropped.
    refine ⟨_, rfl, fun a => ?_⟩
    rw [byte_remove]
    by_cases ha : a / memChunk = idx
    · have := (hplace a).1 ha
      rw [if_pos ha, if_pos ⟨by omega, by omega, ha⟩]
    · rw [if_neg ha, if_neg fun hand => ha hand.2.2]
  · cases hm : m idx with
    | none =>
        refine ⟨m, rfl, fun a => ?_⟩
        split_ifs with ha
        · exact byte_of_none (ha.2.2.symm ▸ hm)
        · rfl
    | some c =>
        have hfill : fillZero c (max offset cs - cs) (min stop (cs + memChunk) - cs) =
            .ok (c.write (max offset cs - cs) (List.replicate
              (min stop (cs + memChunk) - cs - (max offset cs - cs)) 0)) := if_pos (by omega)
        dsimp only
        rw [sub_of_le (by omega : cs ≤ max offset cs), ok_bind,
          sub_of_le (by omega : cs ≤ min stop (cs + memChunk)), ok_bind, hfill, ok_bind]
        refine ⟨_, rfl, fun a => ?_⟩
        rw [byte_insert]
        by_cases ha : a / memChunk = idx
        · obtain ⟨hl, hr⟩ := (hplace a).1 ha
          have hmod : a % memChunk = a - cs := by
            have hdm := Nat.div_add_mod a memChunk
            rw [ha, Nat.mul_comm, hcs] at hdm
            omega
          rw [if_pos ha, byteAt_write (by rw [List.length_replicate]; omega),
            List.length_replicate, hmod]
          by_cases hin : offset ≤ a ∧ a < stop
          · rw [if_pos (by omega), if_pos ⟨hin.1, hin.2, ha⟩, byteAt_replicate_zero]
          · rw [if_neg (by omega), if_neg fun hand => hin ⟨hand.1, hand.2.1⟩,
              byte_of_some (ha.symm ▸ hm), hmod]
        · rw [if_neg ha, if_neg fun hand => ha hand.2.2]

/-- Zeroing a range of several chunks, one after the other. -/
lemma zeroChunks_spec {offset stop : ℕ} (hle : offset ≤ stop) {ks : List ℕ}
    (hks : ∀ k ∈ ks, (k + 1) * memChunk < 2 ^ 64 ∧ offset < (k + 1) * memChunk ∧
      k * memChunk < stop) :
    ∃ m', ks.foldlM (zeroChunk offset stop) m = .ok m' ∧
      ∀ a, m'.byte a = if offset ≤ a ∧ a < stop ∧ a / memChunk ∈ ks then 0 else m.byte a := by
  induction ks generalizing m with
  | nil =>
      refine ⟨m, rfl, fun a => ?_⟩
      rw [if_neg fun hand => List.not_mem_nil hand.2.2]
  | cons k ks ih =>
      obtain ⟨hword, hlo, hhi⟩ := hks k List.mem_cons_self
      obtain ⟨m₁, hrun₁, hbyte₁⟩ := zeroChunk_spec (m := m) hword hle hlo hhi
      obtain ⟨m', hrun, hbyte⟩ := ih (m := m₁) fun k' hk' => hks k' (List.mem_cons_of_mem k hk')
      refine ⟨m', by rw [List.foldlM_cons, hrun₁, ok_bind, hrun], fun a => ?_⟩
      rw [hbyte, hbyte₁]
      by_cases hin : offset ≤ a ∧ a < stop
      · by_cases hrest : a / memChunk ∈ ks
        · rw [if_pos ⟨hin.1, hin.2, hrest⟩,
            if_pos ⟨hin.1, hin.2, List.mem_cons_of_mem k hrest⟩]
        · rw [if_neg fun hand => hrest hand.2.2]
          refine if_congr ?_ rfl rfl
          rw [List.mem_cons, or_iff_left hrest]
      · rw [if_neg fun hand => hin ⟨hand.1, hand.2.1⟩, if_neg fun hand => hin ⟨hand.1, hand.2.1⟩,
          if_neg fun hand => hin ⟨hand.1, hand.2.1⟩]

lemma mem_keys {first last k : ℕ} : k ∈ m.keys first last ↔
    first ≤ k ∧ k < last ∧ (m k).isSome = true := by
  rw [keys, List.mem_filter, List.mem_range'_1]
  refine ⟨fun ⟨hrange, hsome⟩ => ⟨hrange.1, by omega, hsome⟩,
    fun ⟨hlo, hhi, hsome⟩ => ⟨⟨hlo, by omega⟩, hsome⟩⟩

/-- **What is zeroed reads as zeroes from then on**, and nothing else changes. -/
lemma zeroRange_spec {offset : ℕ} (h : offset + len ≤ 2 ^ 64 - memChunk) :
    ∃ m', m.zeroRange offset len = .ok m' ∧
      ∀ a, m'.byte a = if offset ≤ a ∧ a < offset + len then 0 else m.byte a := by
  have hc : memChunk = 65536 := rfl
  have hks : ∀ k ∈ m.keys (offset / memChunk) (divCeil (offset + len) memChunk),
      (k + 1) * memChunk < 2 ^ 64 ∧ offset < (k + 1) * memChunk ∧ k * memChunk < offset + len := by
    intro k hk
    obtain ⟨hlo, hhi, -⟩ := mem_keys.1 hk
    rw [divCeil] at hhi
    rw [hc] at h hlo hhi ⊢
    omega
  obtain ⟨m', hrun, hbyte⟩ := zeroChunks_spec (m := m) (Nat.le_add_right offset len) hks
  have hfit : (fit 64 (offset + len) : Exec ℕ) = .ok (offset + len) := fit_of_lt (by omega)
  refine ⟨m', by rw [zeroRange, hfit]; exact hrun, fun a => ?_⟩
  rw [hbyte]
  by_cases hin : offset ≤ a ∧ a < offset + len
  · rw [if_pos hin]
    split_ifs with hkey
    · rfl
    · -- The chunk holds no memory.
      refine byte_of_none (Option.not_isSome_iff_eq_none.1 fun hsome => hkey ⟨hin.1, hin.2, ?_⟩)
      rw [mem_keys, divCeil]
      refine ⟨Nat.div_le_div_right hin.1, ?_, hsome⟩
      rw [hc]
      omega
  · rw [if_neg hin, if_neg fun hand => hin ⟨hand.1, hand.2.1⟩]

/-- A bound on the chunks that a range is zeroed in. -/
lemma key_bounds {offset k : ℕ}
    (h : k ∈ m.keys (offset / memChunk) (divCeil (offset + len) memChunk)) :
    offset < (k + 1) * memChunk ∧ k * memChunk < offset + len := by
  have hc : memChunk = 65536 := rfl
  obtain ⟨hlo, hhi, -⟩ := mem_keys.1 h
  rw [divCeil] at hhi
  rw [hc] at hlo hhi ⊢
  omega

/-- A chunk is zeroed where the range is, or the end of the address space is a panic. -/
lemma zeroChunk_cases {offset stop : ℕ} (hle : offset ≤ stop) (hlo : offset < (idx + 1) * memChunk)
    (hhi : idx * memChunk < stop) : zeroChunk offset stop m idx = .error .panic ∨
      ∃ m', zeroChunk offset stop m idx = .ok m' ∧
        ∀ a, ¬ (offset ≤ a ∧ a < stop) → m'.byte a = m.byte a := by
  by_cases hword : (idx + 1) * memChunk < 2 ^ 64
  · obtain ⟨m', hrun, hbyte⟩ := zeroChunk_spec (m := m) hword hle hlo hhi
    refine .inr ⟨m', hrun, fun a ha => ?_⟩
    rw [hbyte, if_neg fun hand => ha ⟨hand.1, hand.2.1⟩]
  · left
    have hend : (fit 64 ((idx + 1) * memChunk) : Exec ℕ) = .error .panic := if_neg hword
    rw [zeroChunk, hend, fit]
    split_ifs
    · rfl
    · rfl

lemma zeroChunks_cases {offset stop : ℕ} (hle : offset ≤ stop) {ks : List ℕ}
    (hks : ∀ k ∈ ks, offset < (k + 1) * memChunk ∧ k * memChunk < stop) :
    ks.foldlM (zeroChunk offset stop) m = .error .panic ∨
      ∃ m', ks.foldlM (zeroChunk offset stop) m = .ok m' ∧
        ∀ a, ¬ (offset ≤ a ∧ a < stop) → m'.byte a = m.byte a := by
  induction ks generalizing m with
  | nil => exact .inr ⟨m, rfl, fun _ _ => rfl⟩
  | cons k ks ih =>
      obtain ⟨hlo, hhi⟩ := hks k List.mem_cons_self
      rw [List.foldlM_cons]
      rcases zeroChunk_cases (m := m) hle hlo hhi with hrun | ⟨m₁, hrun, hkept₁⟩
      · exact .inl (by rw [hrun]; rfl)
      · rw [hrun, ok_bind]
        rcases ih (m := m₁) fun k' hk' => hks k' (List.mem_cons_of_mem k hk') with
          hrest | ⟨m', hrest, hkept⟩
        · exact .inl hrest
        · exact .inr ⟨m', hrest, fun a ha => (hkept a ha).trans (hkept₁ a ha)⟩

/-- **Zeroing keeps what is outside the range**, unless it panics. -/
lemma zeroRange_cases (m : Chunks) (offset len : ℕ) : m.zeroRange offset len = .error .panic ∨
    ∃ m', m.zeroRange offset len = .ok m' ∧
      ∀ a, ¬ (offset ≤ a ∧ a < offset + len) → m'.byte a = m.byte a := by
  rw [zeroRange, fit]
  split_ifs
  · exact zeroChunks_cases (Nat.le_add_right offset len) fun k hk => key_bounds hk
  · exact .inl rfl

end Bytes

end Chunks

/-! ### The device -/

/-- A sparse device held in memory, apart from its chunks. -/
structure MemDevice where
  size : ℕ
  /-- the sector size it reports -/
  logical : ℕ
  /-- it refuses any I/O that is not whole sectors at a sector boundary -/
  strict : Bool
  /-- the size is a `u64` -/
  size_lt : size < 2 ^ 64

/-- Bounds-check a request against a device size. -/
def checkBounds (offset len size : ℕ) : Exec Unit :=
  refuseIf (¬ (offset + len < 2 ^ 64 ∧ offset + len ≤ size)) (.outOfBounds offset len size)

namespace MemDevice

/-- Refuse what is not whole sectors, when the device is strict. -/
def checkAligned (dev : MemDevice) (offset len : ℕ) : Exec Unit :=
  if dev.strict then do
    let r ← mod offset dev.logical
    if r ≠ 0 then .error (.error (.io offset))
    else do
      let r ← mod len dev.logical
      refuseIf (r ≠ 0) (.io offset)
  else .ok ()

/-- The checks before a call. -/
def checkCall (dev : MemDevice) (offset len : ℕ) : Exec Unit := do
  checkBounds offset len dev.size
  dev.checkAligned offset len

/-- A call on the device. -/
def step (dev : MemDevice) : (op : DevOp) → Chunks → Exec op.Ans × Chunks
  | .readAt off len, m =>
      match dev.checkCall off len with
      | .ok () => (.ok ⟨m.copyOut off len, Chunks.length_copyOut⟩, m)
      | .error e => (.error e, m)
  | .writeAt off buf, m =>
      match dev.checkCall off buf.length with
      | .ok () => (.ok (), m.copyIn off buf)
      | .error e => (.error e, m)
  | .writeZeroes off len, m =>
      match dev.checkCall off len, m.zeroRange off len with
      | .ok (), .ok m' => (.ok (), m')
      | .ok (), .error e => (.error e, m)
      | .error e, _ => (.error e, m)
  | .flush, m => (.ok (), m)

/-- The same call on a flat array of bytes: refused when it runs past the end or, on a strict
device, is not whole sectors, and otherwise done. -/
def flatStep (dev : MemDevice) (op : DevOp) (d : Disk) : Exec op.Ans × Disk :=
  if dev.size < op.offset + op.len then
    (.error (.error (.outOfBounds op.offset op.len dev.size)), d)
  else if dev.strict = true ∧ ¬ (dev.logical ∣ op.offset ∧ dev.logical ∣ op.len) then
    (.error (.error (.io op.offset)), d)
  else (.ok (op.answer d), op.effect d)

/-- The end of the whole sectors that calls can be about. -/
def reach (dev : MemDevice) : ℕ :=
  if dev.strict then dev.size / dev.logical * dev.logical else dev.size

/-- The call is about bytes of the device, whole sectors when it is strict. -/
def Admits (dev : MemDevice) (offset len : ℕ) : Prop :=
  offset + len ≤ dev.size ∧ (dev.strict = true → dev.logical ∣ offset ∧ dev.logical ∣ len)

/-- The chunks hold what the flat array does. -/
def Shows (m : Chunks) (d : Disk) : Prop := ∀ a, m.byte a = d.bytes a

section Step

variable {dev : MemDevice} {m m' : Chunks} {d : Disk} {offset len : ℕ}

/-- What the checks before a call do. -/
lemma checkCall_eq (hpos : 0 < dev.logical) : dev.checkCall offset len =
    if dev.size < offset + len then .error (.error (.outOfBounds offset len dev.size))
    else if dev.strict = true ∧ ¬ (dev.logical ∣ offset ∧ dev.logical ∣ len) then
      .error (.error (.io offset))
    else .ok () := by
  have hsize := dev.size_lt
  rw [checkCall, checkBounds]
  split_ifs with hbound hsector
  · rw [refuseIf, if_pos (by omega)]
    rfl
  · rw [refuseIf_of_not (by omega), ok_bind, checkAligned, if_pos hsector.1, mod_of_pos hpos, ok_bind]
    split_ifs with hoff
    · rfl
    · have hlen : len % dev.logical ≠ 0 := fun hzero => hsector.2
        ⟨Nat.dvd_of_mod_eq_zero (not_not.1 hoff), Nat.dvd_of_mod_eq_zero hzero⟩
      rw [mod_of_pos hpos, ok_bind, refuseIf, if_pos hlen]
  · rw [refuseIf_of_not (by omega), ok_bind, checkAligned]
    split_ifs with hstrict
    · have hdvd : dev.logical ∣ offset ∧ dev.logical ∣ len :=
        not_not.1 fun hnot => hsector ⟨hstrict, hnot⟩
      rw [mod_of_pos hpos, ok_bind, Nat.mod_eq_zero_of_dvd hdvd.1, if_neg (not_not.2 rfl),
        mod_of_pos hpos, ok_bind, Nat.mod_eq_zero_of_dvd hdvd.2, refuseIf_of_not (not_not.2 rfl)]
    · rfl

lemma checkCall_of_admits (hpos : 0 < dev.logical) (h : dev.Admits offset len) :
    dev.checkCall offset len = .ok () := by
  rw [checkCall_eq hpos, if_neg (by have := h.1; omega), if_neg fun hand => hand.2 (h.2 hand.1)]

/-- The bytes that a call is about end within reach. -/
lemma Admits.le_reach (h : dev.Admits offset len) : offset + len ≤ dev.reach := by
  rw [reach]
  split_ifs with hstrict
  · obtain ⟨hoff, hlen⟩ := h.2 hstrict
    obtain ⟨k, hk⟩ := Nat.dvd_add hoff hlen
    rcases Nat.eq_zero_or_pos dev.logical with h0 | hpos
    · rw [hk, h0, Nat.zero_mul]
      exact Nat.zero_le _
    · rw [hk, Nat.mul_comm]
      refine Nat.mul_le_mul_right _ ((Nat.le_div_iff_mul_le hpos).2 ?_)
      rw [Nat.mul_comm, ← hk]
      exact h.1
  · exact h.1

lemma flatStep_of_admits {op : DevOp} (h : dev.Admits op.offset op.len) :
    dev.flatStep op d = (.ok (op.answer d), op.effect d) := by
  rw [flatStep, if_neg (by have := h.1; omega), if_neg fun hand => hand.2 (h.2 hand.1)]

/-- A call that the checks refuse is refused on the flat array. -/
lemma flatStep_of_not_admits (hpos : 0 < dev.logical) {op : DevOp}
    (h : ¬ dev.Admits op.offset op.len) : ∃ e, dev.checkCall op.offset op.len = .error e ∧
      dev.flatStep op d = (.error e, d) := by
  rw [checkCall_eq hpos, flatStep]
  split_ifs with hbound hsector
  · exact ⟨_, rfl, rfl⟩
  · exact ⟨_, rfl, rfl⟩
  · refine absurd ⟨Nat.not_lt.1 hbound, fun hstrict => ?_⟩ h
    exact not_not.1 fun hnot => hsector ⟨hstrict, hnot⟩

/-- A call that the checks refuse changes nothing. -/
lemma step_of_refused {op : DevOp} {e : Fault Error} (hflush : op ≠ .flush)
    (h : dev.checkCall op.offset op.len = .error e) : dev.step op m = (.error e, m) := by
  cases op with
  | readAt off len =>
      have hrefused : dev.checkCall off len = .error e := h
      rw [step, hrefused]
  | writeAt off buf =>
      have hrefused : dev.checkCall off buf.length = .error e := h
      rw [step, hrefused]
  | writeZeroes off len =>
      have hrefused : dev.checkCall off len = .error e := h
      rw [step, hrefused]
  | flush => exact absurd rfl hflush

/-- **The device answers as the flat array does**, and goes on holding what it does, when no
call reaches the last chunk of the address space. -/
theorem step_lockstep (hpos : 0 < dev.logical) (hreach : dev.reach ≤ 2 ^ 64 - memChunk) (op : DevOp)
    (h : Shows m d) : (dev.step op m).1 = (dev.flatStep op d).1 ∧
      Shows (dev.step op m).2 (dev.flatStep op d).2 := by
  by_cases hadmits : dev.Admits op.offset op.len
  · rw [flatStep_of_admits hadmits]
    have hadmit := checkCall_of_admits hpos hadmits
    have hend := hadmits.le_reach
    cases op with
    | readAt off len =>
        have hok : dev.checkCall off len = .ok () := hadmit
        rw [step, hok]
        refine ⟨congrArg Except.ok (Subtype.ext (Buf.ext ?_ fun i hi => ?_)), h⟩
        · rw [Chunks.length_copyOut]
          exact (d.length_readBuf off len).symm
        · dsimp only at hi ⊢
          rw [Chunks.length_copyOut] at hi
          rw [Chunks.byteAt_copyOut hi, h]
          exact (Disk.byteAt_readBuf hi).symm
    | writeAt off buf =>
        have hok : dev.checkCall off buf.length = .ok () := hadmit
        rw [step, hok]
        refine ⟨rfl, fun a => ?_⟩
        dsimp only
        rw [Chunks.byte_copyIn, h]
        rfl
    | writeZeroes off len =>
        have hroom : off + len ≤ 2 ^ 64 - memChunk := hend.trans hreach
        obtain ⟨m', hrun, hbyte⟩ := Chunks.zeroRange_spec (m := m) hroom
        have hok : dev.checkCall off len = .ok () := hadmit
        rw [step, hok, hrun]
        refine ⟨rfl, fun a => ?_⟩
        have hput : (d.put off (List.replicate len 0)).bytes a =
            if off ≤ a ∧ a < off + len then 0 else d.bytes a := by
          rw [Disk.put, List.length_replicate]
          simp
        dsimp only
        rw [hbyte, h]
        exact hput.symm
    | flush => exact ⟨rfl, h⟩
  · obtain ⟨e, hrefused, hflat⟩ := flatStep_of_not_admits (d := d) hpos hadmits
    have hflush : op ≠ .flush := fun heq => by
      subst heq
      exact hadmits ⟨Nat.zero_le _, fun _ => ⟨dvd_zero _, dvd_zero _⟩⟩
    rw [step_of_refused hflush hrefused, hflat]
    exact ⟨rfl, h⟩

end Step

/-! ### Sequences of calls -/

/-- The chunks after a sequence of calls, whether they succeed or fail. -/
def after (dev : MemDevice) (m : Chunks) (ops : List DevOp) : Chunks :=
  ops.foldl (fun m op => (dev.step op m).2) m

/-- The flat array after the same calls. -/
def flatAfter (dev : MemDevice) (d : Disk) (ops : List DevOp) : Disk :=
  ops.foldl (fun d op => (dev.flatStep op d).2) d

end MemDevice

/-- `BlockDevice::write_zeroes` where a device has nothing better: zeroes are written in
pieces of 1 MiB, the first `done` bytes behind it. -/
def writeZeroesFrom (offset len done : ℕ) : DevM Unit :=
  if done < len then do
    let n := min (len - done) (max (min (1 <<< 20) len) 1)
    let pos ← Prog.ofExcept (fit 64 (offset + done))
    writeAt pos (List.replicate n 0)
    writeZeroesFrom offset len (done + n)
  else return ()
termination_by len - done

namespace MemDevice

/-- The device is a flat array of bytes to its callers. -/
structure Refines (dev : MemDevice) : Prop where
  /-- a call after any others answers as on the flat array -/
  answers : ∀ (ops : List DevOp) (op : DevOp), (dev.step op (dev.after Chunks.empty ops)).1 =
    (dev.flatStep op (dev.flatAfter Disk.blank ops)).1
  /-- a call that fails changes nothing -/
  kept : ∀ (ops : List DevOp) (op : DevOp) (e : Fault Error),
    (dev.step op (dev.after Chunks.empty ops)).1 = .error e →
      (dev.step op (dev.after Chunks.empty ops)).2 = dev.after Chunks.empty ops
  /-- its own zeroing is to every later read as the trait's is -/
  zeroes : ∀ (ops : List DevOp) (offset len : ℕ), dev.Admits offset len →
    (dev.strict = true → dev.logical.isPowerOfTwo ∧ dev.logical ≤ 1 <<< 20) →
      ∃ own other,
        dev.step (.writeZeroes offset len) (dev.after Chunks.empty ops) = (.ok (), own) ∧
        Prog.run dev.step (writeZeroesFrom offset len 0) (dev.after Chunks.empty ops) =
          (.ok (), other) ∧
        ∀ (later : List DevOp) (off n : ℕ), (dev.step (.readAt off n) (dev.after own later)).1 =
          (dev.step (.readAt off n) (dev.after other later)).1

section Runs

variable {dev : MemDevice} {m m' : Chunks} {d : Disk} {offset len : ℕ}

/-- After any calls the chunks hold what the flat array does. -/
lemma after_lockstep (hpos : 0 < dev.logical) (hreach : dev.reach ≤ 2 ^ 64 - memChunk)
    (h : Shows m d) (ops : List DevOp) : Shows (dev.after m ops) (dev.flatAfter d ops) := by
  induction ops generalizing m d with
  | nil => exact h
  | cons op ops ih => exact ih (step_lockstep hpos hreach op h).2

/-- A call that fails changes nothing. -/
lemma step_kept {op : DevOp} {e : Fault Error} (h : (dev.step op m).1 = .error e) :
    (dev.step op m).2 = m := by
  cases op with
  | readAt off len =>
      rw [step]
      split <;> rfl
  | writeAt off buf =>
      rw [step] at h ⊢
      split at h
      · cases h
      · rfl
  | writeZeroes off len =>
      rw [step] at h ⊢
      split at h
      · cases h
      · rfl
      · rfl
  | flush => rfl

/-- The trait's zeroing on the flat array zeroes what is left of the range. -/
lemma run_writeZeroesFrom (hoff : offset + len ≤ dev.size)
    (hsector : dev.strict = true → dev.logical ∣ offset ∧ dev.logical ∣ len ∧
      dev.logical ∣ 1 <<< 20) :
    ∀ done ≤ len, (dev.strict = true → dev.logical ∣ done) →
      Prog.run dev.flatStep (writeZeroesFrom offset len done) d =
        (.ok (), d.put (offset + done) (List.replicate (len - done) 0)) := by
  intro done
  induction done using writeZeroesFrom.induct len generalizing d with
  | case1 done hlt n =>
      rename_i ih
      intro _ hdone
      have hn : 0 < n ∧ n ≤ len - done := by omega
      have hdvd : dev.strict = true → dev.logical ∣ n := fun hstrict => by
        obtain ⟨-, hlen, hpiece⟩ := hsector hstrict
        obtain heq | heq | heq : n = len - done ∨ n = 1 <<< 20 ∨ n = len := by
          have hshift : 1 <<< 20 = 1048576 := rfl
          omega
        · rw [heq]
          exact Nat.dvd_sub hlen (hdone hstrict)
        · rwa [heq]
        · rwa [heq]
      have hsize := dev.size_lt
      have hadmits : dev.Admits (offset + done) (List.replicate n (0 : UInt8)).length := by
        rw [List.length_replicate]
        exact ⟨by omega, fun hstrict =>
          ⟨Nat.dvd_add (hsector hstrict).1 (hdone hstrict), hdvd hstrict⟩⟩
      have hstep : dev.flatStep (.writeAt (offset + done) (List.replicate n 0)) d =
          (.ok (), d.put (offset + done) (List.replicate n 0)) := flatStep_of_admits hadmits
      have hwrite : Prog.run dev.flatStep (writeAt (offset + done) (List.replicate n 0)) d =
          (.ok (), d.put (offset + done) (List.replicate n 0)) := (Prog.run_lift _).trans hstep
      have hfit : (fit 64 (offset + done) : Exec ℕ) = .ok (offset + done) := fit_of_lt (by omega)
      rw [writeZeroesFrom, if_pos hlt]
      dsimp only
      rw [hfit]
      refine (Prog.run_bind_ok hwrite).trans ((ih (by omega) fun hstrict =>
        Nat.dvd_add (hdone hstrict) (hdvd hstrict)).trans ?_)
      have hnext : offset + (done + n) = offset + done + (List.replicate n (0 : UInt8)).length := by
        rw [List.length_replicate, Nat.add_assoc]
      have hsum : n + (len - (done + n)) = len - done := by omega
      rw [hnext, Disk.put_put, List.replicate_append_replicate, hsum]
  | case2 done hge =>
      intro hle _
      have hnone : len - done = 0 := by omega
      rw [writeZeroesFrom, if_neg hge, hnone, List.replicate_zero, Disk.put_nil]
      rfl

/-- **Below the last chunk of the address space the device refines the flat array.** -/
theorem refines_of_reach (hpos : 0 < dev.logical) (hreach : dev.reach ≤ 2 ^ 64 - memChunk) :
    dev.Refines := by
  have hshows : ∀ ops, Shows (dev.after Chunks.empty ops) (dev.flatAfter Disk.blank ops) :=
    after_lockstep hpos hreach fun _ => rfl
  refine ⟨fun ops op => (step_lockstep hpos hreach op (hshows ops)).1,
    fun ops op e he => step_kept he, fun ops offset len hadmits hpow => ?_⟩
  -- Both zeroings leave chunks that hold the flat array with the range put to zeroes.
  let d' := (dev.flatAfter Disk.blank ops).put offset (List.replicate len 0)
  have hflat : dev.flatStep (.writeZeroes offset len) (dev.flatAfter Disk.blank ops) = (.ok (), d') :=
    flatStep_of_admits hadmits
  have hown := step_lockstep hpos hreach (.writeZeroes offset len) (hshows ops)
  rw [hflat] at hown
  have hsector : dev.strict = true → dev.logical ∣ offset ∧ dev.logical ∣ len ∧
      dev.logical ∣ 1 <<< 20 := fun hstrict => by
    obtain ⟨k, hk⟩ := (hpow hstrict).1
    have hle := (hpow hstrict).2
    rw [hk, Nat.one_shiftLeft] at hle ⊢
    rw [← hk]
    refine ⟨(hadmits.2 hstrict).1, (hadmits.2 hstrict).2, ?_⟩
    rw [hk]
    exact Nat.pow_dvd_pow 2 ((Nat.pow_le_pow_iff_right (by norm_num)).1 hle)
  have hrun := run_writeZeroesFrom (d := dev.flatAfter Disk.blank ops) hadmits.1 hsector 0
    (Nat.zero_le _) fun _ => dvd_zero _
  rw [Nat.add_zero, Nat.sub_zero] at hrun
  have hother := Prog.run_lockstep (p := writeZeroesFrom offset len 0) (R := Shows)
    (fun op s t hst => step_lockstep hpos hreach op hst) (hshows ops)
  rw [hrun] at hother
  refine ⟨_, _, Prod.ext hown.1 rfl, Prod.ext hother.1 rfl, fun later off n => ?_⟩
  rw [(step_lockstep hpos hreach _ (after_lockstep hpos hreach hown.2 later)).1,
    (step_lockstep hpos hreach _ (after_lockstep hpos hreach hother.2 later)).1]

/-- A run over chunks that succeeds did at every one of them. -/
lemma foldlM_eq_ok {f : Chunks → ℕ → Exec Chunks} {k : ℕ} : ∀ {ks : List ℕ} {m m' : Chunks},
    ks.foldlM f m = .ok m' → k ∈ ks → ∃ m₁ m₂, f m₁ k = .ok m₂
  | [], _, _, _, hk => absurd hk List.not_mem_nil
  | k' :: ks, m, m', h, hk => by
      rw [List.foldlM_cons, bind_eq_ok] at h
      obtain ⟨m₁, hfirst, hrest⟩ := h
      rcases List.mem_cons.1 hk with rfl | hk
      · exact ⟨m, m₁, hfirst⟩
      · exact foldlM_eq_ok hrest hk

/-- The end of the last chunk of the address space does not fit its word. -/
lemma zeroChunk_last (offset stop : ℕ) (m : Chunks) :
    Chunks.zeroChunk offset stop m (2 ^ 48 - 1) = .error .panic := by
  have hc : memChunk = 65536 := rfl
  rw [Chunks.zeroChunk, hc, fit_of_lt (by norm_num), ok_bind]
  rfl

/-- A range whose last byte lies in that chunk is not zeroed when the chunk holds memory. -/
lemma zeroRange_last {last : ℕ} (hlast : offset ≤ last) (hlen : last < offset + len)
    (hplace : last / memChunk = 2 ^ 48 - 1) (hsome : (m (2 ^ 48 - 1)).isSome = true) :
    ∀ m', m.zeroRange offset len ≠ .ok m' := by
  intro m' h
  rw [Chunks.zeroRange, fit_bind_eq_ok] at h
  have hkey : 2 ^ 48 - 1 ∈ m.keys (offset / memChunk) (divCeil (offset + len) memChunk) := by
    rw [Chunks.mem_keys, divCeil, ← hplace]
    refine ⟨Nat.div_le_div_right hlast, ?_, by rw [hplace]; exact hsome⟩
    have hc : memChunk = 65536 := rfl
    rw [hc]
    omega
  obtain ⟨m₁, m₂, hchunk⟩ := foldlM_eq_ok h.2 hkey
  rw [zeroChunk_last] at hchunk
  cases hchunk

lemma reach_le (dev : MemDevice) : dev.reach ≤ dev.size := by
  rw [reach]
  split_ifs
  · exact Nat.div_mul_le_self _ _
  · exact le_rfl

/-- The last sector within reach, or the last byte of a device that takes any. -/
lemma exists_last_sector (hpos : 0 < dev.logical) (h : 0 < dev.reach) :
    ∃ u, 0 < u ∧ u ≤ dev.reach ∧ dev.Admits (dev.reach - u) u := by
  have hle := dev.reach_le
  by_cases hstrict : dev.strict = true
  · have hreach : dev.reach = dev.size / dev.logical * dev.logical := if_pos hstrict
    have hdvd : dev.logical ∣ dev.reach := by
      rw [hreach]
      exact Dvd.intro_left _ rfl
    have hlogical := Nat.le_of_dvd h hdvd
    exact ⟨dev.logical, hpos, hlogical, by omega, fun _ =>
      ⟨Nat.dvd_sub hdvd (dvd_refl _), dvd_refl _⟩⟩
  · exact ⟨1, by norm_num, h, by omega, fun hs => absurd hs hstrict⟩

/-- Past it the device does not: a byte written there and zeroed again makes it panic. -/
theorem not_refines_of_reach (hpos : 0 < dev.logical) (hreach : 2 ^ 64 - memChunk < dev.reach) :
    ¬ dev.Refines := by
  have hc : memChunk = 65536 := rfl
  have hsize := dev.size_lt
  have hle := dev.reach_le
  obtain ⟨u, hu, hur, hadmits⟩ := exists_last_sector hpos (by omega : 0 < dev.reach)
  intro href
  let ops := [DevOp.writeAt (dev.reach - u) (List.replicate u 1)]
  have hadmits' : dev.Admits (dev.reach - u) (List.replicate u (1 : UInt8)).length := by
    rwa [List.length_replicate]
  have hafter : dev.after Chunks.empty ops =
      Chunks.copyIn Chunks.empty (dev.reach - u) (List.replicate u 1) := by
    have hadmit := checkCall_of_admits hpos hadmits'
    change (dev.step _ Chunks.empty).2 = _
    rw [step, hadmit]
  have hplace : (dev.reach - 1) / memChunk = 2 ^ 48 - 1 := by
    rw [hc] at hreach ⊢
    omega
  have hsome : (dev.after Chunks.empty ops (2 ^ 48 - 1)).isSome = true := by
    rw [Option.isSome_iff_ne_none]
    intro hnone
    have hzero : (dev.after Chunks.empty ops).byte (dev.reach - 1) = 0 :=
      Chunks.byte_of_none (by rw [hplace]; exact hnone)
    have hread : byteAt (List.replicate u (1 : UInt8)) (dev.reach - 1 - (dev.reach - u)) = 1 := by
      rw [byteAt, List.getElem?_replicate, if_pos (by omega)]
      rfl
    rw [hafter, Chunks.byte_copyIn, List.length_replicate, if_pos (by omega), hread] at hzero
    exact absurd hzero (by decide)
  have hanswer := href.answers ops (.writeZeroes (dev.reach - u) u)
  have hflat : dev.flatStep (.writeZeroes (dev.reach - u) u) (dev.flatAfter Disk.blank ops) =
      (.ok (), _) := flatStep_of_admits hadmits
  rw [hflat] at hanswer
  have hadmit := checkCall_of_admits hpos hadmits
  rw [step, hadmit] at hanswer
  rcases hzero : (dev.after Chunks.empty ops).zeroRange (dev.reach - u) u with e | m'
  · rw [hzero] at hanswer
    cases hanswer
  · exact zeroRange_last (by omega) (by omega) hplace hsome m' hzero

/-- **The device refines the flat array exactly when its last chunk is not the last of the
address space**, or is out of reach. -/
theorem refines_iff (dev : MemDevice) (hpos : 0 < dev.logical) :
    dev.Refines ↔ dev.reach ≤ 2 ^ 64 - memChunk := by
  refine ⟨fun href => ?_, refines_of_reach hpos⟩
  by_contra hlt
  exact not_refines_of_reach hpos (Nat.not_le.1 hlt) href

end Runs

/-- A device as large as its size can tell. -/
def largest : MemDevice := ⟨2 ^ 64 - 1, 512, false, by norm_num⟩

/-- It panics: the end of its last chunk does not fit its word. -/
theorem not_refines_largest : ¬ largest.Refines :=
  not_refines_of_reach (by norm_num [largest]) (by norm_num [largest, reach, memChunk])

/-- A strict device of a pebibyte refines its array. -/
theorem refines_pebibyte : 0 < 4096 ∧
    (⟨2 ^ 50, 4096, true, by decide⟩ : MemDevice).Refines :=
  ⟨by norm_num, (refines_iff ⟨2 ^ 50, 4096, true, by decide⟩ (by norm_num)).2
    (by norm_num [reach, memChunk])⟩

end MemDevice

end MkfsXfs
