import Mathlib.Tactic

/-!
Field access in byte buffers (`src/bytes.rs`).

* `be16`, `be32`, `be64`, `le32`: the fields read.  A byte past the end reads as zero here
  where the source panics; the code that reads from a buffer of unknown length checks it
  first (`Geo.parse`).
* `put16`, `put32`, `put64`: the fields written, through `splice`, the copy of a slice over
  another.
* `be32_put32`, `be32_splice_of_disjoint` and their kin: a field written is read back, a
  field elsewhere is untouched.
-/

namespace MkfsXfs

/-- A byte buffer. -/
abbrev Buf := List UInt8

/-- The byte at `i`, zero past the end. -/
def byteAt (b : Buf) (i : ℕ) : UInt8 := b[i]?.getD 0

/-- Read a big-endian `u16` at `off`. -/
def be16 (b : Buf) (off : ℕ) : ℕ :=
  (byteAt b off).toNat * 2 ^ 8 + (byteAt b (off + 1)).toNat

/-- Read a big-endian `u32` at `off`. -/
def be32 (b : Buf) (off : ℕ) : ℕ := be16 b off * 2 ^ 16 + be16 b (off + 2)

/-- Read a big-endian `u64` at `off`. -/
def be64 (b : Buf) (off : ℕ) : ℕ := be32 b off * 2 ^ 32 + be32 b (off + 4)

/-- Read a little-endian `u32` at `off` (a CRC field). -/
def le32 (b : Buf) (off : ℕ) : ℕ :=
  (byteAt b off).toNat + (byteAt b (off + 1)).toNat * 2 ^ 8 +
    (byteAt b (off + 2)).toNat * 2 ^ 16 + (byteAt b (off + 3)).toNat * 2 ^ 24

/-- `b[off..off + len].copy_from_slice(data)`, `len` the length of `data`; of a slice that
does not fit, what fits. -/
def splice : Buf → ℕ → Buf → Buf
  | [], _, _ => []
  | x :: b, off + 1, data => x :: splice b off data
  | x :: b, 0, [] => x :: b
  | _ :: b, 0, y :: data => y :: splice b 0 data

/-- The `n` low bytes of `v`, most significant first. -/
def toBeBytes : ℕ → ℕ → Buf
  | 0, _ => []
  | n + 1, v => UInt8.ofNat (v / 256 ^ n) :: toBeBytes n v

/-- The `n` low bytes of `v`, least significant first. -/
def toLeBytes : ℕ → ℕ → Buf
  | 0, _ => []
  | n + 1, v => UInt8.ofNat v :: toLeBytes n (v / 256)

/-- Write a big-endian `u16` at `off`. -/
def put16 (b : Buf) (off v : ℕ) : Buf := splice b off (toBeBytes 2 v)

/-- Write a big-endian `u32` at `off`. -/
def put32 (b : Buf) (off v : ℕ) : Buf := splice b off (toBeBytes 4 v)

/-- Write a big-endian `u64` at `off`. -/
def put64 (b : Buf) (off v : ℕ) : Buf := splice b off (toBeBytes 8 v)

/-! ### Bytes -/

variable {b c data : Buf} {i off o v n : ℕ}

@[simp] lemma length_toBeBytes : (toBeBytes n v).length = n := by
  induction n with
  | zero => rfl
  | succ n ih => rw [toBeBytes, List.length_cons, ih]

@[simp] lemma length_toLeBytes : (toLeBytes n v).length = n := by
  induction n generalizing v with
  | zero => rfl
  | succ n ih => rw [toLeBytes, List.length_cons, ih]

lemma byteAt_of_le (h : b.length ≤ i) : byteAt b i = 0 := by
  simp [byteAt, List.getElem?_eq_none h]

lemma byteAt_append_left (h : i < b.length) : byteAt (b ++ c) i = byteAt b i := by
  simp [byteAt, List.getElem?_append_left h]

lemma byteAt_append_right (h : b.length ≤ i) : byteAt (b ++ c) i = byteAt c (i - b.length) := by
  simp [byteAt, List.getElem?_append_right h]

@[simp] lemma byteAt_drop : byteAt (b.drop n) i = byteAt b (n + i) := by
  simp [byteAt, List.getElem?_drop]

lemma byteAt_take (h : i < n) : byteAt (b.take n) i = byteAt b i := by
  simp [byteAt, List.getElem?_take_of_lt h]

@[simp] lemma byteAt_replicate_zero : byteAt (List.replicate n 0) i = 0 := by
  rcases Nat.lt_or_ge i n with h | h
  · simp [byteAt, h]
  · simp [byteAt, Nat.not_lt.2 h]

/-- Buffers of one length with the same bytes are equal. -/
lemma Buf.ext (hlen : b.length = c.length) (h : ∀ i < b.length, byteAt b i = byteAt c i) :
    b = c := by
  refine List.ext_getElem hlen fun i hb hc => ?_
  have := h i hb
  simpa [byteAt, List.getElem?_eq_getElem hb, List.getElem?_eq_getElem hc] using this

@[simp] lemma byteAt_cons_zero (x : UInt8) : byteAt (x :: b) 0 = x := rfl

@[simp] lemma byteAt_cons_succ (x : UInt8) : byteAt (x :: b) (i + 1) = byteAt b i := rfl

/-! ### Splices -/

@[simp] lemma length_splice : (splice b off data).length = b.length := by
  induction b, off, data using splice.induct with
  | case1 => rfl
  | case2 x b off data ih => rw [splice, List.length_cons, ih, List.length_cons]
  | case3 => rfl
  | case4 x b y data ih => rw [splice, List.length_cons, ih, List.length_cons]

/-- Outside the slice nothing changes. -/
lemma byteAt_splice_of_not_mem (hi : i < off ∨ off + data.length ≤ i) :
    byteAt (splice b off data) i = byteAt b i := by
  induction b, off, data using splice.induct generalizing i with
  | case1 => rfl
  | case2 x b off data ih =>
      rw [splice]
      cases i with
      | zero => rfl
      | succ i => exact ih (by omega)
  | case3 => rfl
  | case4 x b y data ih =>
      rw [List.length_cons] at hi
      rw [splice]
      cases i with
      | zero => omega
      | succ i => exact ih (by omega)

/-- Inside the slice the copied bytes are read. -/
lemma byteAt_splice_of_mem (hl : off ≤ i) (hr : i < off + data.length) (hb : i < b.length) :
    byteAt (splice b off data) i = byteAt data (i - off) := by
  induction b, off, data using splice.induct generalizing i with
  | case1 => simp at hb
  | case2 x b off data ih =>
      rw [splice]
      cases i with
      | zero => omega
      | succ i =>
          rw [List.length_cons] at hb
          rw [byteAt_cons_succ, ih (by omega) (by omega) (by omega)]
          congr 1
          omega
  | case3 => simp at hr
  | case4 x b y data ih =>
      rw [List.length_cons] at hb hr
      rw [splice]
      cases i with
      | zero => rfl
      | succ i => exact ih (by omega) (by omega) (by omega)

/-- A splice depends on the byte it leaves. -/
lemma byteAt_splice_congr (hlen : b.length = c.length) (h : byteAt b i = byteAt c i) :
    byteAt (splice b off data) i = byteAt (splice c off data) i := by
  rcases Nat.lt_or_ge i b.length with hb | hb
  · by_cases hi : off ≤ i ∧ i < off + data.length
    · rw [byteAt_splice_of_mem hi.1 hi.2 hb, byteAt_splice_of_mem hi.1 hi.2 (by omega)]
    · rw [byteAt_splice_of_not_mem (by omega), byteAt_splice_of_not_mem (by omega), h]
  · rw [byteAt_of_le (by rwa [length_splice]), byteAt_of_le (by rw [length_splice]; omega)]

/-- Splices side by side commute. -/
lemma splice_comm {data' : Buf} (h : off + data.length ≤ o ∨ o + data'.length ≤ off) :
    splice (splice b off data) o data' = splice (splice b o data') off data := by
  refine Buf.ext (by simp) fun i hi => ?_
  rw [length_splice, length_splice] at hi
  by_cases h₁ : off ≤ i ∧ i < off + data.length
  · rw [byteAt_splice_of_not_mem (by omega), byteAt_splice_of_mem h₁.1 h₁.2 hi,
      byteAt_splice_of_mem h₁.1 h₁.2 (by rwa [length_splice])]
  · rw [byteAt_splice_of_not_mem (b := splice b o data') (by omega)]
    exact byteAt_splice_congr length_splice (byteAt_splice_of_not_mem (by omega))

/-- Of two splices of one slice the second stays. -/
lemma splice_splice {data' : Buf} (h : data.length = data'.length) :
    splice (splice b off data) off data' = splice b off data' := by
  refine Buf.ext (by simp) fun i hi => ?_
  rw [length_splice, length_splice] at hi
  by_cases h₁ : off ≤ i ∧ i < off + data'.length
  · rw [byteAt_splice_of_mem h₁.1 h₁.2 (by rwa [length_splice]),
      byteAt_splice_of_mem h₁.1 h₁.2 hi]
  · rw [byteAt_splice_of_not_mem (by omega), byteAt_splice_of_not_mem (by omega),
      byteAt_splice_of_not_mem (by omega)]

/-! ### Fields -/

lemma be16_lt : be16 b off < 2 ^ 16 := by
  have h₁ := (byteAt b off).toNat_lt
  have h₂ := (byteAt b (off + 1)).toNat_lt
  rw [be16]
  omega

lemma be32_lt : be32 b off < 2 ^ 32 := by
  have h₁ : be16 b off < 2 ^ 16 := be16_lt
  have h₂ : be16 b (off + 2) < 2 ^ 16 := be16_lt
  rw [be32]
  omega

/-- A `u32` depends on its four bytes only. -/
lemma be32_congr (h : ∀ k < 4, byteAt b (off + k) = byteAt c (o + k)) :
    be32 b off = be32 c o := by
  have h₀ := h 0 (by omega)
  have h₁ := h 1 (by omega)
  have h₂ := h 2 (by omega)
  have h₃ := h 3 (by omega)
  simp only [Nat.add_zero] at h₀
  simp only [be32, be16, Nat.add_assoc, Nat.reduceAdd, h₀, h₁, h₂, h₃]

lemma be64_congr (h : ∀ k < 8, byteAt b (off + k) = byteAt c (o + k)) :
    be64 b off = be64 c o := by
  have hl : be32 b off = be32 c o := be32_congr fun k hk => h k (by omega)
  have hr : be32 b (off + 4) = be32 c (o + 4) := be32_congr fun k hk => by
    rw [Nat.add_assoc, Nat.add_assoc]
    exact h (4 + k) (by omega)
  rw [be64, be64, hl, hr]

lemma le32_congr (h : ∀ k < 4, byteAt b (off + k) = byteAt c (o + k)) :
    le32 b off = le32 c o := by
  have h₀ := h 0 (by omega)
  simp only [Nat.add_zero] at h₀
  simp only [le32, h₀, h 1 (by omega), h 2 (by omega), h 3 (by omega)]

lemma be16_splice_of_disjoint (ho : o + 2 ≤ off ∨ off + data.length ≤ o) :
    be16 (splice b off data) o = be16 b o := by
  rw [be16, be16, byteAt_splice_of_not_mem (by omega), byteAt_splice_of_not_mem (by omega)]

lemma be32_splice_of_disjoint (ho : o + 4 ≤ off ∨ off + data.length ≤ o) :
    be32 (splice b off data) o = be32 b o :=
  be32_congr fun _ hk => byteAt_splice_of_not_mem (by omega)

lemma be64_splice_of_disjoint (ho : o + 8 ≤ off ∨ off + data.length ≤ o) :
    be64 (splice b off data) o = be64 b o :=
  be64_congr fun _ hk => byteAt_splice_of_not_mem (by omega)

lemma be32_toBeBytes (h : v < 2 ^ 32) : be32 (toBeBytes 4 v) 0 = v := by
  simp only [be32, be16, toBeBytes, byteAt, List.getElem?_cons_zero, List.getElem?_cons_succ,
    Option.getD_some, Nat.reduceAdd, Nat.reducePow, Nat.div_one, UInt8.toNat_ofNat']
  omega

lemma be64_toBeBytes (h : v < 2 ^ 64) : be64 (toBeBytes 8 v) 0 = v := by
  simp only [be64, be32, be16, toBeBytes, byteAt, List.getElem?_cons_zero,
    List.getElem?_cons_succ, Option.getD_some, Nat.reduceAdd, Nat.reducePow, Nat.div_one,
    UInt8.toNat_ofNat']
  omega

lemma le32_toLeBytes (h : v < 2 ^ 32) : le32 (toLeBytes 4 v) 0 = v := by
  simp only [le32, toLeBytes, byteAt, List.getElem?_cons_zero, List.getElem?_cons_succ,
    Option.getD_some, Nat.reduceAdd, Nat.reducePow, UInt8.toNat_ofNat']
  omega

@[simp] lemma length_put32 : (put32 b off v).length = b.length := length_splice

@[simp] lemma length_put64 : (put64 b off v).length = b.length := length_splice

/-- The `u32` written is read back. -/
lemma be32_put32 (h : off + 4 ≤ b.length) (hv : v < 2 ^ 32) : be32 (put32 b off v) off = v := by
  have hread : be32 (put32 b off v) off = be32 (toBeBytes 4 v) 0 := be32_congr fun k hk => by
    rw [put32, byteAt_splice_of_mem (by omega) (by simpa using hk) (by omega)]
    congr 1
    omega
  rw [hread, be32_toBeBytes hv]

/-- The `u64` written is read back. -/
lemma be64_put64 (h : off + 8 ≤ b.length) (hv : v < 2 ^ 64) : be64 (put64 b off v) off = v := by
  have hread : be64 (put64 b off v) off = be64 (toBeBytes 8 v) 0 := be64_congr fun k hk => by
    rw [put64, byteAt_splice_of_mem (by omega) (by simpa using hk) (by omega)]
    congr 1
    omega
  rw [hread, be64_toBeBytes hv]

lemma be32_put32_of_disjoint (ho : o + 4 ≤ off ∨ off + 4 ≤ o) :
    be32 (put32 b off v) o = be32 b o := be32_splice_of_disjoint (by simpa using ho)

lemma be64_put32_of_disjoint (ho : o + 8 ≤ off ∨ off + 4 ≤ o) :
    be64 (put32 b off v) o = be64 b o := be64_splice_of_disjoint (by simpa using ho)

lemma be32_put64_of_disjoint (ho : o + 4 ≤ off ∨ off + 8 ≤ o) :
    be32 (put64 b off v) o = be32 b o := be32_splice_of_disjoint (by simpa using ho)

lemma byteAt_put32_of_disjoint (hi : i < off ∨ off + 4 ≤ i) :
    byteAt (put32 b off v) i = byteAt b i := byteAt_splice_of_not_mem (by simpa using hi)

end MkfsXfs
