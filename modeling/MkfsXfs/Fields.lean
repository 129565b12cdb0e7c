import MkfsXfs.Crc
import MkfsXfs.Error

/-!
Structures laid out as fields: a field is an offset and the bytes that stand there.

* `Field`, `putFields`: the fields of a structure, written one after the other.
* `Ascending`: every field ends before the next begins, which `ascending_of_places` reads off
  the offsets and lengths alone.
* `byteAt_putFields_of_mem`, `be32_putFields` and their kin: a field of an ascending
  structure is read back.  `byteAt_putFields_of_not_mem`: the bytes outside every field are
  as they were.
* `read_putFields`: a field as a slice; `onSlice_putFields`, `copyInto_putFields`: a structure
  filled from the start gains a field.
* `stampFields`: the fields and a checksum, with the same lemmas.
* `packRecs`: records of one size, one after the other.
* `copyInto`, `onSlice`: a slice copied over another or rewritten, a panic when it does not
  fit.  `KeepsBelow`: what they leave.
-/

namespace MkfsXfs

/-- A field: where it stands and its bytes. -/
structure Field where
  off : ℕ
  data : Buf
  deriving DecidableEq, Repr

namespace Field

/-- A byte. -/
def u8 (off v : ℕ) : Field := ⟨off, [UInt8.ofNat v]⟩

/-- A big-endian `u16`. -/
def u16 (off v : ℕ) : Field := ⟨off, toBeBytes 2 v⟩

/-- A big-endian `u32`. -/
def u32 (off v : ℕ) : Field := ⟨off, toBeBytes 4 v⟩

/-- A big-endian `u64`. -/
def u64 (off v : ℕ) : Field := ⟨off, toBeBytes 8 v⟩

/-- The end of the field. -/
def past (f : Field) : ℕ := f.off + f.data.length

/-- Where the field stands: its offset and its length. -/
def place (f : Field) : ℕ × ℕ := (f.off, f.data.length)

variable {off v : ℕ} {data : Buf}

@[simp] lemma place_u8 : (u8 off v).place = (off, 1) := rfl

@[simp] lemma place_u16 : (u16 off v).place = (off, 2) := rfl

@[simp] lemma place_u32 : (u32 off v).place = (off, 4) := rfl

@[simp] lemma place_u64 : (u64 off v).place = (off, 8) := rfl

@[simp] lemma place_mk : (⟨off, data⟩ : Field).place = (off, data.length) := rfl

lemma past_eq (f : Field) : f.past = f.place.1 + f.place.2 := rfl

end Field

/-- Write the fields, one after the other. -/
def putFields (b : Buf) (fs : List Field) : Buf := fs.foldl (fun b f => splice b f.off f.data) b

/-- `b[off..off + data.len()].copy_from_slice(data)`, a panic when the slice does not fit. -/
def copyInto (b : Buf) (off : ℕ) (data : Buf) : Exec Buf :=
  if off + data.length ≤ b.length then .ok (splice b off data) else .error .panic

/-- `&mut b[off..off + len]` handed to `f`, a panic when the slice is out of range. -/
def onSlice (b : Buf) (off len : ℕ) (f : Buf → Exec Buf) : Exec Buf :=
  if off + len ≤ b.length then do
    let s ← f ((b.drop off).take len)
    return splice b off s
  else .error .panic

lemma length_onSlice {b b' : Buf} {off len : ℕ} {f : Buf → Exec Buf}
    (h : onSlice b off len f = .ok b') : b'.length = b.length := by
  rw [onSlice] at h
  split_ifs at h
  obtain ⟨s, -, h⟩ := Checked.bind_eq_ok.mp h
  rw [← Except.ok.inj h, length_splice]

section Keeps

variable {b b' c data : Buf} {off len m : ℕ} {f : Buf → Exec Buf}

/-- The buffer has the length of `b`, and its first `m` bytes. -/
def KeepsBelow (m : ℕ) (b b' : Buf) : Prop :=
  b'.length = b.length ∧ ∀ i < m, byteAt b' i = byteAt b i

lemma KeepsBelow.trans (h : KeepsBelow m b b') (h' : KeepsBelow m b' c) : KeepsBelow m b c :=
  ⟨h'.1.trans h.1, fun i hi => (h'.2 i hi).trans (h.2 i hi)⟩

lemma keepsBelow_onSlice (h : onSlice b off len f = .ok b') (hm : m ≤ off) :
    KeepsBelow m b b' := by
  refine ⟨length_onSlice h, fun i hi => ?_⟩
  rw [onSlice] at h
  split_ifs at h
  obtain ⟨s, -, h⟩ := Checked.bind_eq_ok.mp h
  rw [← Except.ok.inj h, byteAt_splice_of_not_mem (.inl (hi.trans_le hm))]

lemma keepsBelow_copyInto (h : copyInto b off data = .ok b') (hm : m ≤ off) :
    KeepsBelow m b b' := by
  rw [copyInto] at h
  split_ifs at h
  rw [← Except.ok.inj h]
  exact ⟨length_splice, fun i hi => byteAt_splice_of_not_mem (.inl (hi.trans_le hm))⟩

end Keeps

/-- Every field ends before the next begins. -/
def Ascending (fs : List Field) : Prop := fs.Pairwise fun f f' => f.past ≤ f'.off

section Fields

variable {b : Buf} {f : Field} {fs fs' : List Field} {i off v : ℕ}

@[simp] lemma putFields_nil : putFields b [] = b := rfl

lemma putFields_cons : putFields b (f :: fs) = putFields (splice b f.off f.data) fs := rfl

lemma putFields_append : putFields b (fs ++ fs') = putFields (putFields b fs) fs' :=
  List.foldl_append

@[simp] lemma length_putFields : (putFields b fs).length = b.length := by
  induction fs generalizing b with
  | nil => rfl
  | cons f fs ih => rw [putFields_cons, ih, length_splice]

/-- Fields are in order when their places are. -/
lemma ascending_of_places
    (h : (fs.map Field.place).IsChain fun p q => p.1 + p.2 ≤ q.1) : Ascending fs := by
  induction fs with
  | nil => exact List.Pairwise.nil
  | cons f fs ih =>
      rw [List.map_cons] at h
      have htail : Ascending fs := ih h.tail
      refine List.pairwise_cons.2 ⟨fun f' hf' => ?_, htail⟩
      cases fs with
      | nil => cases hf'
      | cons g gs =>
          have hfg : f.past ≤ g.off := (List.isChain_cons_cons.1 h).1
          rcases List.mem_cons.1 hf' with rfl | hmem
          · exact hfg
          · have hgf : g.past ≤ f'.off := (List.pairwise_cons.1 htail).1 f' hmem
            exact hfg.trans ((Nat.le_add_right _ _).trans hgf)

/-- A byte outside every field is as it was. -/
lemma byteAt_putFields_of_not_mem (h : ∀ f ∈ fs, i < f.off ∨ f.past ≤ i) :
    byteAt (putFields b fs) i = byteAt b i := by
  induction fs generalizing b with
  | nil => rfl
  | cons f fs ih =>
      rw [putFields_cons, ih fun f' hf' => h f' (List.mem_cons_of_mem f hf'),
        byteAt_splice_of_not_mem (h f List.mem_cons_self)]

/-- **A field of an ascending structure is read back.** -/
lemma byteAt_putFields_of_mem (hfs : Ascending fs) (hf : f ∈ fs) (hi : i < f.data.length)
    (hb : f.past ≤ b.length) : byteAt (putFields b fs) (f.off + i) = byteAt f.data i := by
  have hpast : f.past = f.off + f.data.length := rfl
  induction fs generalizing b with
  | nil => cases hf
  | cons g gs ih =>
      obtain ⟨hg, hgs⟩ := List.pairwise_cons.1 hfs
      rcases List.mem_cons.1 hf with rfl | hmem
      · -- the later fields begin past this one
        have hlater : ∀ f' ∈ gs, f.off + i < f'.off ∨ f'.past ≤ f.off + i := fun f' hf' => by
          have hle : f.past ≤ f'.off := hg f' hf'
          exact .inl (by omega)
        rw [putFields_cons, byteAt_putFields_of_not_mem hlater,
          byteAt_splice_of_mem (by omega) (by omega) (by omega), Nat.add_sub_cancel_left]
      · rw [putFields_cons]
        exact ih hgs hmem (by rwa [length_splice])

/-- A single byte is read back. -/
lemma byteAt_putFields (hfs : Ascending fs) (hf : Field.u8 off v ∈ fs) (hb : off + 1 ≤ b.length) :
    byteAt (putFields b fs) off = UInt8.ofNat v := by
  have hread := byteAt_putFields_of_mem hfs hf Nat.one_pos hb
  exact hread

lemma be16_putFields (hfs : Ascending fs) (hf : Field.u16 off v ∈ fs) (hv : v < 2 ^ 16)
    (hb : off + 2 ≤ b.length) : be16 (putFields b fs) off = v := by
  have h₀ : byteAt (putFields b fs) off = byteAt (toBeBytes 2 v) 0 :=
    byteAt_putFields_of_mem hfs hf (Nat.zero_lt_two) hb
  have h₁ : byteAt (putFields b fs) (off + 1) = byteAt (toBeBytes 2 v) 1 :=
    byteAt_putFields_of_mem hfs hf (Nat.one_lt_two) hb
  rw [be16, h₀, h₁]
  simp only [toBeBytes, byteAt, List.getElem?_cons_zero, List.getElem?_cons_succ,
    Option.getD_some, Nat.reducePow, Nat.div_one, UInt8.toNat_ofNat']
  omega

lemma be32_putFields (hfs : Ascending fs) (hf : Field.u32 off v ∈ fs) (hv : v < 2 ^ 32)
    (hb : off + 4 ≤ b.length) : be32 (putFields b fs) off = v := by
  have hread : be32 (putFields b fs) off = be32 (toBeBytes 4 v) 0 := be32_congr fun k hk => by
    rw [Nat.zero_add]
    exact byteAt_putFields_of_mem hfs hf (by rwa [Field.u32, length_toBeBytes]) hb
  rw [hread, be32_toBeBytes hv]

lemma be64_putFields (hfs : Ascending fs) (hf : Field.u64 off v ∈ fs) (hv : v < 2 ^ 64)
    (hb : off + 8 ≤ b.length) : be64 (putFields b fs) off = v := by
  have hread : be64 (putFields b fs) off = be64 (toBeBytes 8 v) 0 := be64_congr fun k hk => by
    rw [Nat.zero_add]
    exact byteAt_putFields_of_mem hfs hf (by rwa [Field.u64, length_toBeBytes]) hb
  rw [hread, be64_toBeBytes hv]

/-- **A field of an ascending structure is read back as a slice.** -/
lemma read_putFields (hfs : Ascending fs) (hf : f ∈ fs) (hb : f.past ≤ b.length) :
    ((putFields b fs).drop f.off).take f.data.length = f.data := by
  have hpast : f.past = f.off + f.data.length := rfl
  have hlen : (((putFields b fs).drop f.off).take f.data.length).length = f.data.length := by
    rw [List.length_take, List.length_drop, length_putFields]
    omega
  refine Buf.ext hlen fun i hi => ?_
  rw [hlen] at hi
  rw [byteAt_take hi, byteAt_drop, byteAt_putFields_of_mem hfs hf hi hb]

end Fields

/-! ### A structure filled from the start -/

section Fill

variable {n len off : ℕ} {data s : Buf} {fs : List Field} {f : Buf → Exec Buf}

/-- What follows the fields written so far is still zero. -/
lemma drop_putFields_zeros (hfs : ∀ f ∈ fs, f.past ≤ off) (hn : off + len ≤ n) :
    ((putFields (List.replicate n 0) fs).drop off).take len = List.replicate len 0 := by
  have hlen : (((putFields (List.replicate n 0) fs).drop off).take len).length = len := by
    rw [List.length_take, List.length_drop, length_putFields, List.length_replicate]
    omega
  refine Buf.ext (by rw [hlen, List.length_replicate]) fun i hi => ?_
  rw [hlen] at hi
  rw [byteAt_take hi, byteAt_drop, byteAt_replicate_zero, byteAt_putFields_of_not_mem,
    byteAt_replicate_zero]
  exact fun f hf => .inr ((hfs f hf).trans (Nat.le_add_right _ _))

/-- Rewriting a slice past the fields adds a field. -/
lemma onSlice_putFields (hfs : ∀ f ∈ fs, f.past ≤ off) (hn : off + len ≤ n)
    (hf : f (List.replicate len 0) = .ok s) :
    onSlice (putFields (List.replicate n 0) fs) off len f
      = .ok (putFields (List.replicate n 0) (fs ++ [⟨off, s⟩])) := by
  have hlen : off + len ≤ (putFields (List.replicate n 0) fs).length := by
    rwa [length_putFields, List.length_replicate]
  rw [onSlice, if_pos hlen, drop_putFields_zeros hfs hn, hf, putFields_append]
  rfl

/-- Copying a slice adds a field. -/
lemma copyInto_putFields (hn : off + data.length ≤ n) :
    copyInto (putFields (List.replicate n 0) fs) off data
      = .ok (putFields (List.replicate n 0) (fs ++ [⟨off, data⟩])) := by
  rw [copyInto, length_putFields, List.length_replicate, if_pos hn, putFields_append]
  rfl

end Fill

/-! ### Stamped structures -/

/-- Write the fields of a structure and stamp its checksum at `crc`. -/
def stampFields (b : Buf) (fs : List Field) (crc : ℕ) : Buf := Crc.stamp (putFields b fs) crc

section Stamped

variable {b : Buf} {f : Field} {fs : List Field} {crc i off v : ℕ}

@[simp] lemma length_stampFields : (stampFields b fs crc).length = b.length := by
  rw [stampFields, Crc.length_stamp, length_putFields]

/-- The checksum of a stamped structure verifies. -/
lemma verify_stampFields (h : crc + 4 ≤ b.length) :
    Crc.verify (stampFields b fs crc) crc = true :=
  Crc.verify_stamp (by rwa [length_putFields])

/-- Stamping changes the checksum's four bytes only. -/
lemma byteAt_stampFields (h : i < crc ∨ crc + 4 ≤ i) :
    byteAt (stampFields b fs crc) i = byteAt (putFields b fs) i :=
  byteAt_splice_of_not_mem (by simpa using h)

/-- A byte outside every field and the checksum is as it was. -/
lemma byteAt_stampFields_of_places
    (h : ∀ p ∈ fs.map Field.place, i < p.1 ∨ p.1 + p.2 ≤ i) (hc : i < crc ∨ crc + 4 ≤ i) :
    byteAt (stampFields b fs crc) i = byteAt b i := by
  rw [byteAt_stampFields hc]
  exact byteAt_putFields_of_not_mem fun f hf => h f.place (List.mem_map_of_mem hf)

/-- A field apart from the checksum is read back. -/
lemma byteAt_stampFields_of_mem (hfs : Ascending fs) (hf : f ∈ fs) (hi : i < f.data.length)
    (hb : f.past ≤ b.length) (hc : f.past ≤ crc ∨ crc + 4 ≤ f.off) :
    byteAt (stampFields b fs crc) (f.off + i) = byteAt f.data i := by
  have hpast : f.past = f.off + f.data.length := rfl
  rw [byteAt_stampFields (by omega), byteAt_putFields_of_mem hfs hf hi hb]

/-- A field apart from the checksum is read back as a slice. -/
lemma read_stampFields (hfs : Ascending fs) (hf : f ∈ fs) (hb : f.past ≤ b.length)
    (hc : f.past ≤ crc ∨ crc + 4 ≤ f.off) :
    ((stampFields b fs crc).drop f.off).take f.data.length = f.data := by
  have hpast : f.past = f.off + f.data.length := rfl
  have hlen : (((stampFields b fs crc).drop f.off).take f.data.length).length
      = f.data.length := by
    rw [List.length_take, List.length_drop, length_stampFields]
    omega
  refine Buf.ext hlen fun i hi => ?_
  rw [hlen] at hi
  rw [byteAt_take hi, byteAt_drop, byteAt_stampFields_of_mem hfs hf hi hb hc]

lemma byteAt_stampFields_u8 (hfs : Ascending fs) (hf : Field.u8 off v ∈ fs)
    (hb : off + 1 ≤ b.length) (hc : off + 1 ≤ crc ∨ crc + 4 ≤ off) :
    byteAt (stampFields b fs crc) off = UInt8.ofNat v := by
  rw [byteAt_stampFields (by omega), byteAt_putFields hfs hf hb]

lemma be16_stampFields (hfs : Ascending fs) (hf : Field.u16 off v ∈ fs) (hv : v < 2 ^ 16)
    (hb : off + 2 ≤ b.length) (hc : off + 2 ≤ crc ∨ crc + 4 ≤ off) :
    be16 (stampFields b fs crc) off = v :=
  (be16_splice_of_disjoint (by simpa using hc)).trans (be16_putFields hfs hf hv hb)

lemma be32_stampFields (hfs : Ascending fs) (hf : Field.u32 off v ∈ fs) (hv : v < 2 ^ 32)
    (hb : off + 4 ≤ b.length) (hc : off + 4 ≤ crc ∨ crc + 4 ≤ off) :
    be32 (stampFields b fs crc) off = v :=
  (be32_splice_of_disjoint (by simpa using hc)).trans (be32_putFields hfs hf hv hb)

lemma be64_stampFields (hfs : Ascending fs) (hf : Field.u64 off v ∈ fs) (hv : v < 2 ^ 64)
    (hb : off + 8 ≤ b.length) (hc : off + 8 ≤ crc ∨ crc + 4 ≤ off) :
    be64 (stampFields b fs crc) off = v :=
  (be64_splice_of_disjoint (by simpa using hc)).trans (be64_putFields hfs hf hv hb)

end Stamped

/-! ### Records -/

/-- Records of `size` bytes one after the other, each written by its fields at the record's
offset. -/
def packRecs {α : Type} (size : ℕ) (fields : α → ℕ → List Field) (recs : List α) : Buf :=
  putFields (List.replicate (recs.length * size) 0)
    (recs.zipIdx.flatMap fun r => fields r.1 (r.2 * size))

section Records

variable {α : Type} {size : ℕ} {fields : α → ℕ → List Field} {recs : List α}

@[simp] lemma length_packRecs : (packRecs size fields recs).length = recs.length * size := by
  rw [packRecs, length_putFields, List.length_replicate]

/-- Fields in order within their records are in order. -/
lemma ascending_packRecs (hasc : ∀ r o, Ascending (fields r o))
    (hin : ∀ r o, ∀ f ∈ fields r o, o ≤ f.off ∧ f.past ≤ o + size) :
    Ascending (recs.zipIdx.flatMap fun r => fields r.1 (r.2 * size)) := by
  have horder : recs.zipIdx.Pairwise fun r r' => r.2 < r'.2 := by
    rw [List.pairwise_iff_getElem]
    intro i j hi hj hij
    simpa using hij
  refine List.pairwise_flatMap.2 ⟨fun r _ => hasc r.1 (r.2 * size), horder.imp ?_⟩
  intro r r' hlt f hf f' hf'
  have h₁ := (hin r.1 _ f hf).2
  have h₂ := (hin r'.1 _ f' hf').1
  have hle : (r.2 + 1) * size ≤ r'.2 * size := Nat.mul_le_mul_right _ hlt
  rw [Nat.succ_mul] at hle
  omega

/-- A field of a record is found at the record's offset. -/
lemma mem_packRecs {i : ℕ} {r : α} {f : Field} (hr : recs[i]? = some r)
    (hf : f ∈ fields r (i * size)) :
    f ∈ recs.zipIdx.flatMap fun r => fields r.1 (r.2 * size) :=
  List.mem_flatMap.2 ⟨(r, i), List.mem_zipIdx_iff_getElem?.2 hr, hf⟩

end Records

end MkfsXfs
