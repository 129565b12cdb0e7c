import MkfsXfs.Format.HeadLayout

/-!
The head of an AG read back as a dump reads it.

* `AllocRec.ofBytes`, `RmapRec.ofBytes`: records decoded.
* `ringSlots`: the slots of the free list in use.
* `RootRead`, `Root.read_image`: what a reader finds in the block of a root.
* `AgPlan.LaidOut`: the sectors and the roots of a head, as they were laid out.
* `AgPlan.HeadRead`, `agHead_headRead`: the plan is recovered from the head.
-/

namespace MkfsXfs

open Checked Inspect

/-- A free space record from its bytes. -/
def AllocRec.ofBytes (raw : Buf) : AllocRec := ⟨be32 raw 0, be32 raw 4⟩

/-- A reverse mapping record from its bytes. -/
def RmapRec.ofBytes (raw : Buf) : RmapRec := ⟨be32 raw 0, be32 raw 4, be64 raw 8⟩

instance : Std.Total AllocRec.sizeLe where
  total a b := by
    simp only [AllocRec.sizeLe]
    omega

instance : IsTrans AllocRec AllocRec.sizeLe where
  trans a b c := by
    simp only [AllocRec.sizeLe]
    omega

/-- The slots in use of a ring of `n`, from `first` to `last`. -/
def ringSlots (n first last : ℕ) : List ℕ :=
  (List.range ((last + n - first) % n + 1)).map fun i => (first + i) % n

/-- Block `block` of the head of an AG. -/
def headBlock (g : Geometry) (head : Buf) (block : ℕ) : Buf :=
  slice head (block * g.bs) ((block + 1) * g.bs)

/-- What a reader finds in the block `b` that a root pointer of the AG leads to. -/
structure RootRead (g : Geometry) (agno : ℕ) (t : Tree) (block : ℕ) (b : Buf) : Prop where
  apart : 4 * g.sectsize ≤ block * g.bs
  inside : block < g.preallocBlocks
  crc : Crc.verify b Btree.Off.crc = true
  magic : be32 b Btree.Off.magic = t.magic
  level : be16 b Btree.Off.level = 0
  owner : be32 b Btree.Off.owner = agno
  blkno : be64 b Btree.Off.blkno = g.agbToDaddr agno block

/-! ### Records -/

section Records

variable {α : Type} {size : ℕ} {fields : α → ℕ → List Field} {recs : List α}
  {decode : Buf → α}

/-- Records that decode one by one decode as a list. -/
lemma map_decode_packRecs
    (hdec : ∀ i r, recs[i]? = some r →
      decode (slice (packRecs size fields recs) (i * size) (i * size + size)) = r) :
    (List.range recs.length).map
      (fun i => decode (slice (packRecs size fields recs) (i * size) (i * size + size)))
      = recs := by
  refine List.ext_getElem? fun i => ?_
  rw [List.getElem?_map]
  by_cases hi : i < recs.length
  · rw [List.getElem?_range hi, Option.map_some, List.getElem?_eq_getElem hi,
      hdec i recs[i] (List.getElem?_eq_getElem hi)]
  · rw [List.getElem?_eq_none (by simpa using hi), List.getElem?_eq_none (by simpa using hi)]
    rfl

/-- Where a record lies among the others. -/
lemma record_le {i : ℕ} {r : α} (hr : recs[i]? = some r) :
    i * size + size ≤ recs.length * size := by
  obtain ⟨hi, -⟩ := List.getElem?_eq_some_iff.mp hr
  rw [← Nat.succ_mul]
  exact Nat.mul_le_mul_right _ hi

variable (hasc : ∀ r o, Ascending (fields r o))
    (hin : ∀ r o, ∀ f ∈ fields r o, o ≤ f.off ∧ f.past ≤ o + size)
include hasc hin

/-- A `u32` of a record is read back from its slice. -/
lemma be32_packRecs {i o v : ℕ} {r : α} (hr : recs[i]? = some r)
    (hf : Field.u32 (i * size + o) v ∈ fields r (i * size)) (hv : v < 2 ^ 32) :
    be32 (slice (packRecs size fields recs) (i * size) (i * size + size)) o = v := by
  have hle : i * size + o + 4 ≤ i * size + size := (hin r (i * size) _ hf).2
  have hrec := @record_le _ size _ _ _ hr
  rw [be32_slice (by omega), packRecs]
  exact be32_putFields (ascending_packRecs hasc hin) (mem_packRecs hr hf) hv
    (by rw [List.length_replicate]; omega)

/-- A byte of a record is read back from its slice. -/
lemma byteAt_packRecs {i o v : ℕ} {r : α} (hr : recs[i]? = some r)
    (hf : Field.u8 (i * size + o) v ∈ fields r (i * size)) :
    byteAt (slice (packRecs size fields recs) (i * size) (i * size + size)) o
      = UInt8.ofNat v := by
  have hle : i * size + o + 1 ≤ i * size + size := (hin r (i * size) _ hf).2
  have hrec := @record_le _ size _ _ _ hr
  rw [byteAt_slice (by omega), packRecs]
  exact byteAt_putFields (ascending_packRecs hasc hin) (mem_packRecs hr hf)
    (by rw [List.length_replicate]; omega)

/-- A `u16` of a record is read back from its slice. -/
lemma be16_packRecs {i o v : ℕ} {r : α} (hr : recs[i]? = some r)
    (hf : Field.u16 (i * size + o) v ∈ fields r (i * size)) (hv : v < 2 ^ 16) :
    be16 (slice (packRecs size fields recs) (i * size) (i * size + size)) o = v := by
  have hle : i * size + o + 2 ≤ i * size + size := (hin r (i * size) _ hf).2
  have hrec := @record_le _ size _ _ _ hr
  rw [be16_slice (by omega), packRecs]
  exact be16_putFields (ascending_packRecs hasc hin) (mem_packRecs hr hf) hv
    (by rw [List.length_replicate]; omega)

/-- A `u64` of a record is read back from its slice. -/
lemma be64_packRecs {i o v : ℕ} {r : α} (hr : recs[i]? = some r)
    (hf : Field.u64 (i * size + o) v ∈ fields r (i * size)) (hv : v < 2 ^ 64) :
    be64 (slice (packRecs size fields recs) (i * size) (i * size + size)) o = v := by
  have hle : i * size + o + 8 ≤ i * size + size := (hin r (i * size) _ hf).2
  have hrec := @record_le _ size _ _ _ hr
  rw [be64_slice (by omega), packRecs]
  exact be64_putFields (ascending_packRecs hasc hin) (mem_packRecs hr hf) hv
    (by rw [List.length_replicate]; omega)

end Records

/-- **Free space records decode to what was encoded.** -/
lemma decode_allocRecs {recs : List AllocRec}
    (hrecs : ∀ r ∈ recs, r.start < 2 ^ 32 ∧ r.count < 2 ^ 32) :
    (List.range recs.length).map (fun i => AllocRec.ofBytes (slice (Btree.allocRecs recs)
      (i * Btree.allocRec) (i * Btree.allocRec + Btree.allocRec))) = recs := by
  have hasc : ∀ (r : AllocRec) o, Ascending [Field.u32 o r.start, .u32 (o + 4) r.count] := by
    intro r o
    refine ascending_of_places ?_
    simp
  have hin : ∀ (r : AllocRec) o, ∀ f ∈ [Field.u32 o r.start, .u32 (o + 4) r.count],
      o ≤ f.off ∧ f.past ≤ o + Btree.allocRec := by
    intro r o f hf
    simp only [List.mem_cons, List.not_mem_nil, or_false] at hf
    rcases hf with rfl | rfl <;> rw [Field.past_eq] <;> simp [Field.u32, Btree.allocRec]
  refine map_decode_packRecs fun i r hr => ?_
  obtain ⟨hstart, hcount⟩ := hrecs r (List.mem_of_getElem? hr)
  rw [AllocRec.ofBytes, be32_packRecs hasc hin hr (by simp) hstart,
    be32_packRecs hasc hin hr (by simp) hcount]

/-- **Reverse mapping records decode to what was encoded.** -/
lemma decode_rmapRecs {recs : List RmapRec}
    (hrecs : ∀ r ∈ recs, r.start < 2 ^ 32 ∧ r.count < 2 ^ 32 ∧ r.owner < 2 ^ 64) :
    (List.range recs.length).map (fun i => RmapRec.ofBytes (slice (Btree.rmapRecs recs)
      (i * Btree.rmapRec) (i * Btree.rmapRec + Btree.rmapRec))) = recs := by
  have hasc : ∀ (r : RmapRec) o, Ascending [Field.u32 o r.start, .u32 (o + 4) r.count,
      .u64 (o + 8) r.owner, .u64 (o + 16) 0] := by
    intro r o
    refine ascending_of_places ?_
    simp
  have hin : ∀ (r : RmapRec) o, ∀ f ∈ [Field.u32 o r.start, .u32 (o + 4) r.count,
      .u64 (o + 8) r.owner, .u64 (o + 16) 0], o ≤ f.off ∧ f.past ≤ o + Btree.rmapRec := by
    intro r o f hf
    simp only [List.mem_cons, List.not_mem_nil, or_false] at hf
    rcases hf with rfl | rfl | rfl | rfl <;> rw [Field.past_eq] <;>
      simp [Field.u32, Field.u64, Btree.rmapRec]
  refine map_decode_packRecs fun i r hr => ?_
  obtain ⟨hstart, hcount, howner⟩ := hrecs r (List.mem_of_getElem? hr)
  rw [RmapRec.ofBytes, be32_packRecs hasc hin hr (by simp) hstart,
    be32_packRecs hasc hin hr (by simp) hcount, be64_packRecs hasc hin hr (by simp) howner]

/-! ### Roots -/

section Roots

variable {g : Geometry} {agno : ℕ} {uuid : Uuid} {r : Root}

/-- The bytes of the records stand behind the header. -/
lemma Root.byteAt_image_recs (hrecs : Btree.Off.recs + r.recs.length ≤ g.bs) {i : ℕ}
    (hi : i < r.recs.length) :
    byteAt (r.image g agno uuid) (Btree.Off.recs + i) = byteAt r.recs i := by
  have hcrc : Btree.Off.crc + 4 ≤ Btree.Off.recs := by decide
  exact byteAt_stampFields_of_mem (f := ⟨Btree.Off.recs, r.recs⟩) Btree.ascending_leaf (by simp)
    hi (by rw [List.length_replicate]; exact hrecs) (.inr hcrc)

/-- The UUID of a root is read back. -/
lemma Root.uuid_image (hbs : Btree.Off.recs ≤ g.bs) :
    ((r.image g agno uuid).drop Btree.Off.uuid).take 16 = uuid.1 := by
  have hu : (⟨Btree.Off.uuid, uuid.1⟩ : Field).past = Btree.Off.uuid + 16 := by
    rw [Field.past, uuid.2]
  have hroom : Btree.Off.uuid + 16 ≤ (List.replicate g.bs (0 : UInt8)).length := by
    rw [List.length_replicate]
    exact le_trans (by decide) hbs
  have hread : ((r.image g agno uuid).drop Btree.Off.uuid).take uuid.1.length = uuid.1 :=
    read_stampFields (f := ⟨Btree.Off.uuid, uuid.1⟩) Btree.ascending_leaf
      (by simp [Btree.leafFields]) (hu.trans_le hroom) (.inl (by rw [hu]; decide))
  rwa [uuid.2] at hread

/-- The header of a root is read back. -/
lemma Root.read_image (hbs : Btree.Off.recs ≤ g.bs) (hmagic : r.tree.magic < 2 ^ 32)
    (hdaddr : g.agbToDaddr agno r.block < 2 ^ 64) (hn : r.numrecs < 2 ^ 16)
    (hagno : agno < 2 ^ 32) :
    Crc.verify (r.image g agno uuid) Btree.Off.crc = true ∧
    be32 (r.image g agno uuid) Btree.Off.magic = r.tree.magic ∧
    be16 (r.image g agno uuid) Btree.Off.level = 0 ∧
    be32 (r.image g agno uuid) Btree.Off.owner = agno ∧
    be64 (r.image g agno uuid) Btree.Off.blkno = g.agbToDaddr agno r.block ∧
    be16 (r.image g agno uuid) Btree.Off.numrecs = r.numrecs ∧
    slice (r.image g agno uuid) Btree.Off.uuid (Btree.Off.uuid + 16) = uuid.1 := by
  have hlen : ∀ {o}, o ≤ Btree.Off.recs → o ≤ (List.replicate g.bs (0 : UInt8)).length := by
    intro o ho
    rw [List.length_replicate]
    exact ho.trans hbs
  refine ⟨verify_stampFields (hlen (by decide)), ?_, ?_, ?_, ?_, ?_, ?_⟩
  · exact be32_stampFields Btree.ascending_leaf (by simp [Btree.leafFields]) hmagic
      (hlen (by decide)) (.inl (by decide))
  · exact be16_stampFields Btree.ascending_leaf (by simp [Btree.leafFields]) (by decide)
      (hlen (by decide)) (.inl (by decide))
  · rw [Root.image, toU32_of_lt hagno]
    exact be32_stampFields Btree.ascending_leaf (by simp [Btree.leafFields]) hagno
      (hlen (by decide)) (.inl (by decide))
  · exact be64_stampFields Btree.ascending_leaf (by simp [Btree.leafFields]) hdaddr
      (hlen (by decide)) (.inl (by decide))
  · exact be16_stampFields Btree.ascending_leaf (by simp [Btree.leafFields]) hn
      (hlen (by decide)) (.inl (by decide))
  · rw [slice, Nat.add_sub_cancel_left]
    exact Root.uuid_image hbs

/-- The records of a root, as a reader cuts them out of its block. -/
lemma Root.leafRecs_image (hn : be16 (r.image g agno uuid) Btree.Off.numrecs = r.numrecs)
    (hpos : 0 < r.tree.recLen) (hlen : r.recs.length = r.numrecs * r.tree.recLen)
    (hrecs : Btree.Off.recs + r.recs.length ≤ g.bs) :
    leafRecs r.tree (r.image g agno uuid) = (List.range r.numrecs).map fun i =>
      slice r.recs (i * r.tree.recLen) (i * r.tree.recLen + r.tree.recLen) := by
  have hspace : r.numrecs ≤ space (r.image g agno uuid) / r.tree.recLen := by
    rw [space, Root.length_image, Nat.le_div_iff_mul_le hpos]
    omega
  rw [leafRecs, hn, Nat.min_eq_left hspace]
  refine List.map_congr_left fun i hi => ?_
  rw [List.mem_range] at hi
  have hle : (i + 1) * r.tree.recLen ≤ r.numrecs * r.tree.recLen := Nat.mul_le_mul_right _ hi
  rw [Nat.succ_mul] at hle
  have hl : (slice (r.image g agno uuid) (Btree.Off.recs + i * r.tree.recLen)
      (Btree.Off.recs + i * r.tree.recLen + r.tree.recLen)).length = r.tree.recLen := by
    rw [length_slice (by rw [Root.length_image]; omega), Nat.add_sub_cancel_left]
  refine Buf.ext ?_ fun j hj => ?_
  · rw [hl, length_slice (by omega), Nat.add_sub_cancel_left]
  · rw [hl] at hj
    rw [byteAt_slice (by omega), byteAt_slice (by omega), Nat.add_assoc,
      Root.byteAt_image_recs hrecs (by omega)]

end Roots

/-! ### The free list -/

section FreeList

variable {g : Geometry} {agno : ℕ} {uuid : Uuid} {list : List ℕ} {i : ℕ}

lemma ascending_slots {n : ℕ} :
    Ascending ((List.range n).map fun i => Field.u32 (Agfl.Off.bno + 4 * i) null32) := by
  refine List.pairwise_map.mpr (List.pairwise_lt_range.imp fun {i j} hlt => ?_)
  show Agfl.Off.bno + 4 * i + 4 ≤ Agfl.Off.bno + 4 * j
  omega

lemma ascending_used :
    Ascending (list.zipIdx.map fun r => Field.u32 (Agfl.Off.bno + 4 * (1 + r.2)) r.1) := by
  have horder : list.zipIdx.Pairwise fun r r' => r.2 < r'.2 := by
    rw [List.pairwise_iff_getElem]
    intro i j hi hj hij
    simpa using hij
  refine List.pairwise_map.mpr (horder.imp fun {r r'} hlt => ?_)
  show Agfl.Off.bno + 4 * (1 + r.2) + 4 ≤ Agfl.Off.bno + 4 * (1 + r'.2)
  omega

/-- A slot in use holds its block. -/
lemma be32_agflImage_used (hlist : list.length < (g.sectsize - Agfl.Off.bno) / 4) {b : ℕ}
    (hb : list[i]? = some b) (hlt : b < 2 ^ 32) :
    be32 (agflImage g agno uuid list) (Agfl.Off.bno + 4 * (1 + i)) = b := by
  have hmem : Field.u32 (Agfl.Off.bno + 4 * (1 + i)) b
      ∈ list.zipIdx.map fun r => Field.u32 (Agfl.Off.bno + 4 * (1 + r.2)) r.1 :=
    List.mem_map.mpr ⟨(b, i), List.mem_zipIdx_iff_getElem?.mpr hb, rfl⟩
  obtain ⟨hi, -⟩ := List.getElem?_eq_some_iff.mp hb
  have hcrc : Agfl.Off.crc + 4 ≤ Agfl.Off.bno := by decide
  refine be32_stampFields ascending_used hmem hlt ?_ (.inr (by omega))
  rw [length_putFields, length_putFields, List.length_replicate]
  omega

/-- The other slots are empty. -/
lemma be32_agflImage_empty (hi : i < (g.sectsize - Agfl.Off.bno) / 4)
    (hout : ∀ k < list.length, i ≠ 1 + k) :
    be32 (agflImage g agno uuid list) (Agfl.Off.bno + 4 * i) = null32 := by
  have hcrc : Agfl.Off.crc + 4 ≤ Agfl.Off.bno := by decide
  have hmem : Field.u32 (Agfl.Off.bno + 4 * i) null32
      ∈ (List.range ((g.sectsize - Agfl.Off.bno) / 4)).map
        fun i => Field.u32 (Agfl.Off.bno + 4 * i) null32 :=
    List.mem_map.mpr ⟨i, List.mem_range.mpr hi, rfl⟩
  have hempty := be32_putFields ascending_slots hmem (by decide)
    (b := putFields (List.replicate g.sectsize 0) (Agfl.headerFields agno uuid))
    (by rw [length_putFields, List.length_replicate]; omega)
  rw [← hempty]
  refine be32_congr fun k hk => ?_
  rw [agflImage, byteAt_stampFields (.inr (by omega)), byteAt_putFields_of_not_mem]
  intro f hf
  obtain ⟨r, hr, rfl⟩ := List.mem_map.mp hf
  have hne := hout r.2 (by simpa using List.snd_lt_of_mem_zipIdx hr)
  show Agfl.Off.bno + 4 * i + k < Agfl.Off.bno + 4 * (1 + r.2) ∨
    Agfl.Off.bno + 4 * (1 + r.2) + 4 ≤ Agfl.Off.bno + 4 * i + k
  omega

/-- The UUID of the free list is read back. -/
lemma uuid_agflImage (hs : Agfl.Off.bno ≤ g.sectsize) :
    ((agflImage g agno uuid list).drop Agfl.Off.uuid).take 16 = uuid.1 := by
  have hend : Agfl.Off.uuid + 16 ≤ Agfl.Off.crc := by decide
  have hcrc : Agfl.Off.crc + 4 ≤ Agfl.Off.bno := by decide
  have hlen : (((agflImage g agno uuid list).drop Agfl.Off.uuid).take 16).length = 16 := by
    rw [List.length_take, List.length_drop, agflImage, length_stampFields, length_putFields,
      length_putFields, List.length_replicate]
    omega
  refine Buf.ext (by rw [hlen, uuid.2]) fun k hk => ?_
  rw [hlen] at hk
  have hheader : Ascending (Agfl.headerFields agno uuid) := by
    refine ascending_of_places ?_
    simp only [Agfl.headerFields, List.map_cons, List.map_nil, Field.place_u32, Field.place_u64,
      Field.place_mk, uuid.2]
    decide
  have hread : byteAt (putFields (List.replicate g.sectsize 0) (Agfl.headerFields agno uuid))
      (Agfl.Off.uuid + k) = byteAt uuid.1 k := by
    refine byteAt_putFields_of_mem (f := ⟨Agfl.Off.uuid, uuid.1⟩) hheader
      (by simp [Agfl.headerFields]) (by rwa [uuid.2]) ?_
    rw [Field.past, uuid.2, List.length_replicate]
    dsimp only
    omega
  rw [byteAt_take hk, byteAt_drop, agflImage, byteAt_stampFields (.inl (by omega)),
    byteAt_putFields_of_not_mem, byteAt_putFields_of_not_mem, hread]
  · intro fld hf
    obtain ⟨i, -, rfl⟩ := List.mem_map.mp hf
    exact .inl (show Agfl.Off.uuid + k < Agfl.Off.bno + 4 * i by omega)
  · intro fld hf
    obtain ⟨r, -, rfl⟩ := List.mem_map.mp hf
    exact .inl (show Agfl.Off.uuid + k < Agfl.Off.bno + 4 * (1 + r.2) by omega)

/-- The slots of the free list, as a reader takes them from its sector. -/
lemma getElem?_agflSlots (hi : i < (g.sectsize - Agfl.Off.bno) / 4) :
    (agflSlots (agflImage g agno uuid list))[i]?
      = some (be32 (agflImage g agno uuid list) (Agfl.Off.bno + 4 * i)) := by
  rw [agflSlots, length_agflImage, List.getElem?_map, List.getElem?_range hi, Option.map_some]

/-- The slots in use are those from the first on. -/
lemma ringSlots_eq {n len : ℕ} (hpos : 0 < len) (hlt : len < n) :
    ringSlots n 1 len = (List.range len).map (1 + ·) := by
  have hlast : (len + n - 1) % n + 1 = len := by
    rw [show len + n - 1 = (len - 1) + n by omega, Nat.add_mod_right,
      Nat.mod_eq_of_lt (by omega)]
    omega
  rw [ringSlots, hlast]
  refine List.map_congr_left fun i hi => ?_
  rw [List.mem_range] at hi
  exact Nat.mod_eq_of_lt (by omega)

/-- What a reader of the free list's ring finds. -/
structure RingRead (slots : List ℕ) (first last : ℕ) (list : List ℕ) : Prop where
  ring : (ringSlots slots.length first last).map (fun s => slots[s]?) = list.map some
  empty : ∀ i < slots.length, i ∉ ringSlots slots.length first last → slots[i]? = some null32

/-- **The free list is read back as a ring.** -/
lemma ringRead_agflImage (hpos : 0 < list.length)
    (hlist : list.length < (g.sectsize - Agfl.Off.bno) / 4) (hlt : ∀ b ∈ list, b < 2 ^ 32) :
    RingRead (agflSlots (agflImage g agno uuid list)) 1 list.length list := by
  have hlen : (agflSlots (agflImage g agno uuid list)).length
      = (g.sectsize - Agfl.Off.bno) / 4 := by
    rw [agflSlots, length_agflImage, List.length_map, List.length_range]
  refine ⟨?_, fun i hi hout => ?_⟩
  · rw [hlen, ringSlots_eq hpos hlist, List.map_map]
    refine List.ext_getElem? fun i => ?_
    rw [List.getElem?_map, List.getElem?_map]
    by_cases hi : i < list.length
    · have hget : list[i]? = some list[i] := List.getElem?_eq_getElem hi
      rw [List.getElem?_range hi, hget, Option.map_some, Option.map_some]
      refine congrArg some ?_
      show (agflSlots (agflImage g agno uuid list))[1 + i]? = some list[i]
      rw [getElem?_agflSlots (by omega),
        be32_agflImage_used hlist hget (hlt _ (List.getElem_mem hi))]
    · rw [List.getElem?_eq_none (by simpa using hi), List.getElem?_eq_none (by simpa using hi)]
      rfl
  · rw [hlen] at hi hout
    rw [ringSlots_eq hpos hlist] at hout
    rw [getElem?_agflSlots hi, be32_agflImage_empty hi]
    intro k hk he
    exact hout (List.mem_map.mpr ⟨k, List.mem_range.mpr hk, he.symm⟩)

end FreeList

/-! ### The head -/

/-- What a reader of the head of AG `agno` finds: the plan. -/
structure AgPlan.HeadRead (plan : AgPlan) (g : Geometry) (agno : ℕ) (head : Buf) : Prop where
  geo : Geo.parse (sectorOf g.geo head 0) = .ok g.geo
  sb_crc : Crc.verify (sectorOf g.geo head 0) Sb.Off.crc = true
  agf_crc : Crc.verify (sectorOf g.geo head 1) Agf.Off.crc = true
  agi_crc : Crc.verify (sectorOf g.geo head 2) Agi.Off.crc = true
  agfl_crc : Crc.verify (sectorOf g.geo head 3) Agfl.Off.crc = true
  roots : ∀ r ∈ headRoots g.geo (sectorOf g.geo head 1) (sectorOf g.geo head 2),
    RootRead g agno r.1 r.2 (headBlock g head r.2)
  distinct : ((headRoots g.geo (sectorOf g.geo head 1) (sectorOf g.geo head 2)).map
    Prod.snd).Nodup
  bno : (leafRecs bnobt (headBlock g head (be32 (sectorOf g.geo head 1) Agf.Off.bnoRoot))).map
    AllocRec.ofBytes = plan.free
  cnt : ∃ bySize, (leafRecs cntbt (headBlock g head
      (be32 (sectorOf g.geo head 1) Agf.Off.cntRoot))).map AllocRec.ofBytes = bySize ∧
    bySize.Perm plan.free ∧ bySize.Pairwise AllocRec.sizeLe
  rmap : g.features.rmapbt = true → (leafRecs rmapbt (headBlock g head
    (be32 (sectorOf g.geo head 1) Agf.Off.rmapRoot))).map RmapRec.ofBytes = plan.rmap
  agfl : RingRead (agflSlots (sectorOf g.geo head 3)) (be32 (sectorOf g.geo head 1) Agf.Off.flfirst)
    (be32 (sectorOf g.geo head 1) Agf.Off.fllast) plan.agfl
  flcount : be32 (sectorOf g.geo head 1) Agf.Off.flcount = plan.agfl.length

section Head

variable {params : Params} {dev logical physical : ℕ} {g : Geometry} {plan : AgPlan}
  {uuid : Uuid} {sbs : SbState} {agno : ℕ} {agf : Agf}

/-- The features a reader sees are those of the geometry. -/
lemma Geometry.has_geo : g.geo.has Sb.Version.roFinobt = g.features.finobt ∧
    g.geo.has Sb.Version.roRmapbt = g.features.rmapbt ∧
    g.geo.has Sb.Version.roReflink = g.features.reflink := by
  cases hf : g.features.finobt <;> cases hr : g.features.rmapbt <;>
    cases hc : g.features.reflink <;> cases hi : g.features.inobtcount <;>
    simp only [Geo.has, Geometry.geo, Sb.roCompat, hf, hr, hc, hi] <;> decide

/-- The sectors of a head are those it was made of. -/
lemma Accepted.sectorOf_head (h : Accepted params dev logical physical g) {head : Buf}
    (hhead : head = putFields (List.replicate (g.preallocBlocks * g.bs) 0)
      (plan.headFields g uuid sbs agf)) {i : ℕ} {data : Buf}
    (hf : (⟨i * g.sectsize, data⟩ : Field) ∈ plan.sectorFields g uuid sbs agf) :
    sectorOf g.geo head i = data := by
  have hmem : (⟨i * g.sectsize, data⟩ : Field) ∈ plan.headFields g uuid sbs agf :=
    List.mem_append_left _ hf
  have hlen : data.length = g.sectsize := by
    have hplace := List.mem_map_of_mem (f := Field.place) hf
    rw [AgPlan.place_sectorFields] at hplace
    simp only [Field.place_mk, List.mem_cons, Prod.mk.injEq, List.not_mem_nil, or_false] at hplace
    rcases hplace with he | he | he | he <;> exact he.2
  have hpast := h.headFields_past hmem
  subst hhead
  refine slice_putFields h.ascending_headFields hmem ?_ ?_
  · rw [hlen]
    exact Nat.succ_mul _ _
  · rw [Field.past, hlen] at hpast
    rw [List.length_replicate]
    exact (Nat.succ_mul i g.sectsize).le.trans hpast

/-- The blocks of a head that hold roots are those it was made of. -/
lemma Accepted.headBlock_head (h : Accepted params dev logical physical g) {head : Buf}
    (hhead : head = putFields (List.replicate (g.preallocBlocks * g.bs) 0)
      (plan.headFields g uuid sbs agf)) {r : Root} (hr : r ∈ plan.roots g) :
    headBlock g head r.block = r.image g plan.agno uuid := by
  have hmem : (⟨r.block * g.bs, r.image g plan.agno uuid⟩ : Field)
      ∈ plan.headFields g uuid sbs agf :=
    List.mem_append_right _ (List.mem_map_of_mem hr)
  have hpast := h.headFields_past hmem
  subst hhead
  refine slice_putFields h.ascending_headFields hmem ?_ ?_
  · rw [Root.length_image, Nat.succ_mul]
  · rw [Field.past, Root.length_image] at hpast
    rw [List.length_replicate, Nat.succ_mul]
    exact hpast

/-- What the AGF holds of the plan, the free list in full. -/
lemma AgPlan.agf_fields (hagf : plan.agf g = .ok agf) (hfl : plan.agfl.length ≤ 6)
    (hslots : g.agflSize = .ok ((g.sectsize - agflHeader) / 4) ∧
      119 ≤ (g.sectsize - agflHeader) / 4) :
    (agf.bnoRoot = toU32 g.bnoBlock ∧ agf.cntRoot = toU32 g.cntBlock) ∧
    agf.rmapRoot = (if g.features.rmapbt then toU32 g.rmapBlock else 0) ∧
    agf.refcountRoot = (if g.features.reflink then toU32 g.refcBlock else 0) ∧
    agf.flfirst = 1 ∧ agf.fllast = plan.agfl.length ∧ agf.flcount = plan.agfl.length := by
  have hlen : toU32 plan.agfl.length = plan.agfl.length := toU32_of_lt (by omega)
  rw [AgPlan.agf, hslots.1, ok_bind, mod_of_pos (by omega), ok_bind, hlen,
    Nat.mod_eq_of_lt (by omega)] at hagf
  rw [← Except.ok.inj hagf]
  exact ⟨⟨rfl, rfl⟩, rfl, rfl, rfl, rfl, rfl⟩

/-- The root pointers of a header pair. -/
structure RootPointers (g : Geometry) (agf agi : Buf) : Prop where
  bno : be32 agf Agf.Off.bnoRoot = g.bnoBlock
  cnt : be32 agf Agf.Off.cntRoot = g.cntBlock
  ino : be32 agi Agi.Off.root = g.ibtBlock
  fino : g.features.finobt = true → be32 agi Agi.Off.freeRoot = g.fibtBlock
  rmap : g.features.rmapbt = true → be32 agf Agf.Off.rmapRoot = g.rmapBlock
  refc : g.features.reflink = true → be32 agf Agf.Off.refcountRoot = g.refcBlock

/-- **The root pointers are read back.** -/
lemma Accepted.rootPointers (h : Accepted params dev logical physical g)
    (hagf : plan.agf g = .ok agf) (hfl : plan.agfl.length ≤ 6) {zeros : Buf}
    (hzeros : 2 ^ 9 ≤ zeros.length) :
    RootPointers g (agf.encode uuid zeros) ((plan.agi g).encode uuid zeros) := by
  obtain ⟨⟨hbno, hcnt⟩, hrmap, hrefc, -, -, -⟩ := AgPlan.agf_fields hagf hfl h.agflSize_eq
  have hprealloc := h.preallocBlocks_bounds.2
  have hblock : ∀ b ∈ (plan.roots g).map Root.block, toU32 b = b ∧ b < 2 ^ 32 := by
    intro b hb
    obtain ⟨r, hr, rfl⟩ := List.mem_map.mp hb
    have hlt := (AgPlan.root_block hr).2
    exact ⟨toU32_of_lt (by omega), by omega⟩
  have hf : ∀ {o v : ℕ}, Field.u32 o v ∈ agf.fields uuid → v < 2 ^ 32 →
      be32 (agf.encode uuid zeros) o = v :=
    Agf.be32_encode (le_trans (by decide) hzeros)
  have hi : ∀ {o v : ℕ}, Field.u32 o v ∈ (plan.agi g).fields uuid → v < 2 ^ 32 →
      be32 ((plan.agi g).encode uuid zeros) o = v :=
    Agi.be32_encode (le_trans (by decide) hzeros)
  refine ⟨?_, ?_, ?_, fun hon => ?_, fun hon => ?_, fun hon => ?_⟩
  · obtain ⟨heq, hlt⟩ := hblock g.bnoBlock (by simp [AgPlan.roots])
    exact hf (by simp [Agf.fields, hbno, heq]) hlt
  · obtain ⟨heq, hlt⟩ := hblock g.cntBlock (by simp [AgPlan.roots])
    exact hf (by simp [Agf.fields, hcnt, heq]) hlt
  · obtain ⟨heq, hlt⟩ := hblock g.ibtBlock (by simp [AgPlan.roots])
    exact hi (by simp [Agi.fields, Agi.firstFields, AgPlan.agi, heq]) hlt
  · obtain ⟨heq, hlt⟩ := hblock g.fibtBlock (by simp [AgPlan.roots, hon])
    exact hi (by simp [Agi.fields, Agi.lastFields, AgPlan.agi, heq, hon]) hlt
  · obtain ⟨heq, hlt⟩ := hblock g.rmapBlock (by simp [AgPlan.roots, hon])
    exact hf (by simp [Agf.fields, hrmap, heq, hon]) hlt
  · obtain ⟨heq, hlt⟩ := hblock g.refcBlock (by simp [AgPlan.roots, hon])
    exact hf (by simp [Agf.fields, hrefc, heq, hon]) hlt

/-- The pointers lead to the roots. -/
lemma RootPointers.headRoots_eq {agf agi : Buf} (hp : RootPointers g agf agi) :
    headRoots g.geo agf agi = (plan.roots g).map fun r => (r.tree, r.block) := by
  obtain ⟨hfino, hrmap, hrefc⟩ := g.has_geo
  rw [headRoots, AgPlan.roots, hfino, hrmap, hrefc, hp.bno, hp.cnt, hp.ino]
  cases hf : g.features.finobt <;> cases hr : g.features.rmapbt <;>
    cases hc : g.features.reflink <;> simp [hf, hr, hc, hp.fino, hp.rmap, hp.refc]

/-- The tree of a root, and its records as one buffer. -/
lemma AgPlan.root_tree {r : Root} (hr : r ∈ plan.roots g) : r.tree.magic < 2 ^ 32 ∧
    0 < r.tree.recLen ∧ r.recs.length = r.numrecs * r.tree.recLen := by
  rw [AgPlan.roots] at hr
  simp only [List.mem_append, List.mem_cons, List.not_mem_nil, or_false, List.mem_ite_nil_right]
    at hr
  rcases hr with (((rfl | rfl | rfl) | ⟨-, rfl⟩) | ⟨-, rfl⟩) | ⟨-, rfl⟩ <;>
    refine ⟨?_, ?_, ?_⟩ <;>
    simp [bnobt, cntbt, inobt, finobt, rmapbt, refcbt, Btree.Magic.bno, Btree.Magic.cnt,
      Btree.Magic.ino, Btree.Magic.fino, Btree.Magic.rmap, Btree.Magic.refc, Btree.allocRec,
      Btree.inobtRec, Btree.rmapRec, Btree.refcRec, Btree.allocRecs, Btree.inobtRecs,
      Btree.rmapRecs]

/-- The disk address of a block is a 64-bit number. -/
lemma Accepted.daddr_lt (h : Accepted params dev logical physical g) (hdev : dev < 2 ^ 64)
    (hc : g.Covered) {agbno : ℕ} (hb : g.HasBlock agno agbno) :
    g.agbToDaddr agno agbno < 2 ^ 64 := by
  have hle := h.byte_le hdev (Nat.le_of_lt hc) hb
  have hsize := (Nat.mul_le_mul_right g.blocksize h.dblocks_le).trans h.asked_mul_le
  have hsub : g.agbToDaddr agno agbno ≤ g.agbToByte agno agbno := by
    rw [Geometry.agbToDaddr, Geometry.agbToByte, Nat.shiftLeft_eq, Nat.shiftLeft_eq]
    exact Nat.mul_le_mul_left _ (Nat.pow_le_pow_right (by norm_num) (Nat.sub_le _ _))
  omega

/-- Every root of the head is found as it was written. -/
lemma Accepted.rootRead (h : Accepted params dev logical physical g) (hag : agno < 2 ^ 32)
    (hfree : plan.free.length ≤ 8) (hrmap : plan.rmap.length ≤ 13) {r : Root}
    (hr : r ∈ plan.roots g) (hdaddr : g.agbToDaddr agno r.block < 2 ^ 64) :
    RootRead g agno r.tree r.block (r.image g agno uuid) ∧
    leafRecs r.tree (r.image g agno uuid) = (List.range r.numrecs).map fun i =>
      slice r.recs (i * r.tree.recLen) (i * r.tree.recLen + r.tree.recLen) := by
  obtain ⟨hfirst, hin⟩ := AgPlan.root_block hr
  obtain ⟨hmagic, hpos, hlen⟩ := AgPlan.root_tree hr
  obtain ⟨hrecs, hnum⟩ := h.recs_le hfree hrmap hr
  obtain ⟨hcrc, hm, hlevel, howner, hblkno, hn, -⟩ :=
    @Root.read_image g agno uuid r ((Nat.le_add_right _ _).trans hrecs) hmagic hdaddr (by omega)
      hag
  refine ⟨⟨?_, hin, hcrc, hm, hlevel, howner, hblkno⟩,
    Root.leafRecs_image hn hpos hlen hrecs⟩
  exact h.sectors_le.trans (Nat.mul_le_mul_right _ hfirst)

/-- The blocks of the free list are blocks of the AG. -/
lemma Planned.agfl_lt (hp : Planned g plan) {b : ℕ} (hb : b ∈ plan.agfl) : b < plan.length := by
  have hcount := List.count_pos_iff.mpr hb
  have hfree := hp.free b
  by_contra hge
  rw [if_neg (by omega)] at hfree
  omega

/-- The sectors of the head, and the blocks of its roots. -/
structure AgPlan.LaidOut (plan : AgPlan) (g : Geometry) (uuid : Uuid) (sbs : SbState) (agf : Agf)
    (head : Buf) : Prop where
  sb : sectorOf g.geo head 0 = Sb.image g sbs
  agf : sectorOf g.geo head 1 = agf.encode uuid (List.replicate g.sectsize 0)
  agi : sectorOf g.geo head 2 = (plan.agi g).encode uuid (List.replicate g.sectsize 0)
  agfl : sectorOf g.geo head 3 = agflImage g (toU32 plan.agno) uuid plan.agfl
  root : ∀ r ∈ plan.roots g, headBlock g head r.block = r.image g plan.agno uuid

lemma Accepted.laidOut (h : Accepted params dev logical physical g) {head : Buf}
    (hhead : head = putFields (List.replicate (g.preallocBlocks * g.bs) 0)
      (plan.headFields g uuid sbs agf)) : plan.LaidOut g uuid sbs agf head where
  sb := h.sectorOf_head hhead (by simp [AgPlan.sectorFields])
  agf := h.sectorOf_head hhead (by simp [AgPlan.sectorFields])
  agi := h.sectorOf_head hhead (by simp [AgPlan.sectorFields])
  agfl := h.sectorOf_head hhead (by simp [AgPlan.sectorFields])
  root _ hr := h.headBlock_head hhead hr

/-- Every root is found in its block of the head, with its records. -/
lemma AgPlan.LaidOut.rootRead {head : Buf} (hl : plan.LaidOut g uuid sbs agf head)
    (h : Accepted params dev logical physical g) (hdev : dev < 2 ^ 64) (hc : g.Covered)
    (hag : agno < g.agcount) (hp : plan.Of g agno) (hfree : plan.free.length ≤ 8)
    (hrmap : plan.rmap.length ≤ 13) {r : Root} (hr : r ∈ plan.roots g) :
    RootRead g agno r.tree r.block (headBlock g head r.block) ∧
    leafRecs r.tree (headBlock g head r.block) = (List.range r.numrecs).map fun i =>
      slice r.recs (i * r.tree.recLen) (i * r.tree.recLen + r.tree.recLen) := by
  have hcount := h.agcount_le
  rw [maxAgnumber] at hcount
  have hroom := hp.prealloc_lt h
  have hin := (AgPlan.root_block hr).2
  rw [hl.root r hr, hp.agno_eq]
  exact h.rootRead (by omega) hfree hrmap hr
    (h.daddr_lt hdev hc ⟨hag, plan.length, hp.blocks, by omega⟩)

/-- The free list is read back from its sector. -/
lemma Accepted.ringRead (h : Accepted params dev logical physical g) (hp : plan.Of g agno)
    (hagf : plan.agf g = .ok agf) (hfl : plan.agfl.length ≤ 6) {zeros : Buf}
    (hzeros : 2 ^ 9 ≤ zeros.length) :
    RingRead (agflSlots (agflImage g (toU32 plan.agno) uuid plan.agfl))
      (be32 (agf.encode uuid zeros) Agf.Off.flfirst) (be32 (agf.encode uuid zeros) Agf.Off.fllast)
      plan.agfl ∧
    be32 (agf.encode uuid zeros) Agf.Off.flcount = plan.agfl.length := by
  obtain ⟨-, -, -, hflfirst, hfllast, hflcount⟩ := AgPlan.agf_fields hagf hfl h.agflSize_eq
  have hss := h.sectsize_ge
  have hu32 : ∀ {o v : ℕ}, Field.u32 o v ∈ agf.fields uuid → v < 2 ^ 32 →
      be32 (agf.encode uuid zeros) o = v :=
    Agf.be32_encode (le_trans (by decide) hzeros)
  have hfirst := hu32 (o := Agf.Off.flfirst) (v := 1) (by simp [Agf.fields, hflfirst])
    (by norm_num)
  have hlast := hu32 (o := Agf.Off.fllast) (v := plan.agfl.length)
    (by simp [Agf.fields, hfllast]) (by omega)
  have hbno : Agfl.Off.bno = 36 := rfl
  refine ⟨?_, hu32 (by simp [Agf.fields, hflcount]) (by omega)⟩
  rw [hfirst, hlast]
  refine ringRead_agflImage ?_ (by omega) fun b hb => ?_
  · rw [hp.planned.agfl_length]
    exact g.minFreelist_pos
  · exact (hp.planned.agfl_lt hb).trans hp.length_lt

/-- The records of the roots are those of the plan. -/
structure AgPlan.RecordsRead (plan : AgPlan) (g : Geometry) (leaf : Tree → ℕ → List Buf) : Prop where
  bno : (leaf bnobt g.bnoBlock).map AllocRec.ofBytes = plan.free
  cnt : ∃ bySize, (leaf cntbt g.cntBlock).map AllocRec.ofBytes = bySize ∧
    bySize.Perm plan.free ∧ bySize.Pairwise AllocRec.sizeLe
  rmap : g.features.rmapbt = true → (leaf rmapbt g.rmapBlock).map RmapRec.ofBytes = plan.rmap

lemma AgPlan.Of.recordsRead (hp : plan.Of g agno) {leaf : Tree → ℕ → List Buf}
    (hleaf : ∀ r ∈ plan.roots g, leaf r.tree r.block = (List.range r.numrecs).map fun i =>
      slice r.recs (i * r.tree.recLen) (i * r.tree.recLen + r.tree.recLen)) :
    plan.RecordsRead g leaf := by
  refine ⟨?_, ?_, fun hon => ?_⟩
  · have hroot : (⟨bnobt, g.bnoBlock, Btree.allocRecs plan.free, plan.free.length⟩ : Root)
        ∈ plan.roots g := by simp [AgPlan.roots]
    rw [hleaf _ hroot, List.map_map]
    exact decode_allocRecs fun r hr => hp.planned.free_lt hp.length_lt hr
  · have hroot : (⟨cntbt, g.cntBlock, Btree.allocRecs (plan.free.insertionSort AllocRec.sizeLe),
        plan.free.length⟩ : Root) ∈ plan.roots g := by simp [AgPlan.roots]
    have hperm := List.perm_insertionSort AllocRec.sizeLe plan.free
    refine ⟨plan.free.insertionSort AllocRec.sizeLe, ?_, hperm,
      List.pairwise_insertionSort AllocRec.sizeLe plan.free⟩
    rw [hleaf _ hroot, List.map_map, ← hperm.length_eq]
    exact decode_allocRecs fun r hr =>
      hp.planned.free_lt hp.length_lt (hperm.mem_iff.mp hr)
  · have hroot : (⟨rmapbt, g.rmapBlock, Btree.rmapRecs plan.rmap, plan.rmap.length⟩ : Root)
        ∈ plan.roots g := by simp [AgPlan.roots, hon]
    rw [hleaf _ hroot, List.map_map]
    exact decode_rmapRecs fun r hr => hp.planned.rmap_lt hp.length_lt hr

/-- **The plan is recovered from the head.** -/
lemma Accepted.headRead (h : Accepted params dev logical physical g) (hdev : dev < 2 ^ 64)
    (hc : g.Covered) (hlog : g.LogFits) (hag : agno < g.agcount) (hp : plan.Of g agno)
    (hplan : planAg g agno = .ok plan) :
    ∃ head, agHead g plan uuid sbs = .ok head ∧ plan.HeadRead g agno head := by
  obtain ⟨agf, hagf, hfree, hrmap, hfl, heq⟩ := hp.agHead_eq h hplan
  have hss := h.sectsize_ge
  have hzeros : 2 ^ 9 ≤ (List.replicate g.sectsize (0 : UInt8)).length := by
    rwa [List.length_replicate]
  obtain ⟨head, hok, hhead⟩ : ∃ head, agHead g plan uuid sbs = .ok head ∧
      head = putFields (List.replicate (g.preallocBlocks * g.bs) 0)
        (plan.headFields g uuid sbs agf) := ⟨_, heq uuid sbs, rfl⟩
  have hl : plan.LaidOut g uuid sbs agf head := h.laidOut hhead
  have hpointers : RootPointers g (sectorOf g.geo head 1) (sectorOf g.geo head 2) := by
    rw [hl.agf, hl.agi]
    exact h.rootPointers hagf hfl hzeros
  have hroots : headRoots g.geo (sectorOf g.geo head 1) (sectorOf g.geo head 2)
      = (plan.roots g).map fun r => (r.tree, r.block) := hpointers.headRoots_eq
  have hrecords : plan.RecordsRead g fun tree block => leafRecs tree (headBlock g head block) :=
    hp.recordsRead fun r hr => (hl.rootRead h hdev hc hag hp hfree hrmap hr).2
  refine ⟨head, hok, ?_⟩
  constructor
  · rw [hl.sb]
    exact h.parse_image (h.narrow hdev) (h.fsb hdev (h.hasBlock_log hlog)).1
  · rw [hl.sb]
    exact verify_stampFields (le_trans (by decide) hzeros)
  · rw [hl.agf]
    exact Agf.verify_encode (le_trans (by decide) hzeros)
  · rw [hl.agi]
    exact Agi.verify_encode (le_trans (by decide) hzeros)
  · rw [hl.agfl]
    refine verify_stampFields ?_
    rw [length_putFields, length_putFields]
    exact le_trans (by decide) hzeros
  · rw [hroots]
    intro r hr
    obtain ⟨root, hroot, rfl⟩ := List.mem_map.mp hr
    exact (hl.rootRead h hdev hc hag hp hfree hrmap hroot).1
  · rw [hroots, List.map_map]
    show ((plan.roots g).map Root.block).Nodup
    rw [AgPlan.block_roots]
    exact List.nodup_range.map fun a b hab => Nat.add_left_cancel hab
  · rw [hpointers.bno]
    exact hrecords.bno
  · rw [hpointers.cnt]
    exact hrecords.cnt
  · intro hon
    rw [hpointers.rmap hon]
    exact hrecords.rmap hon
  · rw [hl.agfl, hl.agf]
    exact (h.ringRead hp hagf hfl hzeros).1
  · rw [hl.agf]
    exact (h.ringRead hp hagf hfl hzeros).2

end Head

/-- **The head of every AG is read back as its plan**: every checksum verifies, the pointers
lead to the roots, the records decode to the extents and the mappings, and the ring holds
the free list. -/
theorem agHead_headRead (params : Params) (dev : UInt64) (logical physical : UInt32)
    (g : Geometry) (agno : ℕ) (plan : AgPlan) (uuid : Uuid) (sbs : SbState)
    (hg : Geometry.compute params dev logical physical = .ok g) (hmin : g.AgsMin)
    (hlog : g.LogFits) (hag : agno < g.agcount) (hplan : planAg g agno = .ok plan) :
    ∃ head, agHead g plan uuid sbs = .ok head ∧ plan.HeadRead g agno head := by
  have h := compute_eq_ok.mp hg
  have hdev := dev.toNat_lt
  exact h.headRead hdev (h.covered_of_min hdev hmin) hlog hag (h.plan_of hdev hmin hag hplan)
    hplan

/-- The head of AG 0 of 512 MiB is read back. -/
theorem agHead_headRead_512m : ∃ head, agHead geo512m plan512m sb512m.uuid sb512m = .ok head ∧
    plan512m.HeadRead geo512m 0 head :=
  agHead_headRead {} 536870912 512 512 geo512m 0 plan512m sb512m.uuid sb512m compute_geo512m
    agsMin_geo512m logFits_geo512m (by decide) rfl

end MkfsXfs
