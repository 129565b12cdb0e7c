import MkfsXfs.Format.Counts
import MkfsXfs.Inspect.Dump

/-!
The inodes of the root chunk (`src/format.rs`, `root_chunk`).

* `Gen`: the generation numbers, a splitmix64 generator.
* `rootChunk`: every slot initialised free, then the root directory and the realtime bitmap
  and summary inodes.
* `ChunkRead`, `Accepted.chunkRead`: every slot holds its own inode.
-/

namespace MkfsXfs

open Checked Inspect

/-! ### Generation numbers -/

/-- Generation numbers: splitmix64. -/
structure Gen where
  state : UInt64

/-- The next number, and the generator after it. -/
def Gen.next (gen : Gen) : UInt32 × Gen :=
  let s := gen.state + 0x9e3779b97f4a7c15
  let z := (s ^^^ (s >>> 30)) * 0xbf58476d1ce4e5b9
  let z := (z ^^^ (z >>> 27)) * 0x94d049bb133111eb
  ((z ^^^ (z >>> 31)).toUInt32, ⟨s⟩)

/-! ### The inodes -/

/-- `chunks_mut(n)`: the buffer in pieces of `n` bytes, the last perhaps short. -/
def chunks (n : ℕ) (b : Buf) : List Buf :=
  (List.range (divCeil b.length n)).map fun i => (b.drop (i * n)).take n

/-- Every slot initialised free, numbered from `first` on. -/
def freeSlots (first gen : ℕ) (uuid : Uuid) (isz : ℕ) (buf : Buf) : Buf :=
  (chunks isz buf).zipIdx.flatMap fun r => Inode.encodeFree (first + r.2) gen uuid r.1

/-- What the three inodes in use share. -/
def baseInode (g : Geometry) (first : ℕ) (time : Timestamp) : Dinode :=
  let flags2 := if g.features.bigtime then Inode.diflag2Bigtime else 0
  let flags2 := if g.features.nrext64 then flags2 ||| Inode.diflag2Nrext64 else flags2
  { ino := first
    mode := 0
    format := Inode.Format.extents
    nlink := 1
    size := 0
    flags := 0
    flags2 := flags2
    gen := 0
    -- one for the create, one for the transaction that logged it
    changecount := 2
    atime := time
    mtime := time
    ctime := time
    crtime := time
    data := [] }

/-- The root directory. -/
def rootInode (g : Geometry) (first : ℕ) (time : Timestamp) : Dinode :=
  { baseInode g first time with
    mode := 0o040755
    format := Inode.Format.loc
    nlink := 2
    data := Inode.emptySfDir first }

/-- The realtime bitmap: its atime is the summary's sequence counter. -/
def rbmInode (g : Geometry) (first : ℕ) (time : Timestamp) (gen : ℕ) : Dinode :=
  { baseInode g first time with
    ino := first + 1
    mode := 0o100000
    flags := Inode.diflagNewrtbm
    gen := gen
    atime := ⟨0, 0⟩ }

/-- The realtime summary. -/
def rsumInode (g : Geometry) (first : ℕ) (time : Timestamp) (gen : ℕ) : Dinode :=
  { baseInode g first time with
    ino := first + 2
    mode := 0o100000
    gen := gen }

/-- The inodes of the root chunk at block `agbno` of AG 0. -/
def rootChunk (g : Geometry) (agbno : ℕ) (uuid : Uuid) (time : Timestamp) (gen : Gen) :
    Exec Buf := do
  let isz := g.inodesize
  let buf := List.replicate (g.chunkBlocks * g.bs) 0
  let first := g.ino 0 agbno 0
  let (chunkGen, gen) := gen.next
  let buf := freeSlots first chunkGen.toNat uuid isz buf
  let buf ← onSlice buf 0 isz ((rootInode g first time).sizeFromData.encode uuid)
  let (rbmGen, gen) := gen.next
  let buf ← onSlice buf isz isz ((rbmInode g first time rbmGen.toNat).encode uuid)
  let (rsumGen, _) := gen.next
  onSlice buf (2 * isz) isz ((rsumInode g first time rsumGen.toNat).encode uuid)

/-! ### Read back -/

/-- Slot `i` of the inodes. -/
def inodeSlot (isz : ℕ) (inodes : Buf) (i : ℕ) : Buf := slice inodes (i * isz) ((i + 1) * isz)

/-- The `n` slots hold the inodes numbered from `first` on. -/
structure ChunkRead (uuid : Uuid) (first isz n : ℕ) (inodes : Buf) : Prop where
  length : inodes.length = n * isz
  inode : ∀ i < n, InodeRead uuid (first + i) (inodeSlot isz inodes i)

section Slots

variable {uuid : Uuid} {first gen isz n k : ℕ} {b b' : Buf} {f : Buf → Exec Buf}

/-- The pieces of zeros are zeros. -/
lemma chunks_zeros (hpos : 0 < isz) :
    chunks isz (List.replicate (n * isz) 0) = List.replicate n (List.replicate isz 0) := by
  have hcount : divCeil (n * isz) isz = n := by
    rw [divCeil, Nat.add_sub_assoc hpos, Nat.mul_comm, Nat.mul_add_div hpos,
      Nat.div_eq_of_lt (by omega), Nat.add_zero]
  rw [chunks, List.length_replicate, hcount]
  refine List.ext_getElem (by simp) fun i h₁ h₂ => ?_
  have hi : i < n := by simpa using h₂
  have hle : (i + 1) * isz ≤ n * isz := Nat.mul_le_mul_right _ hi
  rw [Nat.succ_mul] at hle
  simp only [List.getElem_map, List.getElem_range, List.getElem_replicate, List.drop_replicate,
    List.take_replicate]
  congr 1
  omega

/-- A slot of pieces of one size put together. -/
lemma inodeSlot_flatMap {α : Type} {g : α → Buf} {l : List α} (hlen : ∀ a ∈ l, (g a).length = isz)
    {a : α} (ha : l[k]? = some a) : inodeSlot isz (l.flatMap g) k = g a := by
  induction l generalizing k with
  | nil => cases ha
  | cons x xs ih =>
      have hx := hlen x List.mem_cons_self
      have hxs := fun a ha => hlen a (List.mem_cons_of_mem x ha)
      rw [List.flatMap_cons, inodeSlot, slice]
      cases k with
      | zero =>
          obtain rfl : x = a := Option.some.inj ha
          rw [Nat.zero_mul, List.drop_zero, Nat.zero_add, Nat.one_mul, Nat.sub_zero,
            List.take_left' hx]
      | succ k =>
          have hdrop : (k + 1) * isz = (g x).length + k * isz := by
            rw [Nat.succ_mul, hx, Nat.add_comm]
          have hstep := ih hxs ha
          rw [inodeSlot, slice] at hstep
          have hwidth : (k + 1 + 1) * isz - ((g x).length + k * isz)
              = (k + 1) * isz - k * isz := by
            rw [hx, Nat.succ_mul, Nat.succ_mul]
            omega
          rw [hdrop, ← List.drop_drop, List.drop_left, hwidth, hstep]

/-- A free inode takes its slot. -/
lemma length_freeSlot {r : Buf × ℕ}
    (hr : r ∈ (List.replicate n (List.replicate isz (0 : UInt8))).zipIdx) :
    (Inode.encodeFree (first + r.2) gen uuid r.1).length = isz := by
  have hmem := List.fst_mem_of_mem_zipIdx hr
  rw [List.eq_of_mem_replicate hmem, Inode.encodeFree, length_stampFields,
    List.length_replicate]

/-- The free slots take the whole chunk. -/
lemma length_freeSlots (hpos : 0 < isz) :
    (freeSlots first gen uuid isz (List.replicate (n * isz) 0)).length = n * isz := by
  rw [freeSlots, chunks_zeros hpos, List.length_flatMap,
    List.map_congr_left fun r hr => length_freeSlot hr, List.map_const', List.length_zipIdx,
    List.length_replicate, List.sum_replicate, smul_eq_mul]

/-- **The free slots hold free inodes.** -/
lemma chunkRead_freeSlots (hisz : Inode.coreSize ≤ isz) (hn : first + n ≤ 2 ^ 64) :
    ChunkRead uuid first isz n (freeSlots first gen uuid isz (List.replicate (n * isz) 0)) := by
  have hpos : 0 < isz := lt_of_lt_of_le (by decide) hisz
  refine ⟨length_freeSlots hpos, fun i hi => ?_⟩
  rw [freeSlots, chunks_zeros hpos]
  have hget : (List.replicate n (List.replicate isz (0 : UInt8))).zipIdx[i]?
      = some (List.replicate isz 0, i) := by
    rw [List.getElem?_zipIdx, List.getElem?_replicate, if_pos hi]
    simp
  rw [inodeSlot_flatMap (fun r hr => length_freeSlot hr) hget]
  exact inodeRead_encodeFree (by omega) (by simpa using hisz)

/-- Rewriting a slot with its own inode keeps every slot as it should be. -/
lemma ChunkRead.onSlice (h : ChunkRead uuid first isz n b) (hk : k < n)
    (hf : ∀ s s', f s = .ok s' → s.length = isz → s'.length = isz ∧ InodeRead uuid (first + k) s')
    (hb : onSlice b (k * isz) isz f = .ok b') : ChunkRead uuid first isz n b' := by
  rw [MkfsXfs.onSlice] at hb
  split_ifs at hb with hin
  obtain ⟨s', hs, hb⟩ := bind_eq_ok.mp hb
  obtain ⟨hlen, hread⟩ := hf _ s' hs (by rw [List.length_take, List.length_drop]; omega)
  rw [← Except.ok.inj hb]
  refine ⟨by rw [length_splice, h.length], fun i hi => ?_⟩
  rw [inodeSlot]
  by_cases hik : i = k
  · subst hik
    have hslot := @slice_splice_self b (i * isz) s' (by omega)
    rw [hlen, ← Nat.succ_mul] at hslot
    rwa [hslot]
  · have hend : (i + 1) * isz ≤ n * isz := Nat.mul_le_mul_right _ hi
    have hapart : (i + 1) * isz ≤ k * isz ∨ k * isz + s'.length ≤ i * isz := by
      rw [hlen, ← Nat.succ_mul]
      rcases Nat.lt_or_gt_of_ne hik with hlt | hgt
      · exact .inl (Nat.mul_le_mul_right _ hlt)
      · exact .inr (Nat.mul_le_mul_right _ hgt)
    rw [slice_splice_of_disjoint (by rw [h.length]; exact hend) hapart]
    exact h.inode i hi

end Slots

section Accepted

variable {params : Params} {dev logical physical : ℕ} {g : Geometry} {uuid : Uuid}
  {time : Timestamp} {gen : Gen} {agbno : ℕ} {inodes : Buf}

/-- The chunk holds 64 inodes exactly. -/
lemma Accepted.chunkBytes (h : Accepted params dev logical physical g) :
    g.chunkBlocks * g.bs = 64 * g.inodesize := by
  have hino := h.inodelog_ge
  have hbl := h.blocklog_le
  rw [Geometry.chunkBlocks, Geometry.bs, inodesPerChunk, h.blocksize, Nat.shiftRight_eq_div_pow]
  refine Nat.div_mul_cancel ?_
  rw [h.inodesize]
  exact (Nat.pow_dvd_pow 2 (by omega)).trans (by rw [pow_add]; norm_num : 2 ^ (6 + g.inodelog)
    ∣ 64 * 2 ^ g.inodelog)

/-- **Every slot of the root chunk holds its own inode.** -/
lemma Accepted.chunkRead (h : Accepted params dev logical physical g)
    (hfirst : g.ino 0 agbno 0 + 64 ≤ 2 ^ 64)
    (hok : rootChunk g agbno uuid time gen = .ok inodes) :
    ChunkRead uuid (g.ino 0 agbno 0) g.inodesize 64 inodes := by
  have hisz : Inode.coreSize ≤ g.inodesize := by
    rw [h.inodesize]
    exact le_trans (by decide) (Nat.pow_le_pow_right (by norm_num) h.inodelog_ge : 2 ^ 9 ≤ _)
  have hinode : ∀ (d : Dinode) (k : ℕ), d.ino = g.ino 0 agbno 0 + k → k < 64 →
      ∀ s s', d.encode uuid s = .ok s' → s.length = g.inodesize →
        s'.length = g.inodesize ∧ InodeRead uuid (g.ino 0 agbno 0 + k) s' := by
    intro d k hd hk s s' hs hlen
    refine ⟨(Dinode.length_encode hs).trans hlen, ?_⟩
    rw [← hd]
    exact inodeRead_encode hs (by omega) (by rwa [hlen])
  rw [rootChunk, h.chunkBytes] at hok
  obtain ⟨b₁, hroot, hok⟩ := bind_eq_ok.mp hok
  obtain ⟨b₂, hrbm, hok⟩ := bind_eq_ok.mp hok
  have hfree : ChunkRead uuid (g.ino 0 agbno 0) g.inodesize 64
      (freeSlots (g.ino 0 agbno 0) gen.next.1.toNat uuid g.inodesize
        (List.replicate (64 * g.inodesize) 0)) := chunkRead_freeSlots hisz hfirst
  have h₁ := hfree.onSlice (k := 0) (by norm_num) (hinode _ 0 rfl (by norm_num))
    (by rwa [Nat.zero_mul])
  have h₂ := h₁.onSlice (k := 1) (by norm_num) (hinode _ 1 rfl (by norm_num))
    (by rwa [Nat.one_mul])
  exact h₂.onSlice (k := 2) (by norm_num) (hinode _ 2 rfl (by norm_num)) hok

/-- An inode whose times can be stored is encoded. -/
lemma Dinode.encode_ok {d : Dinode} {slot : Buf}
    (htime : ∀ t ∈ [d.atime, d.mtime, d.ctime, d.crtime],
      ∃ n, Inode.encodeTime t (decide (d.flags2 &&& Inode.diflag2Bigtime ≠ 0)) = .ok n)
    (hdata : Inode.coreSize + d.data.length ≤ slot.length) :
    ∃ b, d.encode uuid slot = .ok b := by
  obtain ⟨atime, ha⟩ := htime d.atime (by simp)
  obtain ⟨mtime, hm⟩ := htime d.mtime (by simp)
  obtain ⟨ctime, hc⟩ := htime d.ctime (by simp)
  obtain ⟨crtime, hcr⟩ := htime d.crtime (by simp)
  simp only [Dinode.encode, ha, hm, hc, hcr, ok_bind, copyInto, length_putFields, if_pos hdata]
  exact ⟨_, rfl⟩

/-- The times are stored as the features say. -/
lemma baseInode_bigtime (g : Geometry) (first : ℕ) :
    decide ((baseInode g first time).flags2 &&& Inode.diflag2Bigtime ≠ 0)
      = g.features.bigtime := by
  cases hb : g.features.bigtime <;> cases hn : g.features.nrext64 <;>
    simp only [baseInode, hb, hn] <;> decide

/-- The epoch can be stored. -/
lemma encodeTime_epoch (bigtime : Bool) : ∃ n, Inode.encodeTime ⟨0, 0⟩ bigtime = .ok n := by
  cases bigtime with
  | false => exact ⟨_, rfl⟩
  | true => exact ⟨2147483648000000000, by decide⟩

/-- **The root chunk is made when its time can be stored.** -/
lemma Accepted.rootChunk_ok (h : Accepted params dev logical physical g)
    (htime : ∃ n, Inode.encodeTime time g.features.bigtime = .ok n) :
    ∃ inodes, rootChunk g agbno uuid time gen = .ok inodes := by
  have hisz : 2 ^ 9 ≤ g.inodesize := by
    rw [h.inodesize]
    exact Nat.pow_le_pow_right (by norm_num) h.inodelog_ge
  have hcore : Inode.coreSize = 176 := rfl
  have hdir : ∀ parent, (Inode.emptySfDir parent).length ≤ 10 := by
    intro parent
    rw [Inode.emptySfDir]
    split_ifs <;> simp
  have hslice : ∀ {b : Buf} {k : ℕ} {d : Dinode}, b.length = 64 * g.inodesize → k < 64 →
      (∃ first, d.flags2 = (baseInode g first time).flags2) →
      (∀ t ∈ [d.atime, d.mtime, d.ctime, d.crtime], t = time ∨ t = ⟨0, 0⟩) →
      d.data.length ≤ 10 →
      ∃ b', onSlice b (k * g.inodesize) g.inodesize (d.encode uuid) = .ok b' ∧
        b'.length = 64 * g.inodesize := by
    intro b k d hb hk hflags htimes hdata
    obtain ⟨first, hflags⟩ := hflags
    have hle : (k + 1) * g.inodesize ≤ 64 * g.inodesize := Nat.mul_le_mul_right _ hk
    rw [Nat.succ_mul] at hle
    have henc : ∃ s', d.encode uuid ((b.drop (k * g.inodesize)).take g.inodesize) = .ok s' := by
      refine Dinode.encode_ok (fun t ht => ?_) ?_
      · rw [hflags, baseInode_bigtime]
        rcases htimes t ht with rfl | rfl
        · exact htime
        · exact encodeTime_epoch _
      · rw [List.length_take, List.length_drop]
        omega
    obtain ⟨s', hs'⟩ := henc
    refine ⟨splice b (k * g.inodesize) s', ?_, by rw [length_splice, hb]⟩
    rw [onSlice, if_pos (by omega), hs', ok_bind]
    rfl
  have hfree : (freeSlots (g.ino 0 agbno 0) gen.next.1.toNat uuid g.inodesize
      (List.replicate (64 * g.inodesize) 0)).length = 64 * g.inodesize :=
    length_freeSlots (by omega)
  obtain ⟨b₁, h₁, hlen₁⟩ := hslice (k := 0) (d := (rootInode g (g.ino 0 agbno 0) time).sizeFromData)
    hfree (by norm_num) ⟨g.ino 0 agbno 0, rfl⟩
    (by simp [rootInode, Dinode.sizeFromData, baseInode]) (hdir _)
  obtain ⟨b₂, h₂, hlen₂⟩ := hslice (k := 1)
    (d := rbmInode g (g.ino 0 agbno 0) time gen.next.2.next.1.toNat) hlen₁ (by norm_num)
    ⟨g.ino 0 agbno 0, rfl⟩ (by simp [rbmInode, baseInode]) (Nat.zero_le _)
  obtain ⟨b₃, h₃, -⟩ := hslice (k := 2)
    (d := rsumInode g (g.ino 0 agbno 0) time gen.next.2.next.2.next.1.toNat) hlen₂ (by norm_num)
    ⟨g.ino 0 agbno 0, rfl⟩ (by simp [rsumInode, baseInode]) (Nat.zero_le _)
  rw [Nat.zero_mul] at h₁
  rw [Nat.one_mul] at h₂
  refine ⟨b₃, ?_⟩
  rw [rootChunk, h.chunkBytes]
  simp only [h₁, h₂, ok_bind, h₃]

/-- The chunk is as long as its blocks. -/
lemma Accepted.length_rootChunk (h : Accepted params dev logical physical g)
    (hok : rootChunk g agbno uuid time gen = .ok inodes) :
    inodes.length = g.chunkBlocks * g.bs := by
  have hisz : 0 < g.inodesize := by
    rw [h.inodesize]
    exact Nat.two_pow_pos _
  rw [rootChunk, h.chunkBytes] at hok
  obtain ⟨b₁, h₁, hok⟩ := bind_eq_ok.mp hok
  obtain ⟨b₂, h₂, hok⟩ := bind_eq_ok.mp hok
  rw [length_onSlice hok, length_onSlice h₂, length_onSlice h₁, length_freeSlots hisz,
    h.chunkBytes]

end Accepted

end MkfsXfs
