import MkfsXfs.Format.RootChunk
import MkfsXfs.Format.HeadLayout
import MkfsXfs.Inspect.Twins

/-!
What a format writes under two identities.

* `AgreeOutside.splice`, `FieldTwin`, `agree_putFields`: the same writes keep buffers alike, and
  so do fields that differ where it does not count.
* `same_superblock`, `same_agf`, `same_agi`, `same_agfl`, `same_root`, `same_record`: the
  structures of a geometry and a plan, which differ in their UUIDs alone.
* `same_rootChunk`: the inodes of the root chunk, which differ in their times and generations too.
-/

namespace MkfsXfs

/-- The state of a superblock under another UUID. -/
def SbState.withUuid (sbs : SbState) (uuid : Uuid) : SbState := { sbs with uuid }

namespace Inspect

open Checked

/-! ### Writes that agree -/

section Writes

variable {l : List (ℕ × ℕ)} {a b data data' : Buf} {o v lo hi cycle : ℕ} {fs fs' : List Field}

lemma AgreeOutside.splice (h : AgreeOutside l a b) (hlen : a.length = b.length) :
    AgreeOutside l (MkfsXfs.splice a o data) (MkfsXfs.splice b o data) := fun i hi hout => by
  rw [length_splice] at hi
  exact byteAt_splice_congr hlen (h i hi hout)

lemma AgreeOutside.put32 (h : AgreeOutside l a b) (hlen : a.length = b.length) :
    AgreeOutside l (MkfsXfs.put32 a o v) (MkfsXfs.put32 b o v) := h.splice hlen

/-- Different bytes where it does not count. -/
lemma AgreeOutside.splice_within (h : AgreeOutside l a b) (hl : (o, data.length) ∈ l)
    (hdata : data.length = data'.length) :
    AgreeOutside l (MkfsXfs.splice a o data) (MkfsXfs.splice b o data') := fun i hi hout => by
  rw [length_splice] at hi
  have hnot : i < o ∨ o + data.length ≤ i := by
    by_contra hin
    exact hout ⟨_, hl, by omega⟩
  rw [byteAt_splice_of_not_mem hnot, byteAt_splice_of_not_mem (hdata ▸ hnot)]
  exact h i hi hout

/-- Two fields of one place that are the same where it counts. -/
def FieldTwin (l : List (ℕ × ℕ)) (f f' : Field) : Prop :=
  f = f' ∨ f.place = f'.place ∧ f.place ∈ l

lemma AgreeOutside.putFields (h : AgreeOutside l a b) (hlen : a.length = b.length)
    (hfs : List.Forall₂ (FieldTwin l) fs fs') :
    AgreeOutside l (MkfsXfs.putFields a fs) (MkfsXfs.putFields b fs') := by
  induction hfs generalizing a b with
  | nil => exact h
  | @cons f f' fs fs' hf _ ih =>
      rw [putFields_cons, putFields_cons]
      refine ih ?_ (by rw [length_splice, length_splice, hlen])
      rcases hf with rfl | ⟨hplace, hl⟩
      · exact h.splice hlen
      · obtain ⟨hoff, hdata⟩ := Prod.mk.inj hplace
        rw [← hoff]
        exact h.splice_within hl hdata

lemma agreeOutside_refl : AgreeOutside l a a := fun _ _ _ => rfl

lemma forall₂_twin_refl (fs : List Field) : List.Forall₂ (FieldTwin l) fs fs :=
  List.forall₂_same.2 fun _ _ => .inl rfl

/-- The checksum does not count. -/
lemma AgreeOutside.stamp (h : AgreeOutside l a b) (hcrc : (o, 4) ∈ l) :
    AgreeOutside l (Crc.stamp a o) (Crc.stamp b o) := by
  rw [Crc.stamp_eq_splice, Crc.stamp_eq_splice]
  exact h.splice_within (by simpa using hcrc) (by simp)

end Writes

/-! ### Structures -/

section Structures

variable {k : Kind} {ids : Bool} {uuid uuid' : Uuid} {a b : Buf} {o : ℕ} {fs fs' : List Field}

/-- The UUID of a structure. -/
lemma twin_uuid (hids : ids = true → uuid = uuid') :
    FieldTwin (k.uncounted ids) ⟨k.uuidOff, uuid.1⟩ ⟨k.uuidOff, uuid'.1⟩ := by
  cases ids with
  | true => exact .inl (by rw [hids rfl])
  | false =>
      refine .inr ⟨?_, ?_⟩
      · rw [Field.place_mk, Field.place_mk, uuid.2, uuid'.2]
      · rw [Field.place_mk, uuid.2]
        cases k <;> decide

lemma crc_mem_uncounted (ho : o ∈ k.crcOff) : (o, 4) ∈ k.uncounted ids := by
  cases k <;> cases ids <;> cases ho <;> decide

/-- Structures whose fields are the same where it counts, stamped. -/
lemma Kind.same_stamp (hagree : AgreeOutside (k.uncounted ids) a b) (hlen : a.length = b.length)
    (ho : o ∈ k.crcOff) (hroom : o + 4 ≤ a.length) :
    k.Same ids (Crc.stamp a o) (Crc.stamp b o) where
  length := by rw [Crc.length_stamp, Crc.length_stamp, hlen]
  agree := hagree.stamp (crc_mem_uncounted ho)
  verify o' ho' := by
    obtain rfl : o = o' := Option.some.inj (ho.symm.trans ho')
    rw [Crc.verify_stamp hroom, Crc.verify_stamp (hlen ▸ hroom)]

lemma Kind.same_stampFields (hlen : a.length = b.length)
    (hagree : AgreeOutside (k.uncounted ids) a b)
    (hfs : List.Forall₂ (FieldTwin (k.uncounted ids)) fs fs') (ho : o ∈ k.crcOff)
    (hroom : o + 4 ≤ a.length) : k.Same ids (stampFields a fs o) (stampFields b fs' o) :=
  Kind.same_stamp (hagree.putFields hlen hfs) (by rw [length_putFields, length_putFields, hlen])
    ho (by rwa [length_putFields])

section Headers

variable {g : Geometry} {sbs : SbState} {agf : Agf} {agi : Agi} {agno n : ℕ} {list : List ℕ}
  {r : Root} (hids : ids = true → uuid = uuid')

include hids

omit hids in
lemma same_superblock (hids : ids = true → sbs.uuid = uuid') (hs : 2 ^ 9 ≤ g.sectsize) :
    Kind.superblock.Same ids (Sb.image g sbs) (Sb.image g (sbs.withUuid uuid')) := by
  refine Kind.same_stampFields rfl agreeOutside_refl ?_ rfl ?_
  · refine List.rel_append (List.rel_append ?_ (forall₂_twin_refl _)) (forall₂_twin_refl _)
    rw [Sb.firstFields, Sb.firstFields]
    exact .cons (.inl rfl) (.cons (.inl rfl) (.cons (.inl rfl) (.cons (.inl rfl)
      (.cons (.inl rfl) (.cons (twin_uuid (k := .superblock) hids) (forall₂_twin_refl _))))))
  · rw [List.length_replicate]
    exact le_trans (by decide) hs

lemma same_agf (hn : 2 ^ 9 ≤ n) : Kind.agf.Same ids (agf.encode uuid (List.replicate n 0))
    (agf.encode uuid' (List.replicate n 0)) := by
  refine Kind.same_stampFields rfl agreeOutside_refl ?_ rfl ?_
  · rw [Agf.fields, Agf.fields]
    iterate 16 refine .cons (.inl rfl) ?_
    exact .cons (twin_uuid (k := .agf) hids) (forall₂_twin_refl _)
  · rw [List.length_replicate]
    exact le_trans (by decide) hn

lemma same_agi (hn : 2 ^ 9 ≤ n) : Kind.agi.Same ids (agi.encode uuid (List.replicate n 0))
    (agi.encode uuid' (List.replicate n 0)) := by
  refine Kind.same_stampFields rfl agreeOutside_refl ?_ rfl ?_
  · refine List.rel_append (forall₂_twin_refl _) ?_
    exact .cons (twin_uuid (k := .agi) hids) (forall₂_twin_refl _)
  · rw [List.length_replicate]
    exact le_trans (by decide) hn

lemma same_agfl (hs : 2 ^ 9 ≤ g.sectsize) :
    Kind.agfl.Same ids (agflImage g agno uuid list) (agflImage g agno uuid' list) := by
  have hheader : List.Forall₂ (FieldTwin (Kind.agfl.uncounted ids)) (Agfl.headerFields agno uuid)
      (Agfl.headerFields agno uuid') :=
    .cons (.inl rfl) (.cons (.inl rfl) (.cons (twin_uuid (k := .agfl) hids)
      (forall₂_twin_refl _)))
  refine Kind.same_stampFields (by simp) ?_ (forall₂_twin_refl _) rfl ?_
  · exact (agreeOutside_refl.putFields rfl hheader).putFields (by simp) (forall₂_twin_refl _)
  · rw [length_putFields, length_putFields, List.length_replicate]
    exact le_trans (by decide) hs

/-- The block of a root. -/
lemma same_root (hbs : Btree.Off.recs ≤ g.bs) :
    BlockSame ids (r.image g agno uuid) (r.image g agno uuid') := by
  have huuid : FieldTwin (blockUncounted ids) ⟨Btree.Off.uuid, uuid.1⟩
      ⟨Btree.Off.uuid, uuid'.1⟩ := by
    cases ids with
    | true => exact .inl (by rw [hids rfl])
    | false => exact .inr ⟨by rw [Field.place_mk, Field.place_mk, uuid.2, uuid'.2],
        by rw [Field.place_mk, uuid.2]; decide⟩
  have hcrc : (Btree.Off.crc, 4) ∈ blockUncounted ids := by cases ids <;> decide
  have hroom : Btree.Off.crc + 4 ≤ (List.replicate g.bs (0 : UInt8)).length := by
    rw [List.length_replicate]
    exact le_trans (by decide) hbs
  refine ⟨by rw [Root.length_image, Root.length_image], ?_, ?_⟩
  · refine (agreeOutside_refl.putFields rfl ?_).stamp hcrc
    refine List.rel_append ?_ (forall₂_twin_refl _)
    rw [Btree.leafFields, Btree.leafFields]
    iterate 7 refine .cons (.inl rfl) ?_
    exact .cons huuid (forall₂_twin_refl _)
  · rw [Root.image, Root.image, verify_stampFields hroom, verify_stampFields hroom]

end Headers

/-! ### The log's first record -/

section Records

variable {l : List (ℕ × ℕ)} {sunit lo hi cycle u lsn tail : ℕ}

lemma AgreeOutside.stampBlocks (h : AgreeOutside l a b) (hlen : a.length = b.length) :
    AgreeOutside l (Log.stampBlocks a lo hi cycle) (Log.stampBlocks b lo hi cycle) := by
  rw [Log.stampBlocks, Log.stampBlocks]
  induction List.range' lo (hi - lo) generalizing a b with
  | nil => exact h
  | cons j js ih =>
      rw [List.foldl_cons, List.foldl_cons]
      exact ih (h.put32 hlen) (by rw [length_put32, length_put32, hlen])

lemma AgreeOutside.putUnmount (h : AgreeOutside l a b) (hlen : a.length = b.length) :
    AgreeOutside l (Log.putUnmount a u) (Log.putUnmount b u) := by
  rw [Log.putUnmount, Log.putUnmount]
  exact ((((h.put32 hlen).put32 (by simp [hlen])).splice (by simp [hlen])).splice
    (by simp [hlen])).splice (by simp [hlen])

/-- The headers of two records, written over the same bytes, differ in the UUID. -/
lemma agree_putHeader : AgreeOutside [(Log.Off.fsUuid, 16)] (Log.putHeader a uuid sunit lsn tail)
    (Log.putHeader a uuid' sunit lsn tail) := by
  rw [Log.putHeader, Log.putHeader]
  refine AgreeOutside.put32 (AgreeOutside.splice_within agreeOutside_refl ?_ ?_) (by simp)
  · simp [uuid.2]
  · rw [uuid.2, uuid'.2]

/-- **Records differ in the UUID of their headers.** -/
lemma agree_record : AgreeOutside [(Log.Off.fsUuid, 16)] (Log.record uuid sunit lsn tail)
    (Log.record uuid' sunit lsn tail) := by
  have hhdrs := Log.bbsize_le_unmount sunit
  have hpast : Log.Off.fsUuid + 16 ≤ bbsize := by decide
  rw [Log.record, Log.record]
  set rec₀ : Buf := List.replicate (Log.recordLen sunit * bbsize) 0
  have h₂ : AgreeOutside [(Log.Off.fsUuid, 16)]
      (Log.stampBlocks (Log.putHeader rec₀ uuid sunit lsn tail) 1 (Log.recordHdrs sunit)
        (lsn >>> 32))
      (Log.stampBlocks (Log.putHeader rec₀ uuid' sunit lsn tail) 1 (Log.recordHdrs sunit)
        (lsn >>> 32)) := agree_putHeader.stampBlocks (by simp)
  have h₃ := @AgreeOutside.putUnmount _ _ _ (Log.recordHdrs sunit * bbsize) h₂ (by simp)
  have hword := h₃.be32 (o := Log.recordHdrs sunit * bbsize) (by simp) fun k hk hin => by
    simp only [Within, List.mem_singleton, exists_eq_left] at hin
    omega
  rw [hword]
  exact ((h₃.put32 (by simp)).put32 (by simp)).stampBlocks (by simp)

lemma same_record (hids : ids = true → uuid = uuid') :
    Kind.record.Same ids ((Log.firstRecord uuid sunit).take bbsize)
        ((Log.firstRecord uuid' sunit).take bbsize) ∧
      ∀ i, bbsize ≤ i → byteAt (Log.firstRecord uuid sunit) i =
        byteAt (Log.firstRecord uuid' sunit) i := by
  have hlen : (Log.firstRecord uuid sunit).length = (Log.firstRecord uuid' sunit).length :=
    Log.length_record.trans Log.length_record.symm
  have hagree : AgreeOutside [(Log.Off.fsUuid, 16)] (Log.firstRecord uuid sunit)
    (Log.firstRecord uuid' sunit) := agree_record
  refine ⟨⟨by rw [List.length_take, List.length_take, hlen], fun i hi hout => ?_,
    fun o ho => by cases ho⟩, fun i hi => hagree.byte hlen ?_⟩
  · rw [List.length_take] at hi
    rw [byteAt_take (by omega), byteAt_take (by omega)]
    cases ids with
    | true => rw [hids rfl]
    | false => exact hagree.byte hlen hout
  · rintro ⟨r, hr, hin⟩
    obtain rfl := List.mem_singleton.mp hr
    have hpast : Log.Off.fsUuid + 16 ≤ bbsize := by decide
    omega

end Records

/-! ### The inodes -/

/-- Two inodes that differ in their generations and times. -/
structure DinodeTwin (i j : Dinode) : Prop where
  ino : j.ino = i.ino
  mode : j.mode = i.mode
  format : j.format = i.format
  nlink : j.nlink = i.nlink
  size : j.size = i.size
  flags : j.flags = i.flags
  flags2 : j.flags2 = i.flags2
  changecount : j.changecount = i.changecount
  data : j.data = i.data

/-- Two chunks of `n` inodes that are the same where it counts. -/
structure SlotsSame (ids : Bool) (isz n : ℕ) (b c : Buf) : Prop where
  left : b.length = n * isz
  right : c.length = n * isz
  slots : ∀ i < n, Kind.inode.Same ids (inodeSlot isz b i) (inodeSlot isz c i)

section Inodes

variable {i j : Dinode} {isz n m first gen gen' : ℕ} {b' c c' : Buf} {f f' : Buf → Exec Buf}
  (hids : ids = true → uuid = uuid')

include hids

lemma same_encodeFree (hn : Inode.coreSize ≤ a.length) :
    Kind.inode.Same ids (Inode.encodeFree first gen uuid a)
      (Inode.encodeFree first gen' uuid' a) := by
  have hgen : (Inode.Off.gen, 4) ∈ Kind.inode.uncounted ids := by cases ids <;> decide
  refine Kind.same_stampFields rfl agreeOutside_refl ?_ rfl (le_trans (by decide) hn)
  exact .cons (.inl rfl) (.cons (.inl rfl) (.cons (.inr ⟨rfl, hgen⟩) (.cons (.inl rfl)
    (.cons (.inl rfl) (.cons (twin_uuid (k := .inode) hids) .nil)))))

lemma same_encode (hij : DinodeTwin i j) (hab : Kind.inode.Same ids a b)
    (hn : Inode.coreSize ≤ a.length) (ha : i.encode uuid a = .ok b') (hb : j.encode uuid' b = .ok c') :
    Kind.inode.Same ids b' c' := by
  obtain ⟨atime, mtime, ctime, crtime, htimes, hb'⟩ := Dinode.encode_eq ha
  obtain ⟨atime', mtime', ctime', crtime', htimes', hc'⟩ := Dinode.encode_eq hb
  have hin : ∀ r ∈ [(Inode.Off.atime, 8), (Inode.Off.mtime, 8), (Inode.Off.ctime, 8),
      (Inode.Off.crtime, 8), (Inode.Off.gen, 4)], r ∈ Kind.inode.uncounted ids := by
    cases ids <;> decide
  have h64 : ∀ o v v', (o, 8) ∈ [(Inode.Off.atime, 8), (Inode.Off.mtime, 8), (Inode.Off.ctime, 8),
      (Inode.Off.crtime, 8), (Inode.Off.gen, 4)] →
      FieldTwin (Kind.inode.uncounted ids) (.u64 o v) (.u64 o v') := fun o v v' ho =>
    .inr ⟨rfl, hin (o, 8) ho⟩
  have hcore : List.Forall₂ (FieldTwin (Kind.inode.uncounted ids))
      (i.fields uuid atime mtime ctime crtime) (j.fields uuid' atime' mtime' ctime' crtime') := by
    rw [Dinode.fields, Dinode.fields, hij.ino, hij.mode, hij.format, hij.nlink, hij.size,
      hij.flags, hij.flags2, hij.changecount]
    iterate 5 refine .cons (.inl rfl) ?_
    refine .cons (h64 _ _ _ (by decide)) (.cons (h64 _ _ _ (by decide))
      (.cons (h64 _ _ _ (by decide)) ?_))
    iterate 4 refine .cons (.inl rfl) ?_
    refine .cons (.inr ⟨rfl, hin (Inode.Off.gen, 4) (by decide)⟩) ?_
    iterate 3 refine .cons (.inl rfl) ?_
    refine .cons (h64 _ _ _ (by decide)) (.cons (.inl rfl) (.cons ?_ .nil))
    exact twin_uuid (k := .inode) hids
  have hdata : List.Forall₂ (FieldTwin (Kind.inode.uncounted ids))
      [⟨Inode.coreSize, i.data⟩] [⟨Inode.coreSize, j.data⟩] := by
    rw [hij.data]
    exact forall₂_twin_refl _
  rw [hb', hc']
  exact Kind.same_stampFields (k := .inode) hab.length hab.agree (List.rel_append hcore hdata) rfl
    ((by decide : Inode.Off.crc + 4 ≤ Inode.coreSize).trans hn)

/-- Chunks of free inodes. -/
lemma same_freeSlots (hisz : Inode.coreSize ≤ isz) :
    SlotsSame ids isz n (freeSlots first gen uuid isz (List.replicate (n * isz) 0))
      (freeSlots first gen' uuid' isz (List.replicate (n * isz) 0)) := by
  have hpos : 0 < isz := lt_of_lt_of_le (by decide) hisz
  refine ⟨length_freeSlots hpos, length_freeSlots hpos, fun k hk => ?_⟩
  have hget : (List.replicate n (List.replicate isz (0 : UInt8))).zipIdx[k]?
      = some (List.replicate isz 0, k) := by
    rw [List.getElem?_zipIdx, List.getElem?_replicate, if_pos hk]
    simp
  rw [freeSlots, freeSlots, chunks_zeros hpos,
    inodeSlot_flatMap (fun r hr => length_freeSlot hr) hget,
    inodeSlot_flatMap (fun r hr => length_freeSlot hr) hget]
  exact same_encodeFree hids (by simpa using hisz)

omit hids in
/-- Rewriting a slot on both sides keeps the chunks the same where it counts. -/
lemma SlotsSame.onSlice {k : ℕ} (h : SlotsSame ids isz n b c) (hk : k < n)
    (hf : ∀ s t s' t', Kind.inode.Same ids s t → s.length = isz → f s = .ok s' → f' t = .ok t' →
      s'.length = isz ∧ Kind.inode.Same ids s' t')
    (hb : MkfsXfs.onSlice b (k * isz) isz f = .ok b')
    (hc : MkfsXfs.onSlice c (k * isz) isz f' = .ok c') : SlotsSame ids isz n b' c' := by
  have hlenb := length_onSlice hb
  have hlenc := length_onSlice hc
  rw [MkfsXfs.onSlice] at hb hc
  split_ifs at hb hc with hinb hinc
  obtain ⟨s, hs, hb⟩ := bind_eq_ok.mp hb
  obtain ⟨t, ht, hc⟩ := bind_eq_ok.mp hc
  have hcut : ∀ x : Buf, (x.drop (k * isz)).take isz = inodeSlot isz x k := fun x => by
    rw [inodeSlot, slice, Nat.succ_mul, Nat.add_sub_cancel_left]
  rw [hcut] at hs ht
  obtain ⟨hslen, hsame⟩ := hf _ _ s t (h.slots k hk) (by
    rw [inodeSlot, Nat.succ_mul, length_slice (by omega), Nat.add_sub_cancel_left]) hs ht
  have htlen : t.length = isz := hsame.length.symm.trans hslen
  have hslot : ∀ (x y : Buf), x.length = n * isz → y.length = isz → ∀ i < n,
      inodeSlot isz (splice x (k * isz) y) i = if i = k then y else inodeSlot isz x i := by
    intro x y hx hlen i hi
    have hend : (i + 1) * isz ≤ n * isz := Nat.mul_le_mul_right _ hi
    have hkend : (k + 1) * isz ≤ n * isz := Nat.mul_le_mul_right _ hk
    rw [inodeSlot]
    split_ifs with hik
    · subst hik
      have hself := @slice_splice_self x (i * isz) y (by rw [hlen, ← Nat.succ_mul, hx]; exact hkend)
      rwa [hlen, ← Nat.succ_mul] at hself
    · refine slice_splice_of_disjoint (by rw [hx]; exact hend) ?_
      rw [hlen, ← Nat.succ_mul]
      rcases Nat.lt_or_gt_of_ne hik with hlt | hgt
      · exact .inl (Nat.mul_le_mul_right _ hlt)
      · exact .inr (Nat.mul_le_mul_right _ hgt)
  refine ⟨hlenb.trans h.left, hlenc.trans h.right, fun i hi => ?_⟩
  rw [← Except.ok.inj hb, ← Except.ok.inj hc, hslot b s h.left hslen i hi,
    hslot c t h.right htlen i hi]
  split_ifs
  · exact hsame
  · exact h.slots i hi

omit hids in
/-- The steps that make a root chunk, with the generation numbers they draw. -/
lemma rootChunk_steps {g : Geometry} {agbno : ℕ} {time : Timestamp} {seed : Gen}
    (hb : rootChunk g agbno uuid time seed = .ok b) : ∃ chunkGen rbmGen rsumGen b₁ b₂,
    MkfsXfs.onSlice (freeSlots (g.ino 0 agbno 0) chunkGen uuid g.inodesize
      (List.replicate (g.chunkBlocks * g.bs) 0)) 0 g.inodesize
      ((rootInode g (g.ino 0 agbno 0) time).sizeFromData.encode uuid) = .ok b₁ ∧
    MkfsXfs.onSlice b₁ g.inodesize g.inodesize
      ((rbmInode g (g.ino 0 agbno 0) time rbmGen).encode uuid) = .ok b₂ ∧
    MkfsXfs.onSlice b₂ (2 * g.inodesize) g.inodesize
      ((rsumInode g (g.ino 0 agbno 0) time rsumGen).encode uuid) = .ok b := by
  rw [rootChunk] at hb
  obtain ⟨b₁, hb₁, hb⟩ := bind_eq_ok.mp hb
  obtain ⟨b₂, hb₂, hb⟩ := bind_eq_ok.mp hb
  exact ⟨_, _, _, b₁, b₂, hb₁, hb₂, hb⟩

/-- **Root chunks are the same where it counts.** -/
lemma same_rootChunk {params : Params} {dev logical physical : ℕ} {g : Geometry}
    (h : Accepted params dev logical physical g) {agbno : ℕ} {time time' : Timestamp}
    {seed seed' : Gen} (hb : rootChunk g agbno uuid time seed = .ok b)
    (hc : rootChunk g agbno uuid' time' seed' = .ok c) : SlotsSame ids g.inodesize 64 b c := by
  have hisz : Inode.coreSize ≤ g.inodesize := by
    rw [h.inodesize]
    exact le_trans (by decide) (Nat.pow_le_pow_right (by norm_num) h.inodelog_ge : 2 ^ 9 ≤ _)
  have hencode : ∀ i j, DinodeTwin i j → ∀ s t s' t', Kind.inode.Same ids s t →
      s.length = g.inodesize → i.encode uuid s = .ok s' → j.encode uuid' t = .ok t' →
        s'.length = g.inodesize ∧ Kind.inode.Same ids s' t' :=
    fun i j hij s t s' t' hst hlen hs ht => ⟨(Dinode.length_encode hs).trans hlen,
      same_encode hids hij hst (by rwa [hlen]) hs ht⟩
  obtain ⟨chunkGen, rbmGen, rsumGen, b₁, b₂, hb₁, hb₂, hb₃⟩ := rootChunk_steps hb
  obtain ⟨chunkGen', rbmGen', rsumGen', c₁, c₂, hc₁, hc₂, hc₃⟩ := rootChunk_steps hc
  rw [h.chunkBytes] at hb₁ hc₁
  set first := g.ino 0 agbno 0
  have hroot : DinodeTwin (rootInode g first time).sizeFromData
      (rootInode g first time').sizeFromData := ⟨rfl, rfl, rfl, rfl, rfl, rfl, rfl, rfl, rfl⟩
  have hrbm : DinodeTwin (rbmInode g first time rbmGen) (rbmInode g first time' rbmGen') :=
    ⟨rfl, rfl, rfl, rfl, rfl, rfl, rfl, rfl, rfl⟩
  have hrsum : DinodeTwin (rsumInode g first time rsumGen) (rsumInode g first time' rsumGen') :=
    ⟨rfl, rfl, rfl, rfl, rfl, rfl, rfl, rfl, rfl⟩
  have h₀ : SlotsSame ids g.inodesize 64
      (freeSlots first chunkGen uuid g.inodesize (List.replicate (64 * g.inodesize) 0))
      (freeSlots first chunkGen' uuid' g.inodesize (List.replicate (64 * g.inodesize) 0)) :=
    same_freeSlots hids hisz
  have h₁ := h₀.onSlice (k := 0) (by norm_num) (hencode _ _ hroot) (by rwa [Nat.zero_mul])
    (by rwa [Nat.zero_mul])
  have h₂ := h₁.onSlice (k := 1) (by norm_num) (hencode _ _ hrbm) (by rwa [Nat.one_mul])
    (by rwa [Nat.one_mul])
  exact h₂.onSlice (by norm_num) (hencode _ _ hrsum) hb₃ hc₃

end Inodes

end Structures

end Inspect

end MkfsXfs
