import MkfsXfs.Format.PlanOk
import MkfsXfs.Format.Run

/-!
The inodes of the root chunk, found by a reader that walks the inode btree.

* `run_dumpTree_leaf`, `run_readInode`: the walk's steps on a healthy disk.
* `InobtRead`: what the one record of AG 0 says.
* `InodesFound`, `rootChunk_found`: every inode of the record is reached under its number.
-/

namespace MkfsXfs

open Checked Inspect

/-! ### The walk's steps -/

section Walk

variable {dev : Device} {d : Disk} {g : Geo} {agno : ℕ}

/-- The walk of a btree whose root is a leaf returns the records of its block. -/
lemma run_dumpTree_leaf {t : Tree} {root len : ℕ} {b : Buf} (hd : d.Healthy)
    (hlen : g.agLen agno = .ok len) (hroot : root < len)
    (hdev : g.byte agno root + g.blocksize ≤ dev.size)
    (hb : d.readBuf (g.byte agno root) g.blocksize = b) (hmagic : be32 b Btree.Off.magic = t.magic)
    (hlevel : be16 b Btree.Off.level = 0) :
    ∃ dump, dev.run (dumpTree g agno t root) d = (.ok (dump, leafRecs t b), d) := by
  have hread : ∀ bp, ∃ dump, dev.run (readBlock g agno t bp root) d
      = (.ok (dump, [], leafRecs t b), d) := by
    intro bp
    refine ⟨(dumpBlock t bp root b).1, ?_⟩
    rw [readBlock, hlen, Device.run_bind_ok (Device.run_monadLift (.ok len)),
      if_neg (Nat.not_le.mpr hroot), Device.run_bind_ok (Device.run_readAt hd hdev), hb]
    have hblock : dumpBlock t bp root b = ((dumpBlock t bp root b).1, [], leafRecs t b) := by
      rw [dumpBlock, if_neg (not_not.mpr hmagic), if_pos hlevel]
    conv_lhs => rw [hblock]
    rfl
  have hlevel0 : ∀ lp i, ∃ dump, dev.run (dumpLevel g agno t lp i [root]) d
      = (.ok (dump, [], leafRecs t b), d) := by
    intro lp i
    obtain ⟨dump, hrun⟩ := hread s!"{lp}[{i}]"
    refine ⟨dump ++ [], (Device.run_bind_ok hrun).trans ?_⟩
    simp [dumpLevel]
  have hlevels : ∀ p rest, ∃ dump, dev.run (dumpLevels g agno t p (rest + 1) [root]) d
      = (.ok (dump, leafRecs t b), d) := by
    intro p rest
    obtain ⟨dump, hrun⟩ := hlevel0 s!"{p}.l{15 - rest}" 0
    refine ⟨dump ++ [], (Device.run_bind_ok hrun).trans ?_⟩
    cases rest <;> simp [dumpLevels]
  exact hlevels _ 15

/-- An inode is read at its block and its slot. -/
lemma run_readInode {startino agino agbno slot len ino : ℕ} {block b : Buf} (hd : d.Healthy)
    (hat : inodeAt g agino = .ok (agbno, slot)) (hlen : g.agLen agno = .ok len)
    (hin : agbno < len) (hdev : g.byte agno agbno + g.blocksize ≤ dev.size)
    (hblock : d.readBuf (g.byte agno agbno) g.blocksize = block)
    (hino : inodeNumber g agno agino = .ok ino)
    (hslice : sliceAt block (slot * g.inodesize) g.inodesize = .ok b) :
    dev.run (readInode g agno startino agino) d = (.ok (ino, b), d) := by
  rw [readInode, hat, Device.run_bind_ok (Device.run_monadLift (.ok (agbno, slot)))]
  simp only
  rw [hlen, Device.run_bind_ok (Device.run_monadLift (.ok len)), if_neg (Nat.not_le.mpr hin),
    Device.run_bind_ok (Device.run_readAt hd hdev), hblock, hino,
    Device.run_bind_ok (Device.run_monadLift (.ok ino)), hslice,
    Device.run_bind_ok (Device.run_monadLift (.ok b))]
  rfl

end Walk

/-! ### The record -/

/-- What the inode btree's record `raw` says: 64 inodes from `startino` on, none of them in a
hole, all free but the first three. -/
structure InobtRead (sparse : Bool) (startino : ℕ) (raw : Buf) : Prop where
  chunk : chunkOf sparse raw = (startino, 0)
  free : ∀ i < 64, (be64 raw 8).testBit i = decide (3 ≤ i)
  freecount : (if sparse then (byteAt raw 7).toNat else be32 raw 4) = 61
  count : sparse = true → (byteAt raw 6).toNat = 64

/-- The bits of the free mask. -/
lemma testBit_free {i : ℕ} (hi : i < 64) :
    (2 ^ 64 - 1 - 0b111).testBit i = decide (3 ≤ i) := by
  interval_cases i <;> rfl

section Record

variable {g : Geometry} {plan : AgPlan} {startino : ℕ}

/-- No inode of the chunk is in a hole. -/
lemma present_zero : present 0 = List.range 64 := by
  rw [present, List.filter_eq_self]
  intro i _
  simp

/-- The fields of an inode btree record. -/
def inobtFields (sparse : Bool) (r : InobtRec) (o : ℕ) : List Field :=
  .u32 o r.startino ::
    (if sparse then
      [.u16 (o + 4) r.holemask, .u8 (o + 6) r.count, .u8 (o + 7) r.freecount,
        .u64 (o + 8) r.free]
    else [.u32 (o + 4) r.freecount, .u64 (o + 8) r.free])

lemma inobtRecs_eq (recs : List InobtRec) (sparse : Bool) :
    Btree.inobtRecs recs sparse = packRecs Btree.inobtRec (inobtFields sparse) recs := rfl

lemma ascending_inobtFields {sparse : Bool} (r : InobtRec) (o : ℕ) :
    Ascending (inobtFields sparse r o) := by
  refine ascending_of_places ?_
  cases sparse <;> simp [inobtFields]

/-- The fields lie within their record. -/
lemma inobtFields_within {sparse : Bool} (r : InobtRec) (o : ℕ) :
    ∀ f ∈ inobtFields sparse r o, o ≤ f.off ∧ f.past ≤ o + Btree.inobtRec := by
  intro f hf
  have hsize : Btree.inobtRec = 16 := rfl
  cases sparse with
  | true =>
      simp only [inobtFields, if_true, List.mem_cons, List.not_mem_nil, or_false] at hf
      rcases hf with rfl | rfl | rfl | rfl | rfl <;> rw [Field.past_eq] <;>
        simp [Field.u8, Field.u16, Field.u32, Field.u64, hsize]
  | false =>
      simp only [inobtFields, Bool.false_eq_true, if_false, List.mem_cons, List.not_mem_nil,
        or_false] at hf
      rcases hf with rfl | rfl | rfl <;> rw [Field.past_eq] <;>
        simp [Field.u32, Field.u64, hsize]

/-- **The record of the root chunk is read back.** -/
lemma inobtRead_inodes (hs : plan.startino g = some startino) (hlt : startino < 2 ^ 32)
    (sparse : Bool) :
    InobtRead sparse startino (slice (Btree.inobtRecs (plan.inodes g) sparse)
      (0 * Btree.inobtRec) (0 * Btree.inobtRec + Btree.inobtRec)) := by
  have hr : (plan.inodes g)[0]? = some ⟨startino, 0, 64, 61, 2 ^ 64 - 1 - 0b111⟩ := by
    rw [AgPlan.inodes, hs]
    rfl
  rw [inobtRecs_eq]
  have hstart : be32 (slice (packRecs Btree.inobtRec (inobtFields sparse) (plan.inodes g))
      (0 * Btree.inobtRec) (0 * Btree.inobtRec + Btree.inobtRec)) 0 = startino :=
    be32_packRecs ascending_inobtFields inobtFields_within hr (by simp [inobtFields]) hlt
  have hfree : ∀ i < 64, (be64 (slice (packRecs Btree.inobtRec (inobtFields sparse)
      (plan.inodes g)) (0 * Btree.inobtRec) (0 * Btree.inobtRec + Btree.inobtRec)) 8).testBit i
      = decide (3 ≤ i) := by
    intro i hi
    rw [be64_packRecs ascending_inobtFields inobtFields_within hr (v := 2 ^ 64 - 1 - 0b111)
      (by cases sparse <;> simp [inobtFields]) (by norm_num), testBit_free hi]
  cases sparse with
  | true =>
      refine ⟨?_, hfree, ?_, fun _ => ?_⟩
      · rw [chunkOf, if_pos rfl, hstart, be16_packRecs ascending_inobtFields inobtFields_within hr
          (v := 0) (by simp [inobtFields]) (by norm_num)]
      · rw [if_pos rfl, byteAt_packRecs ascending_inobtFields inobtFields_within hr (v := 61)
          (by simp [inobtFields])]
        rfl
      · rw [byteAt_packRecs ascending_inobtFields inobtFields_within hr (v := 64)
          (by simp [inobtFields])]
        rfl
  | false =>
      refine ⟨?_, hfree, ?_, fun h => by cases h⟩
      · rw [chunkOf, if_neg Bool.false_ne_true, hstart]
      · rw [if_neg Bool.false_ne_true, be32_packRecs ascending_inobtFields inobtFields_within hr
          (v := 61) (by simp [inobtFields]) (by norm_num)]

end Record

/-! ### The walk -/

/-- The disk holds `b` at `off`. -/
def Disk.Holds (d : Disk) (off : ℕ) (b : Buf) : Prop := d.readBuf off b.length = b

lemma Disk.Holds.readBuf {d : Disk} {off k len : ℕ} {b : Buf} (h : d.Holds off b)
    (hk : k + len ≤ b.length) : d.readBuf (off + k) len = slice b k (k + len) := by
  refine Buf.ext (by rw [Disk.length_readBuf, length_slice hk]; omega) fun i hi => ?_
  rw [Disk.length_readBuf] at hi
  rw [Disk.byteAt_readBuf hi, byteAt_slice (by omega), ← h, Disk.byteAt_readBuf (by omega),
    Nat.add_assoc]

/-- The number of inode `agino` of AG 0. -/
def inoOf (g : Geometry) (agino : ℕ) : ℕ := 0 <<< (g.agblklog + g.inopblog) ||| agino

/-- What a reader that walks the inode btree of AG 0 finds on the disk: the record that the
headers speak of, each of its inodes within the AG and with its own number, and the first
three under the numbers in the superblock. -/
structure InodesFound (g : Geometry) (uuid : Uuid) (dev : Device) (d : Disk) (head inodes : Buf)
    (startino : ℕ) : Prop where
  newino : be32 (sectorOf g.geo head 2) Agi.Off.newino = startino
  counts : be32 (sectorOf g.geo head 2) Agi.Off.count = 64 ∧
    be32 (sectorOf g.geo head 2) Agi.Off.freecount = 61
  record : ∃ dump raw, dev.run (dumpTree g.geo 0 inobt
      (be32 (sectorOf g.geo head 2) Agi.Off.root)) d = (.ok (dump, [raw]), d) ∧
    InobtRead (decide (g.geo.incompat &&& Sb.Version.inSpinodes ≠ 0)) startino raw
  place : ∀ i < 64, ∃ agbno slot len, inodeAt g.geo (startino + i) = .ok (agbno, slot) ∧
    agbno = (startino + i) >>> g.inopblog ∧ slot = (startino + i) % g.inopblock ∧
    g.geo.agLen 0 = .ok len ∧ agbno < len
  inode : ∀ i < 64, dev.run (readInode g.geo 0 startino (startino + i)) d
      = (.ok (inoOf g (startino + i), inodeSlot g.inodesize inodes i), d) ∧
    InodeRead uuid (inoOf g (startino + i)) (inodeSlot g.inodesize inodes i)
  rootino : be64 (sectorOf g.geo head 0) Sb.Off.rootino = inoOf g startino
  rbmino : be64 (sectorOf g.geo head 0) Sb.Off.rbmino = inoOf g (startino + 1)
  rsumino : be64 (sectorOf g.geo head 0) Sb.Off.rsumino = inoOf g (startino + 2)

section Found

variable {params : Params} {dev logical physical : ℕ} {g : Geometry} {plan : AgPlan}
  {uuid : Uuid} {sbs : SbState}

/-- Inode numbers of AG 0 are numbers within the AG. -/
lemma inoOf_eq (agino : ℕ) : inoOf g agino = agino := by
  rw [inoOf, Nat.zero_shiftLeft, Nat.zero_or]

lemma ino_zero_eq (agbno : ℕ) : g.ino 0 agbno 0 = agbno * 2 ^ g.inopblog := by
  rw [Geometry.ino, Nat.zero_shiftLeft, Nat.zero_or, Nat.or_zero, Nat.shiftLeft_eq]

/-- The sparse inodes feature as a reader sees it. -/
lemma Geometry.sparse_geo :
    decide (g.geo.incompat &&& Sb.Version.inSpinodes ≠ 0) = g.features.sparse := by
  cases hs : g.features.sparse <;> cases hb : g.features.bigtime <;>
    cases hn : g.features.nrext64 <;> simp only [Geometry.geo, Sb.incompat, hs, hb, hn] <;> decide

/-- The chunk's first inode, whose number loses nothing to its 32 bits. -/
lemma Accepted.startino_eq (h : Accepted params dev logical physical g) (hp : plan.Of g 0) :
    plan.startino g = some (g.rootChunkAgbno * 2 ^ g.inopblog) ∧
      g.rootChunkAgbno * 2 ^ g.inopblog + 64 < 2 ^ 32 := by
  have hbound := h.rootChunk_bounds.2
  have hino := h.inopblock_eq.2
  have hbl := h.blocklog_le
  have hpow : 2 ^ g.inopblog ≤ 2 ^ 5 := Nat.pow_le_pow_right (by norm_num) (by omega)
  have hmul : g.rootChunkAgbno * 2 ^ g.inopblog ≤ 80 * 2 ^ 5 :=
    Nat.mul_le_mul (by omega) hpow
  have hchunk := hp.planned.chunk
  rw [hp.agno_eq, if_pos rfl] at hchunk
  refine ⟨?_, by omega⟩
  rw [AgPlan.startino, hchunk, Option.map_some, Nat.shiftLeft_eq, toU32_of_lt (by omega)]

/-- The 64 inodes fill the blocks of the chunk. -/
lemma Accepted.chunk_slots (h : Accepted params dev logical physical g) :
    g.bs = 2 ^ g.inopblog * g.inodesize ∧ g.chunkBlocks * 2 ^ g.inopblog = 64 := by
  have hino := h.inodelog_lt
  have hge := h.inodelog_ge
  have hpos : 0 < g.inodesize := by
    rw [h.inodesize]
    exact Nat.two_pow_pos _
  have hbs : g.bs = 2 ^ g.inopblog * g.inodesize := by
    rw [Geometry.bs, h.blocksize, h.inodesize, h.inopblog, ← pow_add]
    congr 1
    omega
  refine ⟨hbs, Nat.eq_of_mul_eq_mul_right hpos ?_⟩
  rw [Nat.mul_assoc, ← hbs, h.chunkBytes]

/-- Where a reader looks for an inode of the chunk. -/
lemma Accepted.inodeAt_eq (h : Accepted params dev logical physical g) {c i : ℕ} :
    inodeAt g.geo (c * 2 ^ g.inopblog + i)
      = .ok (c + i / 2 ^ g.inopblog, i % 2 ^ g.inopblog) := by
  have hino := h.inopblock_eq.2
  have hbl := h.blocklog_le
  have hk : g.geo.inopblog = g.inopblog := rfl
  have hpos := Nat.two_pow_pos g.inopblog
  have hlt : 2 ^ g.inopblog < 2 ^ 64 := Nat.pow_lt_pow_right (by norm_num) (by omega)
  have hblock : (c * 2 ^ g.inopblog + i) >>> g.inopblog = c + i / 2 ^ g.inopblog := by
    rw [Nat.shiftRight_eq_div_pow, Nat.mul_comm, Nat.mul_add_div hpos]
  have hslot : (c * 2 ^ g.inopblog + i) &&& (2 ^ g.inopblog - 1) = i % 2 ^ g.inopblog := by
    rw [Nat.and_two_pow_sub_one_eq_mod, Nat.mul_comm, Nat.mul_add_mod]
  rw [inodeAt, hk, shr64, if_pos (by omega), ok_bind, shl64, if_pos (by omega), ok_bind,
    Nat.one_shiftLeft, Nat.mod_eq_of_lt hlt, hblock, hslot]
  rfl

/-- AG 0 as a reader sees it. -/
lemma Accepted.agLen_zero (h : Accepted params dev logical physical g) :
    g.geo.agLen 0 = .ok g.agsize := by
  have hn := h.agcount_ge
  have hcount : g.geo.agcount = g.agcount := rfl
  rw [Geo.agLen, hcount, sub_of_le (by omega), ok_bind, if_neg (by omega)]
  rfl

/-- A block at the start of AG 0 as a reader addresses it, on the device. -/
lemma Accepted.byte_zero (h : Accepted params dev logical physical g) {b : ℕ} (hb : b < 80) :
    g.geo.byte 0 b = b * g.bs ∧ b * g.bs + g.bs ≤ dev := by
  have hbl := h.blocklog_le
  have hd := h.dblocks_ge
  have hsize := (Nat.mul_le_mul_right g.blocksize h.dblocks_le).trans h.asked_mul_le
  have hpow : 2 ^ g.blocklog ≤ 2 ^ 14 := Nat.pow_le_pow_right (by norm_num) hbl
  have hbs : g.bs = 2 ^ g.blocklog := h.blocksize
  have h80 : 80 ≤ g.dblocks := by
    refine le_trans ?_ hd
    rw [mib, Nat.shiftRight_eq_div_pow, Nat.le_div_iff_mul_le (Nat.two_pow_pos _)]
    omega
  have hle : (b + 1) * g.bs ≤ g.dblocks * g.blocksize :=
    Nat.mul_le_mul (by omega) le_rfl
  have hsmall : b * g.bs ≤ 80 * 2 ^ 14 := Nat.mul_le_mul hb.le (by rw [hbs]; exact hpow)
  rw [Nat.succ_mul] at hle
  refine ⟨?_, hle.trans hsize⟩
  have hlog : g.geo.blocklog = g.blocklog := rfl
  rw [Geo.byte, Nat.zero_mul, Nat.zero_add, hlog, Nat.shiftLeft_eq, ← hbs,
    Nat.mod_eq_of_lt (by omega)]

/-- The disk address of a block at the start of AG 0. -/
lemma Accepted.daddr_zero (h : Accepted params dev logical physical g) {b : ℕ} (hb : b < 80) :
    g.agbToDaddr 0 b < 2 ^ 64 := by
  have hbl := h.blocklog_le
  have hpow : 2 ^ (g.blocklog - 9) ≤ 2 ^ 5 := Nat.pow_le_pow_right (by norm_num) (by omega)
  have hmul : b * 2 ^ (g.blocklog - 9) ≤ 80 * 2 ^ 5 := Nat.mul_le_mul hb.le hpow
  rw [Geometry.agbToDaddr, Nat.zero_mul, Nat.zero_add, Nat.shiftLeft_eq]
  omega

/-- The slot that is cut out of its block is the slot of the chunk. -/
lemma Accepted.sliceAt_slot (h : Accepted params dev logical physical g) {inodes : Buf} {i : ℕ}
    (hi : i < 64) (hlen : inodes.length = 64 * g.inodesize) :
    sliceAt (slice inodes (i / 2 ^ g.inopblog * g.bs) (i / 2 ^ g.inopblog * g.bs + g.bs))
        (i % 2 ^ g.inopblog * g.inodesize) g.inodesize
      = .ok (inodeSlot g.inodesize inodes i) := by
  obtain ⟨hbs, hcount⟩ := h.chunk_slots
  have hpos := Nat.two_pow_pos g.inopblog
  have hsplit : i / 2 ^ g.inopblog * g.bs + i % 2 ^ g.inopblog * g.inodesize
      = i * g.inodesize := by
    rw [hbs, ← Nat.mul_assoc, ← Nat.add_mul, Nat.div_add_mod']
  have hslot : (i % 2 ^ g.inopblog + 1) * g.inodesize ≤ g.bs := by
    rw [hbs]
    exact Nat.mul_le_mul_right _ (Nat.mod_lt i hpos)
  have hblock : (i / 2 ^ g.inopblog + 1) * g.bs ≤ 64 * g.inodesize := by
    rw [← h.chunkBytes]
    refine Nat.mul_le_mul_right _ ?_
    rw [Nat.succ_le_iff, Nat.div_lt_iff_lt_mul hpos, hcount]
    exact hi
  rw [Nat.succ_mul] at hslot hblock
  have hwhole : (slice inodes (i / 2 ^ g.inopblog * g.bs)
      (i / 2 ^ g.inopblog * g.bs + g.bs)).length = g.bs := by
    rw [length_slice (by rw [hlen]; exact hblock), Nat.add_sub_cancel_left]
  rw [sliceAt, hwhole, if_pos hslot]
  refine congrArg Except.ok (Buf.ext ?_ fun j hj => ?_)
  · rw [List.length_take, List.length_drop, hwhole, inodeSlot, Nat.succ_mul,
      length_slice (by omega)]
    omega
  · rw [List.length_take, List.length_drop, hwhole] at hj
    rw [byteAt_take (by omega), byteAt_drop, byteAt_slice (by omega), inodeSlot, Nat.succ_mul,
      byteAt_slice (by omega), ← hsplit]
    congr 1
    omega

/-- The head of AG 0, its AGI and the root of its inode btree. -/
structure HeadZero (g : Geometry) (uuid : Uuid) (sbs : SbState) (plan : AgPlan) (head : Buf) :
    Prop where
  sb : sectorOf g.geo head 0 = Sb.image g sbs
  agi : sectorOf g.geo head 2 = (plan.agi g).encode uuid (List.replicate g.sectsize 0)
  root : be32 (sectorOf g.geo head 2) Agi.Off.root = g.ibtBlock
  block : ∃ r ∈ plan.roots g, r.tree = inobt ∧ r.block = g.ibtBlock ∧
    r.recs = Btree.inobtRecs (plan.inodes g) g.features.sparse ∧
    r.numrecs = (plan.inodes g).length ∧ headBlock g head g.ibtBlock = r.image g 0 uuid
  length : head.length = g.preallocBlocks * g.bs

/-- The head of AG 0 is made. -/
lemma Accepted.headZero (h : Accepted params dev logical physical g) (hp : plan.Of g 0)
    (hplan : planAg g 0 = .ok plan) :
    ∃ head, agHead g plan uuid sbs = .ok head ∧ HeadZero g uuid sbs plan head := by
  obtain ⟨agf, hagf, hfree, hrmap, hfl, heq⟩ := hp.agHead_eq h hplan
  obtain ⟨head, hok, hhead⟩ : ∃ head, agHead g plan uuid sbs = .ok head ∧
      head = putFields (List.replicate (g.preallocBlocks * g.bs) 0)
        (plan.headFields g uuid sbs agf) := ⟨_, heq uuid sbs, rfl⟩
  have hzeros : 2 ^ 9 ≤ (List.replicate g.sectsize (0 : UInt8)).length := by
    rw [List.length_replicate]
    exact h.sectsize_ge
  have hagi : sectorOf g.geo head 2
      = (plan.agi g).encode uuid (List.replicate g.sectsize 0) :=
    h.sectorOf_head hhead (by simp [AgPlan.sectorFields])
  have hmem : (⟨inobt, g.ibtBlock, Btree.inobtRecs (plan.inodes g) g.features.sparse,
      (plan.inodes g).length⟩ : Root) ∈ plan.roots g := by simp [AgPlan.roots]
  refine ⟨head, hok, h.sectorOf_head hhead (by simp [AgPlan.sectorFields]), hagi, ?_,
    ⟨_, hmem, rfl, rfl, rfl, rfl, ?_⟩, ?_⟩
  · have hpointers : RootPointers g (agf.encode uuid (List.replicate g.sectsize 0))
        ((plan.agi g).encode uuid (List.replicate g.sectsize 0)) :=
      h.rootPointers hagf hfl hzeros
    rw [hagi, hpointers.ino]
  · have hblock := h.headBlock_head hhead hmem
    rwa [hp.agno_eq] at hblock
  · rw [hhead, length_putFields, List.length_replicate]

/-- **The walk of the inode btree finds the record of the chunk.** -/
lemma Accepted.record_found (h : Accepted params dev logical physical g) (hp : plan.Of g 0)
    (hplan : planAg g 0 = .ok plan) {head : Buf} (hz : HeadZero g uuid sbs plan head)
    {device : Device} {d : Disk} (hsize : device.size = dev) (hd : d.Healthy)
    (hholds : d.Holds 0 head) :
    ∃ dump raw, device.run (dumpTree g.geo 0 inobt
        (be32 (sectorOf g.geo head 2) Agi.Off.root)) d = (.ok (dump, [raw]), d) ∧
      InobtRead g.features.sparse (g.rootChunkAgbno * 2 ^ g.inopblog) raw := by
  obtain ⟨agf, -, hfree, hrmap, -, -⟩ := hp.agHead_eq h hplan
  obtain ⟨hstart, hsmall⟩ := h.startino_eq hp
  obtain ⟨r, hr, htree, hblock, hrecs, hnum, himage⟩ := hz.block
  have hin := (AgPlan.root_block hr).2
  have hprealloc := h.preallocBlocks_bounds.2
  have hag := h.agsize_ge
  rw [hblock] at hin
  obtain ⟨hbyte, hfit⟩ := h.byte_zero (by omega : g.ibtBlock < 80)
  have hdaddr : g.agbToDaddr 0 r.block < 2 ^ 64 := h.daddr_zero (by omega)
  obtain ⟨hread, hleaf⟩ := @Accepted.rootRead _ _ _ _ g plan uuid 0 h (by norm_num) hfree hrmap r
    hr hdaddr
  have hheld : d.readBuf (g.geo.byte 0 g.ibtBlock) g.geo.blocksize = r.image g 0 uuid := by
    have hle : (g.ibtBlock + 1) * g.bs ≤ head.length := by
      rw [hz.length]
      exact Nat.mul_le_mul_right _ hin
    rw [Nat.succ_mul] at hle
    have hslice := hholds.readBuf hle
    rw [Nat.zero_add] at hslice
    rw [hbyte, ← himage, headBlock, Nat.succ_mul]
    exact hslice
  have hlevel := hread.level
  have hmagic := hread.magic
  rw [htree] at hmagic hleaf
  obtain ⟨dump, hrun⟩ := run_dumpTree_leaf hd h.agLen_zero (by omega : g.ibtBlock < g.agsize)
    (by rw [hbyte, hsize]; exact hfit) hheld hmagic hlevel
  have hone : r.numrecs = 1 := by
    rw [hnum, AgPlan.inodes, hstart]
    rfl
  refine ⟨dump, _, ?_, inobtRead_inodes hstart (by omega) g.features.sparse⟩
  rw [hz.root, hrun, hleaf, hone, hrecs]
  rfl

/-- **Every inode of the chunk is read under its number.** -/
lemma Accepted.inode_found (h : Accepted params dev logical physical g) (hdev : dev < 2 ^ 64)
    {inodes : Buf} (hlen : inodes.length = 64 * g.inodesize) {device : Device} {d : Disk}
    (hsize : device.size = dev) (hd : d.Healthy)
    (hheld : d.Holds (g.rootChunkAgbno * g.bs) inodes) {startino i : ℕ} (hi : i < 64) :
    device.run (readInode g.geo 0 startino (g.rootChunkAgbno * 2 ^ g.inopblog + i)) d
      = (.ok (inoOf g (g.rootChunkAgbno * 2 ^ g.inopblog + i),
          inodeSlot g.inodesize inodes i), d) := by
  obtain ⟨-, hcount⟩ := h.chunk_slots
  have hbound := h.rootChunk_bounds.2
  have hag := h.agsize_ge
  have hlt : i / 2 ^ g.inopblog < g.chunkBlocks := by
    rw [Nat.div_lt_iff_lt_mul (Nat.two_pow_pos _), hcount]
    exact hi
  obtain ⟨hbyte, hfit⟩ := h.byte_zero
    (by omega : g.rootChunkAgbno + i / 2 ^ g.inopblog < 80)
  have hblock : d.readBuf (g.geo.byte 0 (g.rootChunkAgbno + i / 2 ^ g.inopblog))
      g.geo.blocksize = slice inodes (i / 2 ^ g.inopblog * g.bs)
        (i / 2 ^ g.inopblog * g.bs + g.bs) := by
    rw [hbyte, Nat.add_mul]
    refine hheld.readBuf ?_
    show i / 2 ^ g.inopblog * g.bs + g.bs ≤ inodes.length
    rw [hlen, ← h.chunkBytes, ← Nat.succ_mul]
    exact Nat.mul_le_mul_right _ hlt
  have hnumber : inodeNumber g.geo 0 (g.rootChunkAgbno * 2 ^ g.inopblog + i)
      = .ok (inoOf g (g.rootChunkAgbno * 2 ^ g.inopblog + i)) := by
    have hal := (h.narrow hdev).agblklog
    have hbl := h.blocklog_le
    have hk := h.inopblock_eq.2
    have hshift : g.geo.agblklog + g.geo.inopblog < 64 := by
      show g.agblklog + g.inopblog < 64
      omega
    rw [inodeNumber, shl64, if_pos hshift, Nat.zero_shiftLeft, Nat.zero_mod, ok_bind, inoOf,
      Nat.zero_shiftLeft]
    rfl
  refine run_readInode hd h.inodeAt_eq h.agLen_zero (by omega) ?_ hblock hnumber
    (h.sliceAt_slot hi hlen)
  rw [hbyte, hsize]
  exact hfit

/-- **The walk reaches every inode of the chunk.** -/
lemma Accepted.inodesFound (h : Accepted params dev logical physical g) (hdev : dev < 2 ^ 64)
    (hplan : planAg g 0 = .ok plan) {time : Timestamp} {gen : Gen} {inodes : Buf}
    (hinodes : rootChunk g g.rootChunkAgbno uuid time gen = .ok inodes)
    (hroot : sbs.rootino = g.rootino) (hrbm : sbs.rbmino = g.rootino + 1)
    (hrsum : sbs.rsumino = g.rootino + 2) :
    ∃ head, agHead g plan uuid sbs = .ok head ∧ ∀ (device : Device) (d : Disk),
      device.size = dev → d.Healthy → d.Holds 0 head →
      d.Holds (g.rootChunkAgbno * g.bs) inodes →
      InodesFound g uuid device d head inodes (g.rootChunkAgbno * 2 ^ g.inopblog) := by
  obtain ⟨hp, -⟩ := h.plan_zero hdev hplan
  obtain ⟨hstart, hsmall⟩ := h.startino_eq hp
  obtain ⟨-, hcount⟩ := h.chunk_slots
  have hn := h.narrow hdev
  have hss := hn.sectsize.1
  have hbound := h.rootChunk_bounds.2
  have hpos := Nat.two_pow_pos g.inopblog
  have hrootino : g.rootino = g.rootChunkAgbno * 2 ^ g.inopblog := ino_zero_eq g.rootChunkAgbno
  obtain ⟨head, hok, hz⟩ := @Accepted.headZero _ _ _ _ g plan uuid sbs h hp hplan
  have hagi : ∀ {o v : ℕ}, Field.u32 o v ∈ (plan.agi g).fields uuid → v < 2 ^ 32 →
      be32 (sectorOf g.geo head 2) o = v := by
    rw [hz.agi]
    exact Agi.be32_encode (by rw [List.length_replicate]; exact le_trans (by decide) hss)
  have hsb : ∀ {o v : ℕ}, Field.u64 o v ∈ Sb.firstFields g sbs (g.dirblocklog - g.blocklog) →
      v < 2 ^ 64 → o + 8 ≤ Sb.Off.crc → be64 (sectorOf g.geo head 0) o = v := by
    rw [hz.sb]
    exact fun hf => Sb.be64_image hn.label (le_trans (by decide) hss) (Sb.mem_firstFields hf)
  have hchunk := h.chunkRead (by rw [ino_zero_eq]; omega) hinodes
  rw [ino_zero_eq] at hchunk
  refine ⟨head, hok, fun device d hsize hd hholds hheld => ?_⟩
  constructor
  · refine hagi ?_ (by omega)
    simp [Agi.fields, Agi.firstFields, AgPlan.agi, hstart]
  · exact ⟨hagi (by simp [Agi.fields, Agi.firstFields, AgPlan.agi, hstart]) (by norm_num),
      hagi (by simp [Agi.fields, Agi.firstFields, AgPlan.agi, hstart]) (by norm_num)⟩
  · obtain ⟨dump, raw, hrun, hraw⟩ := h.record_found hp hplan hz hsize hd hholds
    refine ⟨dump, raw, hrun, ?_⟩
    rwa [g.sparse_geo]
  · intro i hi
    have hlt : i / 2 ^ g.inopblog < g.chunkBlocks := by
      rw [Nat.div_lt_iff_lt_mul hpos, hcount]
      exact hi
    have hag := h.agsize_ge
    refine ⟨_, _, g.agsize, h.inodeAt_eq, ?_, ?_, h.agLen_zero, by omega⟩
    · rw [Nat.shiftRight_eq_div_pow, Nat.mul_comm, Nat.mul_add_div hpos]
    · rw [h.inopblock_eq.1, Nat.mul_comm, Nat.mul_add_mod]
  · intro i hi
    refine ⟨h.inode_found hdev hchunk.length hsize hd hheld hi, ?_⟩
    rw [inoOf_eq]
    exact hchunk.inode i hi
  · rw [inoOf_eq]
    exact hsb (by simp [Sb.firstFields, hroot, hrootino]) (by omega) (by decide)
  · rw [inoOf_eq]
    exact hsb (by simp [Sb.firstFields, hrbm, hrootino]) (by omega) (by decide)
  · rw [inoOf_eq]
    exact hsb (by simp [Sb.firstFields, hrsum, hrootino]) (by omega) (by decide)

end Found

/-- **The inodes of a format are found where every reader looks**: whatever else is on the
disk, the walk of AG 0's inode btree stays in the AG, reaches each of the 64 inodes that the
root chunk was written with under its own number, and the superblock names the first three. -/
theorem rootChunk_found (params : Params) (size : UInt64) (logical physical : UInt32) (s : Setup)
    (plan : AgPlan) (sbs : SbState) (agbno : ℕ) (inodes : Buf)
    (hg : Geometry.compute params size logical physical = .ok s.g)
    (hplan : planAg s.g 0 = .ok plan) (hplans : s.plans[0]? = some plan)
    (hchunk : s.chunk = .ok (agbno, inodes)) (hsbs : sbs = s.agSbs 0 ∨ sbs = s.finished) :
    ∃ head startino, agHead s.g plan s.id.uuid sbs = .ok head ∧
      plan.startino s.g = some startino ∧ ∀ d : Disk, d.Healthy → d.Holds 0 head →
      d.Holds (s.g.agbToByte 0 agbno) inodes →
      InodesFound s.g s.id.uuid (Device.ofSize size logical) d head inodes startino := by
  have h := compute_eq_ok.mp hg
  have hdev := size.toNat_lt
  obtain ⟨hp, -⟩ := h.plan_zero hdev hplan
  have hc : plan.chunk = some s.g.rootChunkAgbno := by
    have hchunk := hp.planned.chunk
    rwa [hp.agno_eq, if_pos rfl] at hchunk
  rw [Setup.chunk, Setup.plan, hplans, ok_bind] at hchunk
  simp only [hc] at hchunk
  obtain ⟨inodes', hinodes, hpair⟩ := bind_eq_ok.mp hchunk
  obtain ⟨rfl, rfl⟩ := Prod.mk.inj (Except.ok.inj hpair)
  have hnumbers : sbs.rootino = s.g.rootino ∧ sbs.rbmino = s.g.rootino + 1 ∧
      sbs.rsumino = s.g.rootino + 2 := by
    rcases hsbs with rfl | rfl <;> exact ⟨rfl, rfl, rfl⟩
  obtain ⟨head, hok, hfound⟩ :=
    h.inodesFound hdev hplan hinodes hnumbers.1 hnumbers.2.1 hnumbers.2.2
  refine ⟨head, _, hok, (h.startino_eq hp).1, fun d hd hholds hheld => ?_⟩
  refine hfound (Device.ofSize size logical) d rfl hd hholds ?_
  rwa [h.agbToByte_eq, Nat.zero_mul, Nat.zero_add] at hheld

/-- The root chunk is made of AG 0's plan. -/
lemma Setup.chunk_eq {s : Setup} {plan : AgPlan} {agbno : ℕ} {inodes : Buf}
    (hplan : s.plans[0]? = some plan) (hchunk : plan.chunk = some agbno)
    (hinodes : rootChunk s.g agbno s.id.uuid s.id.time ⟨s.id.genSeed⟩ = .ok inodes) :
    s.chunk = .ok (agbno, inodes) := by
  rw [Setup.chunk, Setup.plan, hplan, ok_bind]
  simp only [hchunk, hinodes, ok_bind]
  rfl

/-- The root chunk of 512 MiB is made. -/
lemma chunk_512m : ∃ inodes, setup512m.chunk = .ok (geo512m.rootChunkAgbno, inodes) := by
  have h := compute_eq_ok.mp compute_geo512m
  have htime : ∃ n, Inode.encodeTime setup512m.id.time setup512m.g.features.bigtime = .ok n :=
    ⟨3847483648000000000, by decide⟩
  obtain ⟨inodes, hok⟩ := @Accepted.rootChunk_ok _ _ _ _ geo512m setup512m.id.uuid
    setup512m.id.time ⟨setup512m.id.genSeed⟩ geo512m.rootChunkAgbno h htime
  exact ⟨inodes, @Setup.chunk_eq setup512m plan512m _ _ rfl rfl hok⟩

/-- The inodes of 512 MiB are found. -/
theorem rootChunk_found_512m : ∃ head inodes startino,
    agHead geo512m plan512m setup512m.id.uuid setup512m.finished = .ok head ∧
    plan512m.startino geo512m = some startino ∧ ∀ d : Disk, d.Healthy → d.Holds 0 head →
    d.Holds (geo512m.agbToByte 0 geo512m.rootChunkAgbno) inodes →
    InodesFound geo512m setup512m.id.uuid (Device.ofSize 536870912 512) d head inodes
      startino := by
  obtain ⟨inodes, hchunk⟩ := chunk_512m
  obtain ⟨head, startino, hok, hstart, hfound⟩ := rootChunk_found {} 536870912 512 512 setup512m
    plan512m setup512m.finished geo512m.rootChunkAgbno inodes compute_geo512m rfl rfl hchunk
    (.inr rfl)
  exact ⟨head, inodes, startino, hok, hstart, hfound⟩

end MkfsXfs
