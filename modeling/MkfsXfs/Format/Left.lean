import MkfsXfs.Admin.Resumed
import MkfsXfs.Format.InodesFound
import MkfsXfs.Format.Times

/-!
The filesystem that a format leaves, as the operations on it find it.

* `Accepted.logFits`: the log fits wherever every AG could be planned.
* `Formatted`: a format that went through, `Formatted.left_superblock` and `left_log` what it
  leaves where they are read.
* `Formatted.holds`: the filesystem opens, and all its superblocks can be read.
* `Formatted.cleanAt`: its log is clean, in its first cycle.
-/

namespace MkfsXfs

open Checked Sb Inspect

/-- All AGs are planned exactly when each one is. -/
lemma planAll_isOk_iff {g : Geometry} : (∃ plans, planAll g = .ok plans) ↔
    ∀ agno < g.agcount, ∃ plan, planAg g agno = .ok plan := by
  constructor
  · rintro ⟨plans, hplans⟩ agno hag
    obtain ⟨hlen, hget⟩ := List.forall₂_iff_get.mp (mapM_eq_ok_iff.mp hplans)
    rw [List.length_range] at hlen
    exact ⟨_, by simpa using hget agno (by rwa [List.length_range]) (by omega)⟩
  · intro hall
    have hplan : ∀ agno, ∃ plan, agno < g.agcount → planAg g agno = .ok plan := fun agno => by
      by_cases hag : agno < g.agcount
      · obtain ⟨plan, hplan⟩ := hall agno hag
        exact ⟨plan, fun _ => hplan⟩
      · exact ⟨⟨agno, 0, [], [], [], none⟩, fun h => absurd h hag⟩
    choose f hf using hplan
    exact ⟨_, mapM_eq_ok fun agno hag => hf agno (List.mem_range.mp hag)⟩

/-- No AG is too short where all are planned. -/
lemma setup_agsMin {params : Params} {size : UInt64} {logical physical : UInt32} {id : Identity}
    {s : Setup} (hs : setup params size logical physical id = .ok s) : s.g.AgsMin := by
  have hplans := (setup_eq_ok.mp hs).2.1
  have h := compute_eq_ok.mp (setup_eq_ok.mp hs).1
  have hcovered := ((h.planAll_iff size.toNat_lt).mp (planAll_isOk_iff.mp ⟨_, hplans⟩)).1
  intro agno hag
  obtain ⟨len, hlen, hge, -⟩ := ((h.tiles_iff size.toNat_lt).mpr hcovered).agBlocks agno hag
  exact ⟨len, hlen, hge⟩

/-- **A log that leaves room for the free list fits its AG.** -/
lemma Accepted.logFits {params : Params} {dev logical physical : ℕ} {g : Geometry}
    (h : Accepted params dev logical physical g) (hdev : dev < 2 ^ 64) {plans : List AgPlan}
    (hplans : planAll g = .ok plans) : g.LogFits := by
  have hroom := ((h.planAll_iff hdev).mp (planAll_isOk_iff.mp ⟨plans, hplans⟩)).2
  refine (h.logFits_iff hdev).mpr fun htwo => ?_
  rw [if_pos htwo] at hroom
  omega

/-- A format that went through: planning it, on AGs none of which is too short, and making the
root inode chunk; the heads of all AGs are completed. -/
structure Formatted (params : Params) (size : UInt64) (logical physical : UInt32) (id : Identity)
    (order : List ℕ) (s : Setup) : Prop where
  planned : setup params size logical physical id = .ok s
  agsMin : s.g.AgsMin
  order : ∀ i, i ∈ order ↔ i < s.g.agcount
  chunk : ∃ r, s.chunk = .ok r

/-- Byte `o` of the disk starts a UUID of the metadata, the superblocks apart. -/
inductive Setup.HoldsUuid (s : Setup) : ℕ → Prop where
  | agf {agno : ℕ} (hag : agno < s.g.agcount) :
      HoldsUuid s (s.g.geo.headAt agno + (s.g.sectsize + Agf.Off.uuid))
  | agi {agno : ℕ} (hag : agno < s.g.agcount) :
      HoldsUuid s (s.g.geo.headAt agno + (2 * s.g.sectsize + Agi.Off.uuid))
  | agfl {agno : ℕ} (hag : agno < s.g.agcount) :
      HoldsUuid s (s.g.geo.headAt agno + (3 * s.g.sectsize + Agfl.Off.uuid))
  | btree {agno block : ℕ} (hag : agno < s.g.agcount) (hlo : s.g.headerBlocks ≤ block)
      (hhi : block < s.g.preallocBlocks) :
      HoldsUuid s (s.g.geo.headAt agno + (block * s.g.bs + Btree.Off.uuid))
  | inode {i : ℕ} (hi : i < 64) :
      HoldsUuid s (s.chunkRange.start + (i * s.g.inodesize + Inode.Off.uuid))

namespace Formatted

variable {params : Params} {size : UInt64} {logical physical : UInt32} {id : Identity}
  {order : List ℕ} {s : Setup} {d : Disk} {agno i : ℕ}

section Left

variable (f : Formatted params size logical physical id order s)

include f

lemma accepted : Accepted params size.toNat logical.toNat physical.toNat s.g :=
  compute_eq_ok.mp (setup_eq_ok.mp f.planned).1

lemma plans : planAll s.g = .ok s.plans := (setup_eq_ok.mp f.planned).2.1

lemma fits : s.g.LogFits := f.accepted.logFits size.toNat_lt f.plans

lemma separate : s.Separate := Setup.separate f.accepted size.toNat_lt f.agsMin f.fits f.plans

lemma covered : s.g.Covered := f.accepted.covered_of_min size.toNat_lt f.agsMin

lemma agcount_pos : 0 < s.g.agcount := by
  have := f.accepted.agcount_ge
  omega

/-- The places of the superblocks, for a reader. -/
lemma headAt_eq : s.g.geo.headAt agno = s.g.agbToByte agno 0 := by
  rw [f.accepted.agbToByte_eq, Nat.add_zero]
  rfl

/-- The AGs' heads are on the device. -/
lemma head_le (hag : agno < s.g.agcount) :
    s.g.agbToByte agno 0 + s.g.preallocBlocks * s.g.bs ≤ size.toNat :=
  f.accepted.extent_le size.toNat_lt f.covered (f.accepted.extent_head f.agsMin hag)

/-- Each head is left as it was made, its header blocks with the last superblock. -/
lemma left_head (hag : agno < s.g.agcount) : ∃ plan, planAg s.g agno = .ok plan ∧
    plan.Of s.g agno ∧ ∀ i < s.g.preallocBlocks * s.g.bs, ∃ sbs head,
      agHead s.g plan s.id.uuid sbs = .ok head ∧
      (i < s.g.headerBlocks * s.g.bs → sbs = if agno = 0 then s.finished else s.agSbs agno) ∧
      (d.apply (s.ops size.toNat order)).bytes (s.g.agbToByte agno 0 + i) = byteAt head i := by
  obtain ⟨plan, hplan, hof, hmade⟩ :=
    Setup.plan_ok f.accepted size.toNat_lt f.agsMin f.plans hag
  have hsep := f.separate
  have hzero : s.g.agbToByte 0 0 = 0 := by
    rw [f.accepted.agbToByte_eq, Nat.zero_mul, Nat.zero_add, Nat.zero_mul]
  refine ⟨plan, hmade, hof, fun i hi => ?_⟩
  rw [Setup.ops, Disk.apply_append, Disk.apply_append]
  by_cases hfin : agno = 0 ∧ i < s.g.headerBlocks * s.g.bs
  · -- The header blocks of AG 0 are written again at the end.
    obtain ⟨rfl, hlt⟩ := hfin
    obtain ⟨plan', head, hplan', hhead, -⟩ :=
      Setup.agHead_ok f.accepted size.toNat_lt f.agsMin f.plans hag s.finished
    obtain rfl : plan' = plan := Except.ok.inj (hplan'.symm.trans hplan)
    have hmade' : made s.finishedHead = head.take (s.g.headerBlocks * s.g.bs) := by
      rw [Setup.finishedHead, hplan, ok_bind, hhead]
      rfl
    refine ⟨s.finished, head, hhead, fun _ => (if_pos rfl).symm, ?_⟩
    rw [hzero, Nat.zero_add, hsep.left_header hag f.chunk hlt, hmade', byteAt_take hlt]
  · obtain ⟨plan', head, hplan', hhead, -⟩ :=
      Setup.agHead_ok f.accepted size.toNat_lt f.agsMin f.plans hag (s.agSbs agno)
    obtain rfl : plan' = plan := Except.ok.inj (hplan'.symm.trans hplan)
    have hmade' : made (s.head agno) = head := by
      rw [Setup.head, hplan, ok_bind, hhead]
      rfl
    refine ⟨s.agSbs agno, head, hhead, fun hlt => ?_, ?_⟩
    · rw [if_neg fun h0 => hfin ⟨h0, hlt⟩]
    · have hholds : (s.headRange agno).Holds (s.g.agbToByte agno 0 + i) :=
        ⟨Nat.le_add_right _ _, Nat.add_lt_add_left hi _⟩
      have hrest : ¬ ((∃ r, s.chunk = .ok r) ∧
          s.g.agbToByte agno 0 + i < s.g.headerBlocks * s.g.bs) := fun hand => by
        have hin := hsep.holds_header hand.2
        by_cases h0 : agno = 0
        · exact hfin ⟨h0, by omega⟩
        · exact hsep.heads agno hag 0 f.agcount_pos h0 _ hholds hin
      rw [hsep.left_body hag hrest hholds f.order, hmade']
      exact congrArg _ (Nat.add_sub_cancel_left _ _)

/-- The first sector of an AG is its superblock. -/
lemma left_superblock (hag : agno < s.g.agcount) : ∃ sbs : SbState, sbs.uuid = s.id.uuid ∧
    ∀ i < s.g.sectsize, (d.apply (s.ops size.toNat order)).bytes (s.g.agbToByte agno 0 + i) =
      byteAt (Sb.image s.g sbs) i := by
  obtain ⟨plan, -, -, hbyte⟩ := f.left_head (d := d) hag
  have huuid : (if agno = 0 then s.finished else s.agSbs agno).uuid = s.id.uuid := by
    rw [Setup.agSbs]
    split_ifs <;> rfl
  have hsect : s.g.sectsize ≤ s.g.headerBlocks * s.g.bs := by
    have := f.accepted.sectors_le
    omega
  refine ⟨_, huuid, fun i hi => ?_⟩
  obtain ⟨sbs, head, hhead, hsbs, hat⟩ :=
    hbyte i ((hi.trans_le hsect).trans_le (Nat.mul_le_mul_right _ s.g.headerBlocks_le))
  rw [hat, ← hsbs (hi.trans_le hsect)]
  exact (f.accepted.sector_agHead hhead).2.2 i hi

/-- The log is its first record, over zeroes. -/
lemma left_log (hi : i < s.g.logblocks * s.g.bs) :
    (d.apply (s.ops size.toNat order)).bytes (s.logAt + i) = byteAt (Log.firstRecord s.id.uuid
      (Log.clearSunit s.g.logsunit (if s.g.sectsize > 512 then s.g.lsectsize else 0))) i := by
  have hle := f.accepted.firstRecord_le
  have hmade : made s.logBlock = splice (List.replicate s.g.bs 0) 0 (Log.firstRecord s.id.uuid
      (Log.clearSunit s.g.logsunit (if s.g.sectsize > 512 then s.g.lsectsize else 0))) := by
    rw [Setup.logBlock, copyInto, if_pos]
    · rfl
    · rwa [Nat.zero_add, List.length_replicate]
  have hholds : s.logRange.Holds (s.logAt + i) :=
    ⟨Nat.le_add_right _ _, Nat.add_lt_add_left hi _⟩
  rw [Setup.ops, Disk.apply_append, f.separate.left_log f.agcount_pos hholds f.order, hmade,
    Nat.add_sub_cancel_left]
  generalize Log.firstRecord _ _ = first at hle
  split_ifs with hin
  · rcases Nat.lt_or_ge i first.length with hlt | hge
    · rw [byteAt_splice_of_mem (Nat.zero_le _) (by omega)
        (by rw [List.length_replicate]; omega), Nat.sub_zero]
    · rw [byteAt_splice_of_not_mem (by omega), byteAt_replicate_zero, byteAt_of_le hge]
  · rw [byteAt_of_le (by omega)]

end Left

/-! ### The superblocks -/

section Superblocks

variable {g : Geometry} {sbs : SbState} {b : Buf} {dev logical' physical' : ℕ}

/-- What is read of a block that starts with a superblock as it was encoded. -/
structure SbRead (g : Geometry) (sbs : SbState) (b : Buf) : Prop where
  ok : SbOk g.geo b
  incompat : be32 b Off.featuresIncompat = Sb.incompat g
  rblocks : be64 b Off.rblocks = 0
  uuid : uuidAt b Off.uuid = sbs.uuid
  metaUuid : uuidAt b Off.metaUuid = zeroUuid
  label : ∀ k < 12, byteAt b (Off.fname + k) = byteAt g.label k

lemma sbRead (h : Accepted params dev logical' physical' g) (hdev : dev < 2 ^ 64)
    (hlen : g.sectsize ≤ b.length)
    (hbyte : ∀ i < g.sectsize, byteAt b i = byteAt (Sb.image g sbs) i) : SbRead g sbs b := by
  have hn := h.narrow hdev
  have hsect : Off.past ≤ g.sectsize := le_trans (by decide) hn.sectsize.1
  have htake : b.take g.sectsize = Sb.image g sbs := by
    refine Buf.ext (by rw [List.length_take, Sb.length_image]; omega) fun i hi => ?_
    rw [List.length_take] at hi
    rw [byteAt_take (by omega), hbyte i (by omega)]
  have h32 : ∀ o, o + 4 ≤ Off.past → be32 b o = be32 (Sb.image g sbs) o := fun o ho =>
    be32_congr fun k hk => hbyte _ (by omega)
  have h64 : ∀ o, o + 8 ≤ Off.past → be64 b o = be64 (Sb.image g sbs) o := fun o ho =>
    be64_congr fun k hk => hbyte _ (by omega)
  have hin := Sb.incompat_lt g
  have hroom : Off.past ≤ (List.replicate g.sectsize (0 : UInt8)).length := by
    rwa [List.length_replicate]
  have hfield : ∀ {o : ℕ} {data : Buf} {k : ℕ},
      (⟨o, data⟩ : Field) ∈ Sb.fields g sbs (g.dirblocklog - g.blocklog) →
      o + data.length ≤ Off.crc → k < data.length →
      byteAt (Sb.image g sbs) (o + k) = byteAt data k := fun {o data k} hmem hpast hk =>
    byteAt_stampFields_of_mem (Sb.ascending hn.label) hmem hk
      ((hpast.trans (by decide)).trans hroom) (.inl hpast)
  refine ⟨⟨?_, ?_⟩, ?_, ?_, ?_, ?_, fun k hk => ?_⟩
  · rw [h32 _ (by decide)]
    exact Sb.be32_image hn.label hsect (Sb.mem_firstFields (by simp [Sb.firstFields])) (by decide)
      (by decide)
  · have hverify : Crc.verify (Sb.image g sbs) Off.crc = true := by
      refine verify_stampFields ?_
      rw [List.length_replicate]
      exact le_trans (by decide) hsect
    rw [← htake] at hverify
    exact hverify
  · rw [h32 _ (by decide)]
    exact Sb.be32_image hn.label hsect (Sb.mem_lastFields (by simp [Sb.lastFields])) (by omega)
      (by decide)
  · rw [h64 _ (by decide)]
    exact Sb.be64_image hn.label hsect (Sb.mem_firstFields (by simp [Sb.firstFields])) (by decide)
      (by decide)
  · refine Subtype.ext (Buf.ext (by rw [(uuidAt _ _).2, sbs.uuid.2]) fun k hk => ?_)
    rw [(uuidAt _ _).2] at hk
    have hu : Off.uuid + 16 ≤ Off.past := by decide
    rw [byteAt_uuidAt hk, hbyte _ (by omega)]
    refine hfield (Sb.mem_firstFields (by simp [Sb.firstFields])) ?_ ?_
    · rw [sbs.uuid.2]
      decide
    · rwa [sbs.uuid.2]
  · refine Subtype.ext (Buf.ext (by rw [(uuidAt _ _).2, zeroUuid.2]) fun k hk => ?_)
    rw [(uuidAt _ _).2] at hk
    have hu : Off.metaUuid + 16 ≤ Off.past := by decide
    rw [byteAt_uuidAt hk, hbyte _ (by omega), Sb.byteAt_image_past hn.label (Nat.le_add_right _ _)]
    exact byteAt_replicate_zero.symm
  · have hu : Off.fname + 12 ≤ Off.past := by decide
    rw [hbyte _ (by omega)]
    refine hfield (Sb.mem_firstFields (by simp [Sb.firstFields])) ?_ ?_
    · rw [hn.label]
      decide
    · rwa [hn.label]

end Superblocks

/-! ### The UUID of the metadata -/

section MetadataUuid

variable {g : Geometry} {plan : AgPlan} {sbs : SbState} {agf : Agf} {head b : Buf} {uuid : Uuid}
  {o block : ℕ}

lemma uuidAt_of_take (h : (b.drop o).take 16 = uuid.1) : uuidAt b o = uuid := by
  refine Subtype.ext (Buf.ext (by rw [(uuidAt _ _).2, uuid.2]) fun k hk => ?_)
  rw [(uuidAt _ _).2] at hk
  rw [byteAt_uuidAt hk, ← h, byteAt_take hk, byteAt_drop]

/-- The UUID in a part of the head. -/
lemma uuidAt_head {dev logical' physical' off : ℕ} {data : Buf}
    (h : Accepted params dev logical' physical' g)
    (hhead : head = putFields (List.replicate (g.preallocBlocks * g.bs) 0)
      (plan.headFields g uuid sbs agf))
    (hf : (⟨off, data⟩ : Field) ∈ plan.headFields g uuid sbs agf) (ho : o + 16 ≤ data.length)
    (hread : uuidAt data o = uuid) : uuidAt head (off + o) = uuid := by
  have hpast := h.headFields_past hf
  rw [← hread]
  refine uuidAt_congr fun k hk => ?_
  rw [hhead, Nat.add_assoc]
  exact byteAt_putFields_of_mem h.ascending_headFields hf (show o + k < data.length by omega)
    (by rwa [List.length_replicate])

/-- **The head of an AG holds the UUID** in its AGF, its AGI, its free list and its btrees. -/
lemma uuids_head {dev logical' physical' : ℕ} (h : Accepted params dev logical' physical' g)
    (hof : plan.Of g agno) (hplan : planAg g agno = .ok plan)
    (hhead : agHead g plan uuid sbs = .ok head) :
    uuidAt head (g.sectsize + Agf.Off.uuid) = uuid ∧
    uuidAt head (2 * g.sectsize + Agi.Off.uuid) = uuid ∧
    uuidAt head (3 * g.sectsize + Agfl.Off.uuid) = uuid ∧
    ∀ block, g.headerBlocks ≤ block → block < g.preallocBlocks →
      uuidAt head (block * g.bs + Btree.Off.uuid) = uuid := by
  obtain ⟨agf, -, -, -, -, heq⟩ := hof.agHead_eq h hplan
  have hmade := Except.ok.inj (hhead.symm.trans (heq uuid sbs))
  have hsect := h.sectsize_ge
  have hbs := h.bs_bounds.1
  have hzeros : (List.replicate g.sectsize (0 : UInt8)).length = g.sectsize :=
    List.length_replicate
  refine ⟨?_, ?_, ?_, fun block hlo hhi => ?_⟩
  · have hf : (⟨g.sectsize, agf.encode uuid (List.replicate g.sectsize 0)⟩ : Field) ∈
        plan.headFields g uuid sbs agf :=
      List.mem_append_left _ (by simp [AgPlan.sectorFields])
    refine uuidAt_head h hmade hf ?_ ?_
    · rw [Agf.length_encode, hzeros]
      exact le_trans (by decide) hsect
    · exact uuidAt_of_take (Agf.uuid_encode (by rw [hzeros]; exact le_trans (by decide) hsect))
  · have hf : (⟨2 * g.sectsize, (plan.agi g).encode uuid (List.replicate g.sectsize 0)⟩ : Field) ∈
        plan.headFields g uuid sbs agf :=
      List.mem_append_left _ (by simp [AgPlan.sectorFields])
    refine uuidAt_head h hmade hf ?_ ?_
    · rw [Agi.length_encode, hzeros]
      exact le_trans (by decide) hsect
    · exact uuidAt_of_take (Agi.uuid_encode (by rw [hzeros]; exact le_trans (by decide) hsect))
  · have hf : (⟨3 * g.sectsize, agflImage g (toU32 plan.agno) uuid plan.agfl⟩ : Field) ∈
        plan.headFields g uuid sbs agf :=
      List.mem_append_left _ (by simp [AgPlan.sectorFields])
    refine uuidAt_head h hmade hf ?_ ?_
    · rw [agflImage, length_stampFields, length_putFields, length_putFields, hzeros]
      exact le_trans (by decide) hsect
    · exact uuidAt_of_take (uuid_agflImage (le_trans (by decide) hsect))
  · obtain ⟨r, hr, rfl⟩ : ∃ r ∈ plan.roots g, r.block = block := by
      have hmem : block ∈ (plan.roots g).map Root.block := by
        rw [AgPlan.block_roots]
        exact List.mem_map.mpr ⟨block - g.headerBlocks, List.mem_range.mpr (by omega), by omega⟩
      exact List.mem_map.mp hmem
    have hf : (⟨r.block * g.bs, r.image g plan.agno uuid⟩ : Field) ∈
        plan.headFields g uuid sbs agf :=
      List.mem_append_right _ (List.mem_map_of_mem hr)
    refine uuidAt_head h hmade hf ?_ ?_
    · rw [Root.length_image]
      exact le_trans (by decide) hbs
    · exact uuidAt_of_take (Root.uuid_image (le_trans (by decide) hbs))

end MetadataUuid

/-! ### The filesystem -/

section Filesystem

variable (f : Formatted params size logical physical id order s)

include f

lemma parse_image (sbs : SbState) : Geo.parse (Sb.image s.g sbs) = .ok s.g.geo := by
  have hstart := (f.accepted.fsb size.toNat_lt (f.accepted.hasBlock_log f.fits)).1
  exact f.accepted.parse_image (f.accepted.narrow size.toNat_lt) hstart

/-- The filesystem as it is opened. -/
def fs (d : Disk) : Fs where
  geo := s.g.geo
  primary := (d.apply (s.ops size.toNat order)).readBuf 0 s.g.bs
  valid := Geo.parse_valid (f.parse_image s.finished)

/-- The log's place. -/
lemma logExtent : s.g.geo.logExtent = .ok (s.logAt, s.g.logblocks * s.g.bs / bbsize) :=
  f.accepted.logExtent_geo size.toNat_lt f.covered f.fits

/-- The log is whole basic blocks, an even number of them. -/
lemma bbs_eq : s.g.logblocks * s.g.bs / bbsize * bbsize = s.g.logblocks * s.g.bs ∧
    s.g.logblocks * s.g.bs / bbsize % 2 = 0 := by
  have hbs : s.g.bs = 2 ^ s.g.blocklog := f.accepted.blocksize
  have hdvd : 1024 ∣ s.g.logblocks * s.g.bs := by
    rw [hbs]
    exact (pow_dvd_pow 2 f.accepted.blocklog_ge).mul_left _
  rw [bbsize]
  omega

/-- The log has room for the records that a reader looks back over. -/
lemma total_le : totalRecBbs ≤ s.g.logblocks * s.g.bs / bbsize := by
  have hge := f.accepted.logblocks_ge
  have hbs : s.g.bs = 2 ^ s.g.blocklog := f.accepted.blocksize
  have hbytes : 64 * mib ≤ s.g.logblocks * s.g.bs := by
    rw [Nat.shiftRight_eq_div_pow] at hge
    have hdvd : 2 ^ s.g.blocklog ∣ 64 * mib :=
      (pow_dvd_pow 2 (f.accepted.blocklog_le.trans (by decide : 14 ≤ 26))).trans (by decide)
    calc 64 * mib = 64 * mib / 2 ^ s.g.blocklog * 2 ^ s.g.blocklog :=
          (Nat.div_mul_cancel hdvd).symm
      _ ≤ s.g.logblocks * s.g.bs := by
          rw [hbs]
          exact Nat.mul_le_mul_right _ hge
  rw [totalRecBbs_eq, bbsize, Nat.le_div_iff_mul_le (by decide)]
  exact le_trans (by decide) hbytes

/-- The stripe unit of the log is at most a block. -/
lemma logsunit_le : s.g.geo.logsunit ≤ 16384 := by
  have hbs := f.accepted.bs_bounds
  change s.g.logsunit ≤ 16384
  by_cases hw : s.g.lsectsize > 512
  · rw [Geometry.logsunit_wide hw f.accepted.blocksize_pos]
    exact hbs.2.1
  · rw [Geometry.logsunit_narrow hw]
    decide

/-- The log is on the device. -/
lemma log_le : s.logAt + s.g.logblocks * s.g.bs ≤ size.toNat :=
  f.accepted.extent_le size.toNat_lt f.covered f.fits.extent

/-- The superblocks as they are left. -/
lemma left_sbRead (hag : agno < s.g.agcount) : ∃ sbs : SbState, sbs.uuid = s.id.uuid ∧
    SbRead s.g sbs ((d.apply (s.ops size.toNat order)).readBuf (s.g.geo.headAt agno)
      s.g.geo.blocksize) := by
  obtain ⟨sbs, huuid, hbyte⟩ := f.left_superblock (d := d) hag
  have hle : s.g.sectsize ≤ s.g.geo.blocksize := f.accepted.sectsize_le
  refine ⟨sbs, huuid, sbRead f.accepted size.toNat_lt (by rwa [Disk.length_readBuf])
    fun i hi => ?_⟩
  rw [Disk.byteAt_readBuf (by omega), f.headAt_eq]
  exact hbyte i hi

/-- The first block of an AG is clear of the log. -/
lemma head_apart (hag : agno < s.g.agcount) : s.g.geo.headAt agno + s.g.geo.blocksize ≤ s.logAt ∨
    s.logAt + s.g.logblocks * s.g.bs ≤ s.g.geo.headAt agno := by
  have hblock : 1 * s.g.bs ≤ s.g.preallocBlocks * s.g.bs :=
    Nat.mul_le_mul_right _ (by have := f.accepted.preallocBlocks_bounds; omega)
  have hpos : 1 * s.g.bs ≤ s.g.logblocks * s.g.bs :=
    Nat.mul_le_mul_right _ f.accepted.logblocks_pos
  have hbs : s.g.geo.blocksize = s.g.bs := rfl
  have hapart : ∀ a, s.g.agbToByte agno 0 ≤ a ∧ a < s.g.agbToByte agno 0 +
      s.g.preallocBlocks * s.g.bs → ¬ (s.logAt ≤ a ∧ a < s.logAt + s.g.logblocks * s.g.bs) :=
    f.separate.head_log agno hag
  have hstart := hapart (s.g.agbToByte agno 0)
  have hlog := hapart s.logAt
  have hge := f.accepted.bs_bounds.1
  rw [f.headAt_eq, hbs]
  omega

/-- The superblocks can be read. -/
lemma left_readable (hag : agno < s.g.agcount) : Readable (Device.ofSize size logical)
    (d.apply (s.ops size.toNat order)) s.g.geo agno := by
  obtain ⟨sbs, -, hread⟩ := f.left_sbRead (d := d) hag
  have hblock : 1 * s.g.bs ≤ s.g.preallocBlocks * s.g.bs :=
    Nat.mul_le_mul_right _ (by have := f.accepted.preallocBlocks_bounds; omega)
  have hle := f.head_le hag
  have hbs : s.g.geo.blocksize = s.g.bs := rfl
  refine ⟨?_, hread.ok⟩
  change s.g.geo.headAt agno + s.g.geo.blocksize ≤ size.toNat
  rw [f.headAt_eq, hbs]
  omega

/-- **The filesystem opens.** -/
lemma opened : Opened (Device.ofSize size logical) (d.apply (s.ops size.toNat order))
    (f.fs d) := by
  have hpos := f.agcount_pos
  have hbs : s.g.geo.blocksize = s.g.bs := rfl
  obtain ⟨hge, -, -⟩ := f.accepted.bs_bounds
  have hroom := (f.left_readable (d := d) hpos).1
  rw [Geo.headAt_zero, Nat.zero_add] at hroom
  obtain ⟨sbs, -, hread⟩ := f.left_sbRead (d := d) hpos
  rw [Geo.headAt_zero] at hread
  obtain ⟨sbs', -, hbyte⟩ := f.left_superblock (d := d) hpos
  rw [← f.headAt_eq, Geo.headAt_zero] at hbyte
  have hsect : 512 ≤ s.g.sectsize := (f.accepted.narrow size.toNat_lt).sectsize.1
  set dev := Device.ofSize size logical with hdev
  have hsector : 512 ≤ min (max dev.logicalSectorSize 512) dev.size := by omega
  have hparse := Geo.parse_edited
    (c := (d.apply (s.ops size.toNat order)).readBuf 0 (min (max dev.logicalSectorSize 512) dev.size))
    (by rwa [Sb.length_image]) (by rwa [Disk.length_readBuf]) (fun i hi _ => by
      rw [Disk.byteAt_readBuf (by omega), hbyte i (by omega)]) (f.parse_image sbs')
  have hin : be32 ((d.apply (s.ops size.toNat order)).readBuf 0
      (min (max dev.logicalSectorSize 512) dev.size)) Off.featuresIncompat = s.g.geo.incompat := by
    refine Eq.trans (be32_congr fun k hk => ?_) hread.incompat
    have hfeat : Off.featuresIncompat + 4 ≤ 512 := by decide
    rw [Disk.byteAt_readBuf (by omega), Disk.byteAt_readBuf (by omega)]
  rw [hin] at hparse
  have hfeatures : be32 (f.fs d).primary Off.featuresIncompat = Sb.incompat s.g := hread.incompat
  have hknown : Sb.incompat s.g &&& Version.inNeedsrepair = 0 ∧
      Sb.incompat s.g &&& (2 ^ 32 - 1 - knownIncompat) = 0 := by
    rw [Sb.incompat]
    cases s.g.features.bigtime <;> cases s.g.features.sparse <;> cases s.g.features.nrext64 <;>
      decide
  have hlog : s.g.logstart ≠ 0 := fun hzero => by
    have hmask := (f.accepted.fsb size.toNat_lt (f.accepted.hasBlock_log f.fits)).2.2
    have hafter := f.fits.after
    have hprealloc := f.accepted.preallocBlocks_bounds
    rw [show s.g.agbToFsb s.g.logagno s.g.logAgbno = 0 from hzero, Nat.zero_and] at hmask
    omega
  exact {
    parsed := hparse
    block_le := hroom
    sb := checkSb_eq_ok.2 ⟨hread.ok, rfl⟩
    features := checkFeatures_eq_ok.2 ⟨by rw [hfeatures, hknown.1], by rw [hfeatures, hknown.2],
      hread.rblocks, hlog⟩ }

/-- **It can be renamed**: all superblocks can be read, and lie clear of the log. -/
lemma holds : Holds (Device.ofSize size logical) (d.apply (s.ops size.toNat order)) (f.fs d) where
  opened := f.opened
  readable _ hi := f.left_readable hi
  apart {start bbs cycle} hext i hi := by
    have hext' : Except.ok (start, bbs) = Except.ok (s.logAt, s.g.logblocks * s.g.bs / bbsize) :=
      hext.symm.trans f.logExtent
    obtain ⟨rfl, rfl⟩ := Prod.mk.inj (Except.ok.inj hext')
    have htotal := f.total_le
    have hlen : Fs.clearedLen (f.fs d).geo (s.g.logblocks * s.g.bs / bbsize) cycle = _ :=
      clearedLen_eq (f.fs d).valid (f.logsunit_le.trans (by decide))
        (le_trans (by decide) htotal)
    have hapart := f.head_apart hi
    rw [hlen, f.bbs_eq.1]
    exact hapart

/-- A byte of a UUID of the metadata is past the superblock in the head of an AG, or in the root
inode chunk. -/
lemma uuid_place {o k : ℕ} (ho : s.HoldsUuid o) (hk : k < 16) :
    (∃ agno < s.g.agcount, ∃ j, s.g.sectsize ≤ j ∧ j < s.g.preallocBlocks * s.g.bs ∧
      o + k = s.g.geo.headAt agno + j) ∨ s.chunkRange.Holds (o + k) := by
  have hsect : 512 ≤ s.g.sectsize := (f.accepted.narrow size.toNat_lt).sectsize.1
  have hfits := f.accepted.sectors_le.trans (Nat.mul_le_mul_right s.g.bs s.g.headerBlocks_le)
  have hagf : Agf.Off.uuid + 16 ≤ 512 := by decide
  have hagi : Agi.Off.uuid + 16 ≤ 512 := by decide
  have hagfl : Agfl.Off.uuid + 16 ≤ 512 := by decide
  have hbtree : Btree.Off.uuid + 16 ≤ 512 := by decide
  have hbs := f.accepted.bs_bounds.1
  cases ho with
  | agf hag => exact .inl ⟨_, hag, s.g.sectsize + Agf.Off.uuid + k, by omega, by omega, by omega⟩
  | agi hag => exact .inl ⟨_, hag, 2 * s.g.sectsize + Agi.Off.uuid + k, by omega, by omega, by omega⟩
  | agfl hag => exact .inl ⟨_, hag, 3 * s.g.sectsize + Agfl.Off.uuid + k, by omega, by omega, by omega⟩
  | btree hag hlo hhi =>
      rename_i agno block
      have hl := Nat.mul_le_mul_right s.g.bs hlo
      have hr : (block + 1) * s.g.bs ≤ s.g.preallocBlocks * s.g.bs := Nat.mul_le_mul_right _ hhi
      have hsectors := f.accepted.sectors_le
      rw [Nat.succ_mul] at hr
      exact .inl ⟨agno, hag, block * s.g.bs + Btree.Off.uuid + k, by omega, by omega, by omega⟩
  | inode hi =>
      rename_i i
      have hcore : Inode.Off.uuid + 16 ≤ 512 := by decide
      have hisz : 512 ≤ s.g.inodesize := (f.accepted.narrow size.toNat_lt).inodesize.1
      have hr : (i + 1) * s.g.inodesize ≤ 64 * s.g.inodesize := Nat.mul_le_mul_right _ hi
      rw [Nat.succ_mul] at hr
      have hlen : s.chunkRange.len = 64 * s.g.inodesize := f.accepted.chunkBytes
      refine .inr ⟨by omega, by omega⟩

/-- The UUIDs of the metadata lie clear of the log and of the superblocks. -/
lemma uuid_apart {o k : ℕ} (ho : s.HoldsUuid o) (hk : k < 16) :
    ¬ (s.logAt ≤ o + k ∧ o + k < s.logAt + s.g.logblocks * s.g.bs) ∧ ∀ agno < s.g.agcount,
      ¬ (s.g.geo.headAt agno ≤ o + k ∧ o + k < s.g.geo.headAt agno + s.g.sectsize) := by
  have hsep := f.separate
  have hsectors := f.accepted.sectors_le.trans (Nat.mul_le_mul_right s.g.bs s.g.headerBlocks_le)
  have hrange : ∀ {i a : ℕ}, (s.headRange i).Holds a ↔ s.g.geo.headAt i ≤ a ∧
      a < s.g.geo.headAt i + s.g.preallocBlocks * s.g.bs := fun {i a} => by
    rw [f.headAt_eq]
    rfl
  rcases f.uuid_place ho hk with ⟨agno, hag, j, hlo, hhi, heq⟩ | hchunk
  · have hin : (s.headRange agno).Holds (o + k) := hrange.2 (by omega)
    refine ⟨hsep.head_log agno hag _ hin, fun i hi hsb => ?_⟩
    by_cases he : i = agno
    · subst he
      omega
    · exact hsep.heads i hi agno hag he _ (hrange.2 (by omega)) hin
  · refine ⟨fun hlog => hsep.log_chunk _ hlog hchunk, fun i hi hsb => ?_⟩
    exact hsep.head_chunk i hi _ (hrange.2 (by omega)) hchunk

/-- **The metadata holds the UUID of the format.** -/
lemma left_uuid {o : ℕ} (ho : s.HoldsUuid o) :
    (d.apply (s.ops size.toNat order)).readBuf o 16 = s.id.uuid.1 := by
  have hhead : ∀ {agno j : ℕ}, agno < s.g.agcount → j + 16 ≤ s.g.preallocBlocks * s.g.bs →
      (∀ plan sbs head, plan.Of s.g agno → planAg s.g agno = .ok plan →
        agHead s.g plan s.id.uuid sbs = .ok head → uuidAt head j = s.id.uuid) →
      (d.apply (s.ops size.toNat order)).readBuf (s.g.geo.headAt agno + j) 16 = s.id.uuid.1 := by
    intro agno j hag hj hall
    obtain ⟨plan, hplan, hof, hbyte⟩ := f.left_head (d := d) hag
    refine Buf.ext (by rw [Disk.length_readBuf, s.id.uuid.2]) fun k hk => ?_
    rw [Disk.length_readBuf] at hk
    obtain ⟨sbs, head, hhead, -, hat⟩ := hbyte (j + k) (by omega)
    rw [Disk.byteAt_readBuf hk, Nat.add_assoc, f.headAt_eq, hat, ← byteAt_uuidAt hk,
      hall plan sbs head hof hplan hhead]
  have hsect : 512 ≤ s.g.sectsize := (f.accepted.narrow size.toNat_lt).sectsize.1
  have hfits := f.accepted.sectors_le.trans (Nat.mul_le_mul_right s.g.bs s.g.headerBlocks_le)
  have hagf : Agf.Off.uuid + 16 ≤ 512 := by decide
  have hagi : Agi.Off.uuid + 16 ≤ 512 := by decide
  have hagfl : Agfl.Off.uuid + 16 ≤ 512 := by decide
  have hbtree : Btree.Off.uuid + 16 ≤ 512 := by decide
  have hbs := f.accepted.bs_bounds.1
  cases ho with
  | agf hag => exact hhead hag (by omega) fun _ _ _ hof hplan hmade =>
      (uuids_head f.accepted hof hplan hmade).1
  | agi hag => exact hhead hag (by omega) fun _ _ _ hof hplan hmade =>
      (uuids_head f.accepted hof hplan hmade).2.1
  | agfl hag => exact hhead hag (by omega) fun _ _ _ hof hplan hmade =>
      (uuids_head f.accepted hof hplan hmade).2.2.1
  | btree hag hlo hhi =>
      rename_i agno block
      have hr : (block + 1) * s.g.bs ≤ s.g.preallocBlocks * s.g.bs := Nat.mul_le_mul_right _ hhi
      rw [Nat.succ_mul] at hr
      exact hhead hag (by omega) fun _ _ _ hof hplan hmade =>
        (uuids_head f.accepted hof hplan hmade).2.2.2 block hlo hhi
  | inode hi =>
      rename_i i
      have hisz : 512 ≤ s.g.inodesize := (f.accepted.narrow size.toNat_lt).inodesize.1
      have hcore : Inode.Off.uuid + 16 ≤ 512 := by decide
      have hr : (i + 1) * s.g.inodesize ≤ 64 * s.g.inodesize := Nat.mul_le_mul_right _ hi
      rw [Nat.succ_mul] at hr
      have hlen : s.chunkRange.len = 64 * s.g.inodesize := f.accepted.chunkBytes
      obtain ⟨⟨agbno, inodes⟩, hc⟩ := f.chunk
      obtain ⟨rfl, -⟩ := f.separate.chunk agbno inodes hc
      have hmade : rootChunk s.g s.g.rootChunkAgbno s.id.uuid s.id.time ⟨s.id.genSeed⟩ =
          .ok inodes := by
        have hchunk : s.chunk = _ := Setup.chunk_withTime (t := s.id.time) f.planned
        obtain ⟨_, hmade, hpair⟩ := bind_eq_ok.mp (hchunk.symm.trans hc)
        obtain ⟨-, rfl⟩ := Prod.mk.inj (Except.ok.inj hpair)
        exact hmade
      obtain ⟨plan, -, hof, -⟩ :=
        Setup.plan_ok f.accepted size.toNat_lt f.agsMin f.plans f.agcount_pos
      have hsmall := (f.accepted.startino_eq hof).2
      have hread := (f.accepted.chunkRead (by rw [ino_zero_eq]; omega) hmade).inode i hi
      have huuid : uuidAt (inodeSlot s.g.inodesize inodes i) Inode.Off.uuid = s.id.uuid :=
        uuidAt_of_take hread.uuid
      refine Buf.ext (by rw [Disk.length_readBuf, s.id.uuid.2]) fun k hk => ?_
      rw [Disk.length_readBuf] at hk
      have hholds : s.chunkRange.Holds
          (s.chunkRange.start + (i * s.g.inodesize + Inode.Off.uuid) + k) :=
        ⟨by omega, by omega⟩
      rw [Disk.byteAt_readBuf hk, Setup.ops, Disk.apply_append, Disk.apply_append,
        Disk.apply_append, f.separate.left_chunk f.agcount_pos hc hholds, ← huuid,
        byteAt_uuidAt hk, inodeSlot, byteAt_slice (by rw [Nat.succ_mul]; omega)]
      congr 1
      omega

/-- **Its log is clean**, in its first cycle. -/
lemma cleanAt (hd : d.Healthy) : CleanAt (Device.ofSize size logical)
    (d.apply (s.ops size.toNat order)) 2 := by
  have hbbs := f.bbs_eq.1
  set sunit := Log.clearSunit s.g.logsunit (if s.g.sectsize > 512 then s.g.lsectsize else 0)
    with hsunit
  have hle : sunit ≤ 262144 := by
    have hbs := f.accepted.bs_bounds
    by_cases hw : s.g.lsectsize > 512
    · rw [hsunit, Geometry.logsunit_wide hw f.accepted.blocksize_pos, Log.clearSunit,
        if_neg (by change s.g.bs ≠ 1; omega)]
      change s.g.bs ≤ 262144
      omega
    · have hw' : ¬ s.g.sectsize > 512 := by rwa [← f.accepted.lsectsize]
      rw [hsunit, Geometry.logsunit_narrow hw, Log.clearSunit, if_pos rfl, if_neg hw']
      exact Nat.zero_le _
  have hlen : (Log.firstRecord s.id.uuid sunit).length = Log.recordLen sunit * bbsize :=
    Log.length_record
  have hlog : ∀ p < s.g.logblocks * s.g.bs / bbsize,
      (d.apply (s.ops size.toNat order)).readBuf (s.logAt + p * bbsize) bbsize =
        if p < Log.recordLen sunit then
          blockOf (Log.record s.id.uuid sunit (Log.lsn 1 0) (Log.lsn 1 0)) p
        else Log.zeroBlock := fun p hp => by
    have hin : (p + 1) * bbsize ≤ s.g.logblocks * s.g.bs := by
      rw [← hbbs]
      exact Nat.mul_le_mul_right _ hp
    rw [Nat.succ_mul] at hin
    have hbyte : ∀ i < bbsize, byteAt ((d.apply (s.ops size.toNat order)).readBuf
        (s.logAt + p * bbsize) bbsize) i =
          byteAt (Log.firstRecord s.id.uuid sunit) (p * bbsize + i) := fun i hi => by
      rw [Disk.byteAt_readBuf hi, Nat.add_assoc, f.left_log (by omega)]
    split_ifs with hrec
    · have hend : (p + 1) * bbsize ≤ Log.recordLen sunit * bbsize := Nat.mul_le_mul_right _ hrec
      refine Buf.ext ?_ fun i hi => ?_
      · rw [Disk.length_readBuf]
        exact (length_blockOf (hend.trans hlen.ge)).symm
      · rw [Disk.length_readBuf] at hi
        rw [hbyte i hi, byteAt_blockOf hi]
        rfl
    · have hstart : Log.recordLen sunit * bbsize ≤ p * bbsize :=
        Nat.mul_le_mul_right _ (Nat.not_lt.1 hrec)
      refine Buf.ext (by simp [Log.zeroBlock]) fun i hi => ?_
      rw [Disk.length_readBuf] at hi
      rw [hbyte i hi, byteAt_of_le (by omega), Log.zeroBlock, byteAt_replicate_zero]
  have hd' : (d.apply (s.ops size.toNat order)).Healthy := Disk.apply_healthy hd
  have hfits : s.logAt + s.g.logblocks * s.g.bs / bbsize * bbsize ≤
      (Device.ofSize size logical).size := by
    rw [hbbs]
    exact f.log_le
  refine (cleanAt_iff_eval hd' f.opened (.refl _) f.logExtent f.total_le hfits hlog).2
    ⟨_, eval_findTail_first s.id.uuid f.total_le hle, ?_, rfl, by decide⟩
  exact decide_eq_false fun hne => hne rfl

end Filesystem

end Formatted

end MkfsXfs
