import MkfsXfs.Admin.Uuids

/-!
UUID changes that were interrupted between two superblocks (`set_uuid` and `restore_uuid` in
`src/admin.rs`).

* `Holds`: a filesystem whose superblocks can all be read and lie clear of its log.
* `Fs.interrupted`: what an interrupted change leaves; `Holds.reopened`: it opens again, and its
  metadata has the UUID it had.
* `Holds.cleanAt_interrupted`: its log is found clean.
* `setUuid_resumed_iff`: another change converges exactly when every superblock can be read and
  the log is not a block longer than a multiple of 512.
* `restoreUuid_resumed_iff`: giving the UUID back is only completed when nothing or everything
  was done.
-/

namespace MkfsXfs

open Checked Sb

/-! ### A filesystem on a disk -/

/-- The disk holds the filesystem `fs`: it opens, the superblock of every AG can be read, and none
of them lies where the log is cleared. -/
structure Holds (dev : Device) (d : Disk) (fs : Fs) : Prop where
  opened : Opened dev d fs
  readable : ∀ i < fs.geo.agcount, Readable dev d fs.geo i
  apart : ∀ {start bbs cycle}, fs.geo.logExtent = .ok (start, bbs) → ∀ i < fs.geo.agcount,
    fs.geo.headAt i + fs.geo.blocksize ≤ start ∨
      start + Fs.clearedLen fs.geo bbs cycle ≤ fs.geo.headAt i

/-- No superblock lies in the log. -/
def LogApart (g : Geo) : Prop :=
  ∀ start bbs, g.logExtent = .ok (start, bbs) → ∀ i < g.agcount,
    g.headAt i + g.blocksize ≤ start ∨ start + bbs * bbsize ≤ g.headAt i

/-- The superblocks agree on `sb_uuid`, on `META_UUID` and on `sb_meta_uuid`, which is zero when
the feature is off. -/
def UuidsAgree (d : Disk) (g : Geo) : Prop :=
  ∀ i < g.agcount,
    uuidAt (d.readBuf (g.headAt i) g.blocksize) Off.uuid =
      uuidAt (d.readBuf (g.headAt 0) g.blocksize) Off.uuid ∧
    (HasMeta (d.readBuf (g.headAt i) g.blocksize) ↔
      HasMeta (d.readBuf (g.headAt 0) g.blocksize)) ∧
    uuidAt (d.readBuf (g.headAt i) g.blocksize) Off.metaUuid =
      uuidAt (d.readBuf (g.headAt 0) g.blocksize) Off.metaUuid ∧
    (¬ HasMeta (d.readBuf (g.headAt i) g.blocksize) →
      uuidAt (d.readBuf (g.headAt i) g.blocksize) Off.metaUuid = zeroUuid)

section Holds

variable {dev : Device} {d : Disk} {fs : Fs} {uuid : Uuid} {start bbs cycle i : ℕ}

/-- With a stripe unit of at most 256 KiB the clear stays in the log, and the superblocks need
only lie clear of that. -/
lemma Opened.holds (hopen : Opened dev d fs) (hclean : CleanAt dev d cycle)
    (hsunit : fs.geo.logsunit ≤ 262144) (hapart : LogApart fs.geo)
    (hread : ∀ i < fs.geo.agcount, Readable dev d fs.geo i) : Holds dev d fs where
  opened := hopen
  readable := hread
  apart {start bbs c} hext i hi := by
    have hroom := hclean.total_le hopen hext
    have ht := totalRecBbs_eq
    rw [clearedLen_eq fs.valid hsunit (by omega)]
    exact hapart start bbs hext i hi

/-- Its log of at least 4096 blocks can be cleared on the device, past the first cycle unless a
single block is left over. -/
lemma Fs.clears_iff (hn : totalRecBbs ≤ bbs) (hsunit : fs.geo.logsunit ≤ 262144)
    (hfits : start + bbs * bbsize ≤ dev.size) :
    fs.Clears dev start bbs cycle ↔ cycle = 1 ∨ bbs % 512 ≠ 1 := by
  have ht := totalRecBbs_eq
  have hfirst : firstLen fs.geo.logsunit ≤ 512 := by
    rw [firstLen_eq]
    exact Log.recordLen_le hsunit
  rw [Fs.Clears, clearedLen_eq fs.valid hsunit (by omega), initCycle]
  omega

/-- A log that was cleared lies on the device. -/
lemma Fs.Clears.fits (h : fs.Clears dev start bbs cycle) (hn : totalRecBbs ≤ bbs)
    (hsunit : fs.geo.logsunit ≤ 262144) : start + bbs * bbsize ≤ dev.size := by
  have ht := totalRecBbs_eq
  have hfits := h.1
  rwa [clearedLen_eq fs.valid hsunit (by omega)] at hfits

/-- What is cleared is as long as the log, whatever the UUID. -/
lemma Fs.Clears.length_cleared (h : fs.Clears dev start bbs cycle) :
    (fs.cleared uuid cycle bbs).length = Fs.clearedLen fs.geo bbs cycle := by
  refine MkfsXfs.length_cleared (h.2.imp_right fun hand => ?_)
  have := hand.2
  omega

lemma Fs.Alike.clears {fs₁ : Fs} (h : fs₁.Alike fs) :
    fs₁.Clears dev start bbs cycle ↔ fs.Clears dev start bbs cycle := by
  obtain ⟨x, hx⟩ := h
  rw [Fs.Clears, Fs.Clears, hx, Fs.clearedLen, Fs.clearedLen]

/-- The places of the superblocks do not depend on their features. -/
lemma Fs.Alike.readBuf_eq {fs₁ : Fs} (h : fs₁.Alike fs) :
    d.readBuf (fs₁.geo.headAt i) fs₁.geo.blocksize =
      d.readBuf (fs.geo.headAt i) fs.geo.blocksize := by
  obtain ⟨x, hx⟩ := h
  rw [hx, Geo.headAt, Geo.headAt]

/-- The superblocks of a filesystem are as they were after its log is cleared. -/
lemma Holds.readBuf_cleared (h : Holds dev d fs) (hext : fs.geo.logExtent = .ok (start, bbs))
    (hclears : fs.Clears dev start bbs cycle) (hi : i < fs.geo.agcount)
    (t : Disk) : (t.put start (fs.cleared uuid cycle bbs)).readBuf (fs.geo.headAt i)
      fs.geo.blocksize = t.readBuf (fs.geo.headAt i) fs.geo.blocksize := by
  refine Disk.readBuf_put_of_disjoint ?_
  rw [hclears.length_cleared]
  exact h.apart hext i hi

lemma Holds.readable_cleared (h : Holds dev d fs) (hext : fs.geo.logExtent = .ok (start, bbs))
    (hclears : fs.Clears dev start bbs cycle) (hi : i < fs.geo.agcount) {t : Disk}
    (ht : Readable dev t fs.geo i) :
    Readable dev (t.put start (fs.cleared uuid cycle bbs)) fs.geo i := by
  rw [Readable, h.readBuf_cleared hext hclears hi]
  exact ht

/-- The log is not edited with the superblocks. -/
lemma Holds.bytes_editAgs (h : Holds dev d fs) (hext : fs.geo.logExtent = .ok (start, bbs))
    {f : Buf → Buf} (hf : ∀ b, (f b).length = b.length) {n : ℕ} (hle : n ≤ fs.geo.agcount) {a : ℕ}
    (hl : start ≤ a) (hr : a < start + Fs.clearedLen fs.geo bbs cycle) (t : Disk) :
    (editAgs fs.geo f 0 n t).bytes a = t.bytes a := by
  refine MkfsXfs.bytes_editAgs hf fun i _ hi => ?_
  have hapart := @h.apart start bbs cycle hext i (by omega)
  omega

/-- Superblocks that agree carry the UUID that the first one tells. -/
lemma UuidsAgree.carries {g : Geo} (h : UuidsAgree d g) (hi : i < g.agcount) :
    Carries (metaOf (d.readBuf (g.headAt 0) g.blocksize))
      (d.readBuf (g.headAt i) g.blocksize) := by
  obtain ⟨huuid, hmeta, hmetaUuid, hzero⟩ := h i hi
  refine ⟨fun hm => ?_, fun hm => ⟨?_, hzero hm⟩⟩
  · rw [metaOf, if_pos (hmeta.1 hm), hmetaUuid]
  · rw [metaOf, if_neg fun h0 => hm (hmeta.2 h0), huuid]

/-- A filesystem opens after its superblocks are edited. -/
lemma Opened.editAgs (h : Opened dev d fs) {f : Buf → Buf} (hf : SbEdit f) :
    Opened dev (MkfsXfs.editAgs fs.geo f 0 fs.geo.agcount d) (fs.edited f) := by
  have hread := readBuf_editAgs (d := d) (n := fs.geo.agcount) fs.valid hf.length le_rfl
    (show 0 < 0 + fs.geo.agcount by rw [Nat.zero_add]; exact fs.valid.agcount_pos)
  rw [Geo.headAt_zero, ← h.primary_eq] at hread
  exact h.edited hf hread

/-- A filesystem whose superblocks are edited stays one. -/
lemma Holds.edited (h : Holds dev d fs) {f : Buf → Buf} (hf : SbEdit f) :
    Holds dev (editAgs fs.geo f 0 fs.geo.agcount d) (fs.edited f) where
  opened := h.opened.editAgs hf
  readable i hi := readable_incompat.2 (Readable.editAgs fs.valid hf (h.readable i hi))
  apart hext i hi := h.apart (((fs.edited_alike f).logExtent_eq).symm.trans hext) i hi

/-- Its log is found clean as before. -/
lemma Holds.cleanAt_edited (hd : d.Healthy) (h : Holds dev d fs) {f : Buf → Buf} (hf : SbEdit f)
    (hext : fs.geo.logExtent = .ok (start, bbs)) (hn : totalRecBbs ≤ bbs)
    (hsunit : fs.geo.logsunit ≤ 262144) (hfits : start + bbs * bbsize ≤ dev.size) :
    CleanAt dev (editAgs fs.geo f 0 fs.geo.agcount d) cycle ↔ CleanAt dev d cycle := by
  have ht := totalRecBbs_eq
  refine cleanAt_congr hd (editAgs_healthy.2 hd) h.opened (h.edited hf).opened (.refl fs)
    (fs.edited_alike f) hext hn hfits fun a hl hr => ?_
  have hr' : a < start + Fs.clearedLen fs.geo bbs 1 := by
    rwa [clearedLen_eq fs.valid hsunit (by omega)]
  exact h.bytes_editAgs hext hf.length le_rfl hl hr' d

lemma Opened.metaUuid_eq (h : Opened dev d fs) :
    fs.metaUuid = metaOf (d.readBuf (fs.geo.headAt 0) fs.geo.blocksize) := by
  rw [Fs.metaUuid_eq, h.primary_eq, Geo.headAt_zero]

end Holds

/-! ### An interrupted change -/

/-- The disk after a change of the UUID to `uuid` was interrupted: the log is cleared at `cycle`,
and the superblocks of the first `n` AGs are written. -/
def Fs.interrupted (fs : Fs) (uuid : Uuid) (start bbs cycle n : ℕ) (d : Disk) : Disk :=
  editAgs fs.geo (withUuid uuid fs.metaUuid) 0 n (d.put start (fs.cleared uuid cycle bbs))

section Interrupted

variable {dev : Device} {d d' : Disk} {fs : Fs} {uuid uuid' : Uuid} {start bbs cycle n i : ℕ}

lemma Fs.interrupted_healthy :
    (fs.interrupted uuid start bbs cycle n d).Healthy ↔ d.Healthy := editAgs_healthy

/-- The superblocks that an interrupted change leaves. -/
lemma Holds.readBuf_interrupted (h : Holds dev d fs)
    (hext : fs.geo.logExtent = .ok (start, bbs))
    (hclears : fs.Clears dev start bbs cycle) (hi : i < fs.geo.agcount) :
    (fs.interrupted uuid start bbs cycle n d).readBuf (fs.geo.headAt i) fs.geo.blocksize =
      if i < n then Fs.sbToDisk fs.geo (withUuid uuid fs.metaUuid
        (d.readBuf (fs.geo.headAt i) fs.geo.blocksize))
      else d.readBuf (fs.geo.headAt i) fs.geo.blocksize := by
  have hlen : ∀ b, (withUuid uuid fs.metaUuid b).length = b.length := fun _ => length_withUuid
  have hsame : (d.put start (fs.cleared uuid cycle bbs)).readBuf (fs.geo.headAt i)
      fs.geo.blocksize = d.readBuf (fs.geo.headAt i) fs.geo.blocksize :=
    h.readBuf_cleared hext hclears hi d
  rw [Fs.interrupted]
  split_ifs with hin
  · rw [readBuf_editAgs fs.valid hlen (Nat.zero_le i) (by omega), hsame]
  · rw [readBuf_editAgs_of_not_mem fs.valid hlen (.inr (by omega)), hsame]

/-- They can still be read. -/
lemma Holds.readable_interrupted (h : Holds dev d fs)
    (hext : fs.geo.logExtent = .ok (start, bbs))
    (hclears : fs.Clears dev start bbs cycle) (hi : i < fs.geo.agcount) :
    Readable dev (fs.interrupted uuid start bbs cycle n d) fs.geo i := by
  refine Readable.editAgs fs.valid (sbEdit_withUuid uuid fs.metaUuid) ?_
  have hok := h.readable i hi
  rw [Readable, h.readBuf_cleared hext hclears hi]
  exact hok

/-- **After an interruption the filesystem opens**, like before and with the same UUID of its
metadata. -/
lemma Holds.reopened (h : Holds dev d fs) (hext : fs.geo.logExtent = .ok (start, bbs))
    (hclears : fs.Clears dev start bbs cycle)
    (hc : Carries fs.metaUuid fs.primary) :
    ∃ fs₁, Opened dev (fs.interrupted uuid start bbs cycle n d) fs₁ ∧ fs₁.Alike fs ∧
      fs₁.metaUuid = fs.metaUuid ∧ fs₁.primary =
        (fs.interrupted uuid start bbs cycle n d).readBuf (fs.geo.headAt 0) fs.geo.blocksize := by
  have hread : (fs.interrupted uuid start bbs cycle n d).readBuf (fs.geo.headAt 0)
      fs.geo.blocksize = _ := h.readBuf_interrupted hext hclears fs.valid.agcount_pos
  have hp := h.opened.primary_eq
  rw [Geo.headAt_zero, ← hp] at hread
  rw [Geo.headAt_zero]
  split_ifs at hread with h0
  · refine ⟨fs.edited (withUuid uuid fs.metaUuid),
      h.opened.edited (sbEdit_withUuid uuid fs.metaUuid) hread, fs.edited_alike _, ?_, hread.symm⟩
    have hlen : Off.past ≤ fs.primary.length := by
      have := fs.valid.blocksize_ge
      rw [h.opened.length_primary, Off.past]
      omega
    exact (hc.withUuid hlen).sbToDisk.metaOf_eq
  · exact ⟨fs, h.opened.of_head (hread.trans hp), .refl fs, rfl, hread.symm⟩

/-- **After an interruption the log is found clean**, in the cycle it was cleared at. -/
theorem Holds.cleanAt_interrupted (hd : d.Healthy) (h : Holds dev d fs)
    (hext : fs.geo.logExtent = .ok (start, bbs)) (hn : totalRecBbs ≤ bbs)
    (hsunit : fs.geo.logsunit ≤ 262144) (hclears : fs.Clears dev start bbs cycle)
    (hc : 1 ≤ cycle) (hmagic : cycle < Log.headerMagic) (hle : n ≤ fs.geo.agcount)
    (hcarry : Carries fs.metaUuid fs.primary) :
    CleanAt dev (fs.interrupted uuid start bbs cycle n d) (cycle + 1) := by
  have ht := totalRecBbs_eq
  have hlen : Fs.clearedLen fs.geo bbs cycle = bbs * bbsize :=
    clearedLen_eq fs.valid hsunit (by omega)
  have hfits := hclears.fits hn hsunit
  obtain ⟨fs₁, hopen₁, halike, -, -⟩ : ∃ fs₁,
      Opened dev (fs.interrupted uuid start bbs cycle n d) fs₁ ∧ fs₁.Alike fs ∧ _ ∧ _ :=
    h.reopened hext hclears hcarry
  have hcleared : CleanAt dev (d.put start (fs.cleared uuid cycle bbs)) (cycle + 1) :=
    cleanAt_cleared hd h.opened hext hn hsunit hclears hc hmagic
  have hd' : (d.put start (fs.cleared uuid cycle bbs)).Healthy := Disk.put_healthy.2 hd
  refine (cleanAt_congr hd' (Fs.interrupted_healthy.2 hd) (h.opened.put_log hext) hopen₁
    (.refl fs) halike hext hn hfits fun a hl hr => ?_).2 hcleared
  exact h.bytes_editAgs hext (fun _ => length_withUuid) hle hl (by rwa [hlen]) _

end Interrupted

/-! ### Two AGs -/

section Pair

/-- Two AGs of 4 MiB and a log of `n` basic blocks. -/
def geoPair (n : ℕ) : Geo := { geoTwoAgs with logblocks := n }

/-- A disk with their bare superblock in both. -/
def diskPair (n : ℕ) : Disk :=
  (Disk.blank.put 0 (Crc.stamp (bareSb (geoPair n)) Off.crc)).put 4194304
    (Crc.stamp (bareSb (geoPair n)) Off.crc)

/-- The fields of the bare superblock. -/
structure PairOk (n : ℕ) : Prop where
  parsed : Geo.parse (bareSb (geoPair n)) = .ok (geoPair n)
  features : be32 (bareSb (geoPair n)) Off.featuresIncompat = 0
  rblocks : be64 (bareSb (geoPair n)) Off.rblocks = 0
  magicnum : be32 (bareSb (geoPair n)) Off.magicnum = magic
  metaUuid : uuidAt (bareSb (geoPair n)) Off.metaUuid = zeroUuid
  extent : (geoPair n).logExtent = .ok (4096, n)
  room : 4096 ≤ n ∧ n ≤ 8000

lemma pairOk_4096 : PairOk 4096 := by
  constructor <;> decide +kernel

lemma pairOk_4097 : PairOk 4097 := by
  constructor <;> decide +kernel

/-- The filesystem on the disk. -/
def fsPair {n : ℕ} (h : PairOk n) : Fs where
  geo := geoPair n
  primary := Crc.stamp (bareSb (geoPair n)) Off.crc
  valid := Geo.parse_valid h.parsed

variable {n i : ℕ}

lemma headAt_pair : (geoPair n).headAt 1 = 4194304 := by
  change 1 * 8192 * 512 = 4194304
  norm_num

lemma readBuf_pair (hi : i < 2) : (diskPair n).readBuf ((geoPair n).headAt i) 512 =
    Crc.stamp (bareSb (geoPair n)) Off.crc := by
  have hlen : (Crc.stamp (bareSb (geoPair n)) Off.crc).length = 512 := by simp
  have hwrite : ∀ (d : Disk) off, (d.put off (Crc.stamp (bareSb (geoPair n)) Off.crc)).readBuf off
      512 = Crc.stamp (bareSb (geoPair n)) Off.crc := fun d off => by
    have hread := @Disk.readBuf_put d off _ 0 512 ((Nat.zero_add 512).trans_le hlen.ge)
    rwa [Nat.add_zero, List.drop_zero, List.take_of_length_le hlen.le] at hread
  have hi' : i = 0 ∨ i = 1 := by omega
  rcases hi' with rfl | rfl
  · rw [Geo.headAt_zero, diskPair, Disk.readBuf_put_of_disjoint (.inl (by decide)), hwrite]
  · rw [headAt_pair]
    exact hwrite _ 4194304

variable (h : PairOk n)

include h

/-- It holds the filesystem. -/
lemma PairOk.holds : Holds devTwoAgs (diskPair n) (fsPair h) where
  opened := by
    have hread := readBuf_pair (n := n) (i := 0) (by decide)
    rw [Geo.headAt_zero] at hread
    exact opened_bareSb h.parsed rfl rfl (by decide : (8 : ℕ) ≠ 0) h.features h.rblocks h.magicnum
      le_rfl (by decide) hread
  readable i hi := by
    have hi' : i = 0 ∨ i = 1 := by
      have : i < 2 := hi
      omega
    have hroom : (geoPair n).headAt i + 512 ≤ 8388608 := by
      rcases hi' with rfl | rfl
      · rw [Geo.headAt_zero]
        norm_num
      · rw [headAt_pair]
        norm_num
    refine ⟨hroom, ?_⟩
    change SbOk (geoPair n) ((diskPair n).readBuf ((geoPair n).headAt i) 512)
    rw [readBuf_pair hi]
    have htake : (Crc.stamp (bareSb (geoPair n)) Off.crc).take (geoPair n).sectsize =
        Crc.stamp (bareSb (geoPair n)) Off.crc := by
      change (Crc.stamp (bareSb (geoPair n)) Off.crc).take 512 = _
      exact List.take_of_length_le (by simp)
    refine ⟨(be32_splice_of_disjoint (.inl (by decide))).trans h.magicnum, ?_⟩
    rw [htake]
    exact Crc.verify_stamp (by simp; decide)
  apart {start bbs cycle} hext i hi := by
    have hroom := h.room
    have hext' : (geoPair n).logExtent = .ok (start, bbs) := hext
    rw [h.extent] at hext'
    cases hext'
    have hi' : i = 0 ∨ i = 1 := by
      have : i < 2 := hi
      omega
    have hlen : Fs.clearedLen (geoPair n) n cycle = n * bbsize :=
      clearedLen_eq (fsPair h).valid (by decide : 1 ≤ 262144) (by omega)
    change (geoPair n).headAt i + 512 ≤ 4096 ∨
      4096 + Fs.clearedLen (geoPair n) n cycle ≤ (geoPair n).headAt i
    rw [hlen, bbsize]
    rcases hi' with rfl | rfl
    · rw [Geo.headAt_zero]
      omega
    · rw [headAt_pair]
      omega

/-- The bare superblock's log was never written. -/
lemma PairOk.cleanAt : CleanAt devTwoAgs (diskPair n) 1 := by
  have hroom := h.room
  have hlen : (Crc.stamp (bareSb (geoPair n)) Off.crc).length = 512 := by simp
  have hfits : 4096 + n * bbsize ≤ devTwoAgs.size := by
    change 4096 + n * 512 ≤ 8388608
    omega
  refine cleanAt_zeroed rfl h.holds.opened h.extent (totalRecBbs_eq.trans_le hroom.1) hfits
    fun a hl hr => ?_
  rw [bbsize] at hr
  rw [diskPair, Disk.bytes_put_of_not_mem (by omega), Disk.bytes_put_of_not_mem (by omega)]
  rfl

/-! The same filesystem with a UUID, and with another one. -/

omit h in
lemma length_ones : (List.replicate 16 (1 : UInt8)).length = 16 := rfl

/-- The UUID given to it first. -/
def uuidOnes : Uuid := ⟨List.replicate 16 1, length_ones⟩

/-- The UUID given to it next. -/
def uuidTwos : Uuid := ⟨List.replicate 16 2, rfl⟩

omit h

/-- An edit of `sb_uuid` alone. -/
lemma sbEdit_uuid (uuid : Uuid) : SbEdit fun b => splice b Off.uuid uuid.1 where
  length _ := length_splice
  same hbc := hbc.splice _ _
  normal b := Fs.sbNormal_splice (.inr (by rw [uuid.2]; decide)) (.inr (by rw [uuid.2]; decide))
    (.inr (by rw [uuid.2]; decide))
  bytes b i hi := byteAt_splice_of_not_mem (by
    rw [uuid.2]
    by_contra hin
    exact hi (.inl (by omega)))
  features _ := by
    rw [be32_splice_of_disjoint (.inr (by rw [uuid.2]; decide))]

/-- The superblock with its first UUID. -/
def sbNamed (n : ℕ) : Buf := Fs.sbToDisk (geoPair n)
  (splice (Crc.stamp (bareSb (geoPair n)) Off.crc) Off.uuid uuidOnes.1)

/-- The disk with it in both AGs. -/
def diskNamed (n : ℕ) : Disk :=
  editAgs (geoPair n) (fun b => splice b Off.uuid uuidOnes.1) 0 2 (diskPair n)

/-- The filesystem on it. -/
def fsNamed (h : PairOk n) : Fs := (fsPair h).edited fun b => splice b Off.uuid uuidOnes.1

include h

lemma PairOk.holds_named : Holds devTwoAgs (diskNamed n) (fsNamed h) :=
  h.holds.edited (sbEdit_uuid uuidOnes)

lemma PairOk.readBuf_named (hi : i < 2) :
    (diskNamed n).readBuf ((geoPair n).headAt i) 512 = sbNamed n := by
  have hread := readBuf_editAgs (d := diskPair n) (n := 2) (fsPair h).valid
    (sbEdit_uuid uuidOnes).length (Nat.zero_le i) (by omega)
  rw [sbNamed, ← readBuf_pair hi]
  exact hread

lemma PairOk.cleanAt_named : CleanAt devTwoAgs (diskNamed n) 1 := by
  have hroom := h.room
  have hfits : 4096 + n * bbsize ≤ devTwoAgs.size := by
    change 4096 + n * 512 ≤ 8388608
    omega
  have hd : (diskPair n).Healthy := rfl
  exact (h.holds.cleanAt_edited hd (sbEdit_uuid uuidOnes) h.extent
    (totalRecBbs_eq.trans_le hroom.1) (by decide : 1 ≤ 262144) hfits).2 h.cleanAt

/-- It has no `META_UUID`. -/
lemma PairOk.named_fields : ¬ HasMeta (sbNamed n) ∧ uuidAt (sbNamed n) Off.uuid = uuidOnes ∧
    uuidAt (sbNamed n) Off.metaUuid = zeroUuid := by
  have hlen : (Crc.stamp (bareSb (geoPair n)) Off.crc).length = 512 := by simp
  have hfeatures : be32 (splice (Crc.stamp (bareSb (geoPair n)) Off.crc) Off.uuid uuidOnes.1)
      Off.featuresIncompat = 0 := by
    rw [be32_splice_of_disjoint (.inr (by decide)), Crc.stamp_eq_splice,
      be32_splice_of_disjoint (.inl (by decide)), h.features]
  rw [sbNamed, hasMeta_sbToDisk, uuidAt_sbToDisk_uuid, uuidAt_sbToDisk_metaUuid, HasMeta,
    hfeatures, uuidAt_splice_self (by rw [hlen]; decide),
    uuidAt_splice_of_disjoint (.inr (by decide)), Crc.stamp_eq_splice,
    uuidAt_splice_of_disjoint (.inr (by simp; decide)), h.metaUuid]
  exact ⟨by decide, rfl, rfl⟩

lemma PairOk.carries_named : Carries uuidOnes (sbNamed n) where
  of_meta hm := absurd hm h.named_fields.1
  of_none _ := h.named_fields.2

lemma PairOk.agree_named : UuidsAgree (diskNamed n) (fsNamed h).geo := by
  have hbs : (fsNamed h).geo.blocksize = 512 := rfl
  have hcount : (fsNamed h).geo.agcount = 2 := rfl
  have hag : (fsNamed h).geo.agblocks = 8192 := rfl
  have hhead : ∀ i, (fsNamed h).geo.headAt i = (geoPair n).headAt i := fun i => by
    rw [Geo.headAt, Geo.headAt, hag, hbs]
    rfl
  intro i hi
  rw [hcount] at hi
  rw [hbs, hhead, hhead, h.readBuf_named hi, h.readBuf_named (by decide)]
  exact ⟨rfl, Iff.rfl, rfl, fun _ => h.named_fields.2.2⟩

lemma PairOk.extent_named : (fsNamed h).geo.logExtent = .ok (4096, n) :=
  ((fsPair h).edited_alike _).logExtent_eq.trans h.extent

/-- The log can be cleared in its first cycle, and past it unless a block is left over. -/
lemma PairOk.clears {cycle : ℕ} :
    (fsNamed h).Clears devTwoAgs 4096 n cycle ↔ cycle = 1 ∨ n % 512 ≠ 1 := by
  have hroom := h.room
  refine Fs.clears_iff (totalRecBbs_eq.trans_le hroom.1) (by decide : 1 ≤ 262144) ?_
  change 4096 + n * 512 ≤ 8388608
  omega

/-- Neither superblock lies in the log. -/
lemma PairOk.logApart : LogApart (fsNamed h).geo := by
  intro start bbs hext i hi
  have hroom := h.room
  have ht := totalRecBbs_eq
  have hapart := @Holds.apart _ _ _ h.holds_named start bbs 1 hext i hi
  rw [h.extent_named] at hext
  cases hext
  rwa [clearedLen_eq (fsNamed h).valid (by decide : 1 ≤ 262144) (by omega)] at hapart

lemma PairOk.agcount_named : (fsNamed h).geo.agcount = 2 := rfl

/-- A change of its UUID that was interrupted after the first superblock. -/
lemma PairOk.run_interrupted :
    devTwoAgs.run (setUuidTo devTwoAgs uuidTwos 1) (diskNamed n) = (.ok (fsNamed h),
      (fsNamed h).interrupted uuidTwos 4096 n 1 1 (diskNamed n)) := by
  have hd : (diskNamed n).Healthy := editAgs_healthy.2 rfl
  have hclears := h.clears.2 (.inl rfl : 1 = 1 ∨ _)
  have hmin : min 1 (fsNamed h).geo.agcount = 1 := by
    rw [h.agcount_named]
    rfl
  refine (run_setUuidTo_eq_ok hd h.holds_named.opened).2 ⟨rfl, 4096, n, 1, h.extent_named,
    h.cleanAt_named, hclears, fun i hi => ?_, ?_⟩
  · have hi' : i < (fsNamed h).geo.agcount := by omega
    exact h.holds_named.readable_cleared h.extent_named hclears hi'
      (h.holds_named.readable i hi')
  · rw [Fs.interrupted, hmin]

lemma PairOk.primary_named : (fsNamed h).primary = sbNamed n := by
  have hread := h.readBuf_named (i := 0) (by decide)
  rw [Geo.headAt_zero] at hread
  exact h.holds_named.opened.primary_eq.trans hread

lemma PairOk.metaUuid_named : (fsNamed h).metaUuid = uuidOnes := by
  rw [Fs.metaUuid_eq, h.primary_named, metaOf, if_neg h.named_fields.1, h.named_fields.2.1]

/-- The UUID of its metadata is carried by its first superblock. -/
lemma PairOk.carries_primary : Carries (fsNamed h).metaUuid (fsNamed h).primary := by
  rw [h.metaUuid_named, h.primary_named]
  exact h.carries_named

/-- Its log is then found clean, in its first cycle. -/
lemma PairOk.cleanAt_interrupted :
    CleanAt devTwoAgs ((fsNamed h).interrupted uuidTwos 4096 n 1 1 (diskNamed n)) 2 := by
  have hroom := h.room
  have hd : (diskNamed n).Healthy := editAgs_healthy.2 rfl
  have hle : 1 ≤ (fsNamed h).geo.agcount := by
    rw [h.agcount_named]
    norm_num
  have hsunit : (fsNamed h).geo.logsunit ≤ 262144 := (by decide : 1 ≤ 262144)
  exact h.holds_named.cleanAt_interrupted hd h.extent_named (totalRecBbs_eq.trans_le hroom.1)
    hsunit (h.clears.2 (.inl rfl)) le_rfl (by decide) hle h.carries_primary

end Pair

/-! ### Another change after the interruption -/

section Resumed

/-- Changing the UUID to `uuid` succeeds on the disk `d₁` as on `d`, and leaves the same
superblocks on both. -/
def Converges (dev : Device) (d d₁ : Disk) (g : Geo) (uuid : Uuid) : Prop :=
  ∃ d₂ d', dev.run (setUuid dev uuid) d₁ = (.ok (), d₂) ∧
    dev.run (setUuid dev uuid) d = (.ok (), d') ∧ ∀ i < g.agcount,
      d₂.readBuf (g.headAt i) g.blocksize = d'.readBuf (g.headAt i) g.blocksize

variable {dev : Device} {d d₁ : Disk} {fs : Fs} {uuid₁ uuid₂ : Uuid} {start bbs cycle k n i : ℕ}

/-- Superblocks that agree carry the UUID of the metadata. -/
lemma UuidsAgree.carries_metaUuid (h : UuidsAgree d fs.geo) (hopen : Opened dev d fs)
    (hi : i < fs.geo.agcount) :
    Carries fs.metaUuid (d.readBuf (fs.geo.headAt i) fs.geo.blocksize) := by
  rw [hopen.metaUuid_eq]
  exact h.carries hi

lemma UuidsAgree.carries_primary (h : UuidsAgree d fs.geo) (hopen : Opened dev d fs) :
    Carries fs.metaUuid fs.primary := by
  have h0 := h.carries_metaUuid hopen fs.valid.agcount_pos
  rwa [Geo.headAt_zero, ← hopen.primary_eq] at h0

/-- **The change after an interruption is as good as one without it** when the log can be cleared
for both. -/
lemma Holds.resumes (hd : d.Healthy) (h : Holds dev d fs) (hagree : UuidsAgree d fs.geo)
    (hext : fs.geo.logExtent = .ok (start, bbs)) (hclean : CleanAt dev d cycle)
    (hclears : fs.Clears dev start bbs cycle) {cycle₁ : ℕ}
    (hclean₁ : CleanAt dev (fs.interrupted uuid₁ start bbs cycle n d) cycle₁)
    (hclears₁ : fs.Clears dev start bbs cycle₁) :
    Converges dev d (fs.interrupted uuid₁ start bbs cycle n d) fs.geo uuid₂ := by
  obtain ⟨fs₁, hopen₁, halike, hmeta, -⟩ : ∃ fs₁,
      Opened dev (fs.interrupted uuid₁ start bbs cycle n d) fs₁ ∧ fs₁.Alike fs ∧
        fs₁.metaUuid = fs.metaUuid ∧ _ :=
    h.reopened hext hclears (hagree.carries_primary h.opened)
  have hall : ∀ i < fs.geo.agcount,
      Readable dev (d.put start (fs.cleared uuid₂ cycle bbs)) fs.geo i := fun i hi =>
    h.readable_cleared hext hclears hi (h.readable i hi)
  have hall₁ : ∀ i < fs.geo.agcount, Readable dev ((fs.interrupted uuid₁ start bbs cycle n d).put
      start (fs.cleared uuid₂ cycle₁ bbs)) fs.geo i := fun i hi =>
    h.readable_cleared hext hclears₁ hi (h.readable_interrupted hext hclears hi)
  refine ⟨_, _, (run_setUuid_alike (Fs.interrupted_healthy.2 hd) hopen₁ halike).2
    ⟨start, bbs, cycle₁, hext, hclean₁, hclears₁, hall₁, rfl⟩,
    (run_setUuid_eq_ok hd h.opened).2 ⟨start, bbs, cycle, hext, hclean, hclears, hall, rfl⟩,
    fun i hi => ?_⟩
  have hlen : ∀ b, (withUuid uuid₂ fs.metaUuid b).length = b.length := fun _ => length_withUuid
  rw [hmeta, readBuf_editAgs fs.valid hlen (Nat.zero_le i) (by omega),
    readBuf_editAgs fs.valid hlen (Nat.zero_le i) (by omega),
    h.readBuf_cleared hext hclears₁ hi, h.readBuf_cleared hext hclears hi,
    h.readBuf_interrupted hext hclears hi]
  split_ifs
  · -- Written before the interruption: of its two changes the second stays.
    have hs : Off.crc + 4 ≤ fs.geo.sectsize :=
      (by decide : Off.crc + 4 ≤ 512).trans fs.valid.sectsize_ge
    have hblock : Off.past ≤ (d.readBuf (fs.geo.headAt i) fs.geo.blocksize).length := by
      have := fs.valid.blocksize_ge
      rw [Disk.length_readBuf, Off.past]
      omega
    rw [(sbEdit_withUuid uuid₂ fs.metaUuid).sbToDisk_edit hs,
      (hagree.carries_metaUuid h.opened hi).withUuid_withUuid hblock]
  · rfl

/-- A change that succeeds has read every superblock, and they were not in what it cleared. -/
lemma readable_of_run_setUuid (hd : d.Healthy) (hopen : Opened dev d fs)
    (hclean : CleanAt dev d cycle) (hsunit : fs.geo.logsunit ≤ 262144)
    (hapart : LogApart fs.geo) {d' : Disk}
    (hrun : dev.run (setUuid dev uuid₂) d = (.ok (), d')) (hi : i < fs.geo.agcount) :
    Readable dev d fs.geo i := by
  obtain ⟨start, bbs, cycle', hext, hclean', hclears, hall, -⟩ :=
    (run_setUuid_eq_ok hd hopen).1 hrun
  have hroom := hclean.total_le hopen hext
  have ht := totalRecBbs_eq
  have hsame : (d.put start (fs.cleared uuid₂ cycle' bbs)).readBuf (fs.geo.headAt i)
      fs.geo.blocksize = d.readBuf (fs.geo.headAt i) fs.geo.blocksize := by
    refine Disk.readBuf_put_of_disjoint ?_
    rw [hclears.length_cleared, clearedLen_eq fs.valid hsunit (by omega)]
    exact hapart start bbs hext i hi
  have hok := hall i hi
  rwa [Readable, hsame] at hok

/-- **An interrupted UUID change is completed by another one** on a filesystem whose log holds no
superblock, has a stripe unit of at most 256 KiB and is clean below the cycle that is spelled like
a record header: exactly when every superblock can be read and the log is not a single block longer
than a multiple of 512. -/
theorem setUuid_resumed_iff (hd : d.Healthy) (hopen : Opened dev d fs)
    (hagree : UuidsAgree d fs.geo) (hext : fs.geo.logExtent = .ok (start, bbs))
    (hclean : CleanAt dev d cycle) (hmagic : cycle < Log.headerMagic)
    (hsunit : fs.geo.logsunit ≤ 262144) (hapart : LogApart fs.geo)
    (hrun : dev.run (setUuidTo dev uuid₁ k) d = (.ok fs, d₁)) (uuid₂ : Uuid) :
    Converges dev d d₁ fs.geo uuid₂ ↔
      (∀ i < fs.geo.agcount, Readable dev d fs.geo i) ∧ bbs % 512 ≠ 1 := by
  have hroom := hclean.total_le hopen hext
  obtain ⟨-, start', bbs', cycle', hext', hclean', hclears, -, hd₁⟩ :=
    (run_setUuidTo_eq_ok hd hopen).1 hrun
  obtain rfl := hclean.unique hclean'
  rw [hext] at hext'
  cases hext'
  have hpos := hclean.pos
  have hfits := hclears.fits hroom hsunit
  obtain rfl : d₁ = fs.interrupted uuid₁ start bbs cycle (min k fs.geo.agcount) d := hd₁
  -- Either way the next clear is one cycle on, and no first one.
  have hagain : Holds dev d fs → CleanAt dev
      (fs.interrupted uuid₁ start bbs cycle (min k fs.geo.agcount) d) (cycle + 1) := fun h =>
    h.cleanAt_interrupted hd hext hroom hsunit hclears hpos hmagic (Nat.min_le_right _ _)
      (hagree.carries_primary hopen)
  constructor
  · rintro ⟨d₂, d', hrun₂, hrun', -⟩
    have hread : ∀ i < fs.geo.agcount, Readable dev d fs.geo i := fun i hi =>
      readable_of_run_setUuid hd hopen hclean hsunit hapart hrun' hi
    have h : Holds dev d fs := hopen.holds hclean hsunit hapart hread
    refine ⟨hread, ?_⟩
    obtain ⟨fs₁, hopen₁, halike, -⟩ : ∃ fs₁, Opened dev _ fs₁ ∧ fs₁.Alike fs ∧ _ :=
      h.reopened hext hclears (hagree.carries_primary hopen)
    obtain ⟨start', bbs', cycle', hext', hclean', hclears', -⟩ :=
      (run_setUuid_alike (Fs.interrupted_healthy.2 hd) hopen₁ halike).1 hrun₂
    rw [hext] at hext'
    cases hext'
    obtain rfl := hclean'.unique (hagain h)
    exact ((Fs.clears_iff hroom hsunit hfits).1 hclears').resolve_left (by omega)
  · rintro ⟨hread, hodd⟩
    have h : Holds dev d fs := hopen.holds hclean hsunit hapart hread
    exact h.resumes hd hagree hext hclean hclears (hagain h)
      ((Fs.clears_iff hroom hsunit hfits).2 (.inr hodd))

/-- A log of 4096 blocks: the change is completed by giving the filesystem its first UUID back. -/
theorem setUuid_resumed_pair : ∃ d₁, devTwoAgs.run (setUuidTo devTwoAgs uuidTwos 1)
      (diskNamed 4096) = (.ok (fsNamed pairOk_4096), d₁) ∧
    Converges devTwoAgs (diskNamed 4096) d₁ (fsNamed pairOk_4096).geo uuidOnes := by
  have h := pairOk_4096
  have hd : (diskNamed 4096).Healthy := editAgs_healthy.2 rfl
  have hsunit : (fsNamed h).geo.logsunit ≤ 262144 := (by decide : 1 ≤ 262144)
  exact ⟨_, h.run_interrupted, (setUuid_resumed_iff hd h.holds_named.opened h.agree_named
    h.extent_named h.cleanAt_named (by decide) hsunit h.logApart h.run_interrupted uuidOnes).2
    ⟨h.holds_named.readable, by norm_num⟩⟩

/-- A log of 4097 blocks cannot be cleared past its first cycle. -/
theorem setUuid_not_resumed : ¬ ∀ (dev : Device) (d d₁ : Disk) (fs : Fs) (uuid₁ uuid₂ : Uuid)
    (k : ℕ), d.Healthy → Holds dev d fs → UuidsAgree d fs.geo →
    dev.run (setUuidTo dev uuid₁ k) d = (.ok fs, d₁) → Converges dev d d₁ fs.geo uuid₂ := by
  intro hall
  have h := pairOk_4097
  have hd : (diskNamed 4097).Healthy := editAgs_healthy.2 rfl
  obtain ⟨d₂, -, hrun, -⟩ := hall devTwoAgs (diskNamed 4097) _ (fsNamed h) uuidTwos uuidTwos 1 hd
    h.holds_named h.agree_named h.run_interrupted
  obtain ⟨fs₁, hopen₁, halike, -⟩ : ∃ fs₁, Opened devTwoAgs _ fs₁ ∧ fs₁.Alike (fsNamed h) ∧ _ :=
    h.holds_named.reopened h.extent_named (h.clears.2 (.inl rfl)) h.carries_primary
  obtain ⟨start, bbs, cycle, hext, hclean, hclears, -⟩ :=
    (run_setUuid_alike (Fs.interrupted_healthy.2 hd) hopen₁ halike).1 hrun
  rw [h.extent_named] at hext
  cases hext
  obtain rfl := hclean.unique h.cleanAt_interrupted
  have hodd := h.clears.1 hclears
  omega

end Resumed

/-! ### Giving the UUID back -/

/-- `restoreUuid` up to the point where the log is rewritten and flushed and the superblocks of
`k` AGs are written; `false` when there is nothing to give back. -/
def restoreUuidTo (dev : Device) (k : ℕ) : DevM Bool := do
  let fs ← openFs dev
  if be32 fs.primary Off.featuresIncompat &&& Version.inMetaUuid = 0 then return false
  else do
    let _ ← setUuidTo dev fs.metaUuid k
    return true

/-- The superblock has the UUID `m`, and neither `META_UUID` nor a `sb_meta_uuid`. -/
def Restored (m : Uuid) (b : Buf) : Prop :=
  uuidAt b Off.uuid = m ∧ ¬ HasMeta b ∧ uuidAt b Off.metaUuid = zeroUuid

/-- The superblock of every AG carries `META_UUID`, with `v` for `sb_uuid` and `m` for
`sb_meta_uuid`. -/
def AllMeta (d : Disk) (g : Geo) (v m : Uuid) : Prop :=
  ∀ i < g.agcount, HasMeta (d.readBuf (g.headAt i) g.blocksize) ∧
    uuidAt (d.readBuf (g.headAt i) g.blocksize) Off.uuid = v ∧
    uuidAt (d.readBuf (g.headAt i) g.blocksize) Off.metaUuid = m

/-- A restore on the disk returns, and then every superblock has the UUID `m` back. -/
def GivesBack (dev : Device) (d : Disk) (g : Geo) (m : Uuid) : Prop :=
  ∃ b d', dev.run (restoreUuid dev) d = (.ok b, d') ∧ ∀ i < g.agcount,
    Restored m (d'.readBuf (g.headAt i) g.blocksize)

section Restored

variable {dev : Device} {d d₁ : Disk} {fs : Fs} {m v : Uuid} {k i : ℕ}

lemma Carries.restored {b : Buf} (h : Carries m b) (hlen : Off.past ≤ b.length) (g : Geo) :
    Restored m (Fs.sbToDisk g (MkfsXfs.withUuid m m b)) := by
  rw [Restored, uuidAt_sbToDisk_uuid, uuidAt_sbToDisk_metaUuid, hasMeta_sbToDisk,
    uuidAt_withUuid hlen, hasMeta_withUuid hlen, h.metaUuid_withUuid hlen, if_pos rfl]
  exact ⟨rfl, fun hne => hne rfl, rfl⟩

lemma AllMeta.carries {g : Geo} (h : AllMeta d g v m) (hi : i < g.agcount) :
    Carries m (d.readBuf (g.headAt i) g.blocksize) :=
  ⟨fun _ => (h i hi).2.2, fun hnone => absurd (h i hi).1 hnone⟩

/-- The first superblock tells whether there is a UUID to give back, and which. -/
lemma AllMeta.primary (h : AllMeta d fs.geo v m) (hopen : Opened dev d fs) :
    HasMeta fs.primary ∧ fs.metaUuid = m := by
  have h0 := h 0 fs.valid.agcount_pos
  rw [Geo.headAt_zero, ← hopen.primary_eq] at h0
  exact ⟨h0.1, by rw [Fs.metaUuid_eq, metaOf, if_pos h0.1, h0.2.2]⟩

/-- With `META_UUID` set the restore is a change to the metadata's UUID. -/
lemma run_restoreUuid_of_meta (hd : d.Healthy) (hopen : Opened dev d fs)
    (hmeta : HasMeta fs.primary) : dev.run (restoreUuid dev) d =
      dev.run (do
        setUuid dev fs.metaUuid
        return true) d := by
  rw [restoreUuid, Device.run_bind_ok (run_openFs hd hopen), if_neg hmeta]

/-- Without it there is nothing to do. -/
lemma run_restoreUuid_of_none (hd : d.Healthy) (hopen : Opened dev d fs)
    (hmeta : ¬ HasMeta fs.primary) : dev.run (restoreUuid dev) d = (.ok false, d) := by
  rw [restoreUuid, Device.run_bind_ok (run_openFs hd hopen), if_pos (not_not.1 hmeta)]
  rfl

/-- An interrupted restore leaves what an interrupted change to the metadata's UUID leaves. -/
lemma run_restoreUuidTo_eq_ok (hd : d.Healthy) (hopen : Opened dev d fs)
    (hmeta : HasMeta fs.primary) : dev.run (restoreUuidTo dev k) d = (.ok true, d₁) ↔
      dev.run (setUuidTo dev fs.metaUuid k) d = (.ok fs, d₁) := by
  rw [restoreUuidTo, Device.run_bind_ok (run_openFs hd hopen), if_neg hmeta, Device.run_bind_eq_ok]
  constructor
  · rintro ⟨fs', t, hto, ht⟩
    obtain rfl : t = d₁ := congrArg Prod.snd ht
    obtain ⟨rfl, -⟩ := (run_setUuidTo_eq_ok hd hopen).1 hto
    exact hto
  · exact fun hto => ⟨fs, d₁, hto, rfl⟩

section Halfway

variable {start bbs cycle n : ℕ} (hd : d.Healthy) (h : Holds dev d fs)
  (hall : AllMeta d fs.geo v m) (hext : fs.geo.logExtent = .ok (start, bbs))
  (hclears : fs.Clears dev start bbs cycle)

include h hall hext hclears

/-- What an interrupted restore leaves of a superblock. -/
lemma AllMeta.readBuf_interrupted (hi : i < fs.geo.agcount) :
    (fs.interrupted m start bbs cycle n d).readBuf (fs.geo.headAt i) fs.geo.blocksize =
      if i < n then Fs.sbToDisk fs.geo (withUuid m m
        (d.readBuf (fs.geo.headAt i) fs.geo.blocksize))
      else d.readBuf (fs.geo.headAt i) fs.geo.blocksize := by
  rw [h.readBuf_interrupted hext hclears hi, (hall.primary h.opened).2]

/-- The superblocks written by then have their UUID back. -/
lemma AllMeta.restored_interrupted (hi : i < fs.geo.agcount) (hin : i < n) :
    Restored m ((fs.interrupted m start bbs cycle n d).readBuf (fs.geo.headAt i)
      fs.geo.blocksize) := by
  have hblock : Off.past ≤ (d.readBuf (fs.geo.headAt i) fs.geo.blocksize).length := by
    have := fs.valid.blocksize_ge
    rw [Disk.length_readBuf, Off.past]
    omega
  rw [hall.readBuf_interrupted h hext hclears hi, if_pos hin]
  exact (hall.carries hi).restored hblock fs.geo

/-- The filesystem it leaves opens. -/
lemma AllMeta.reopened : ∃ fs₁, Opened dev (fs.interrupted m start bbs cycle n d) fs₁ ∧
    fs₁.Alike fs ∧ fs₁.metaUuid = m ∧ fs₁.primary =
      (fs.interrupted m start bbs cycle n d).readBuf (fs.geo.headAt 0) fs.geo.blocksize := by
  have hc := hall.carries fs.valid.agcount_pos
  have hm := (hall.primary h.opened).2
  rw [Geo.headAt_zero, ← h.opened.primary_eq] at hc
  have hopens : ∃ fs₁, Opened dev (fs.interrupted m start bbs cycle n d) fs₁ ∧ fs₁.Alike fs ∧
      fs₁.metaUuid = fs.metaUuid ∧ fs₁.primary =
        (fs.interrupted m start bbs cycle n d).readBuf (fs.geo.headAt 0) fs.geo.blocksize :=
    h.reopened hext hclears (hm.symm ▸ hc)
  rwa [hm] at hopens

include hd

/-- **Once the first superblock is written, the next restore finds nothing to do.** -/
lemma AllMeta.restore_skips (hn : 0 < n) :
    dev.run (restoreUuid dev) (fs.interrupted m start bbs cycle n d) =
      (.ok false, fs.interrupted m start bbs cycle n d) := by
  obtain ⟨fs₁, hopen₁, -, -, hp⟩ := hall.reopened h hext hclears
  refine run_restoreUuid_of_none (Fs.interrupted_healthy.2 hd) hopen₁ ?_
  rw [hp]
  exact (hall.restored_interrupted h hext hclears fs.valid.agcount_pos hn).2.1

end Halfway

/-! The two AGs with `META_UUID` set. -/

section Pair

variable {n : ℕ} (h : PairOk n)

/-- The disk of `diskNamed` after a change of the UUID. -/
def diskMeta : Disk :=
  editAgs (fsNamed h).geo (withUuid uuidTwos uuidOnes) 0 (fsNamed h).geo.agcount (diskNamed n)

/-- The filesystem on it. -/
def fsMeta : Fs := (fsNamed h).edited (withUuid uuidTwos uuidOnes)

lemma PairOk.diskMeta_healthy : (diskMeta h).Healthy := editAgs_healthy.2 (editAgs_healthy.2 rfl)

lemma PairOk.holds_meta : Holds devTwoAgs (diskMeta h) (fsMeta h) :=
  h.holds_named.edited (sbEdit_withUuid uuidTwos uuidOnes)

lemma PairOk.extent_meta : (fsMeta h).geo.logExtent = .ok (4096, n) :=
  ((fsNamed h).edited_alike _).logExtent_eq.trans h.extent_named

lemma PairOk.clears_meta : (fsMeta h).Clears devTwoAgs 4096 n 1 :=
  ((fsNamed h).edited_alike _).clears.2 (h.clears.2 (.inl rfl))

lemma PairOk.allMeta : AllMeta (diskMeta h) (fsMeta h).geo uuidTwos uuidOnes := by
  have halike : (fsMeta h).Alike (fsNamed h) := (fsNamed h).edited_alike _
  intro i hi
  have hcount : (fsMeta h).geo.agcount = 2 := rfl
  have hi' : i < (fsNamed h).geo.agcount := by rwa [h.agcount_named, ← hcount]
  have hcarry : Carries uuidOnes
      ((diskNamed n).readBuf ((fsNamed h).geo.headAt i) (fsNamed h).geo.blocksize) := by
    have hmeta := h.agree_named.carries hi'
    rwa [← h.holds_named.opened.metaUuid_eq, h.metaUuid_named] at hmeta
  have hlen : Off.past ≤ ((diskNamed n).readBuf ((fsNamed h).geo.headAt i)
      (fsNamed h).geo.blocksize).length := by
    have := (fsNamed h).valid.blocksize_ge
    rw [Disk.length_readBuf, Off.past]
    omega
  have hne : uuidTwos ≠ uuidOnes := by decide
  rw [halike.readBuf_eq, diskMeta, readBuf_editAgs (fsNamed h).valid (fun _ => length_withUuid)
    (Nat.zero_le i) (by omega), hasMeta_sbToDisk, uuidAt_sbToDisk_uuid, uuidAt_sbToDisk_metaUuid,
    hasMeta_withUuid hlen, uuidAt_withUuid hlen, hcarry.metaUuid_withUuid hlen, if_neg hne]
  exact ⟨hne, rfl, rfl⟩

lemma PairOk.cleanAt_meta : CleanAt devTwoAgs (diskMeta h) 1 := by
  have hroom := h.room
  have hd : (diskNamed n).Healthy := editAgs_healthy.2 rfl
  have hsize : devTwoAgs.size = 8388608 := rfl
  have hsunit : (fsNamed h).geo.logsunit ≤ 262144 := (by decide : 1 ≤ 262144)
  have hfits : 4096 + n * bbsize ≤ devTwoAgs.size := by
    rw [hsize, bbsize]
    omega
  exact (h.holds_named.cleanAt_edited hd (sbEdit_withUuid uuidTwos uuidOnes) h.extent_named
    (totalRecBbs_eq.trans_le hroom.1) hsunit hfits).2 h.cleanAt_named

/-- Giving the UUID back, interrupted after `k` superblocks. -/
lemma PairOk.run_restoring (k : ℕ) :
    devTwoAgs.run (restoreUuidTo devTwoAgs k) (diskMeta h) = (.ok true,
      (fsMeta h).interrupted uuidOnes 4096 n 1 (min k (fsMeta h).geo.agcount) (diskMeta h)) := by
  obtain ⟨hmeta, hm⟩ := h.allMeta.primary h.holds_meta.opened
  refine (run_restoreUuidTo_eq_ok h.diskMeta_healthy h.holds_meta.opened hmeta).2 ?_
  rw [hm]
  refine (run_setUuidTo_eq_ok h.diskMeta_healthy h.holds_meta.opened).2 ⟨rfl, 4096, n, 1,
    h.extent_meta, h.cleanAt_meta, h.clears_meta, fun i hi => ?_, rfl⟩
  have hi' : i < (fsMeta h).geo.agcount := by omega
  exact h.holds_meta.readable_cleared h.extent_meta h.clears_meta hi' (h.holds_meta.readable i hi')

end Pair

/-- A restore after an interrupted one reaches every superblock when all were written before it,
or none was and the log can be cleared again. -/
lemma AllMeta.givesBack_iff (hd : d.Healthy) (h : Holds dev d fs)
    (hall : AllMeta d fs.geo v m) (hrun : dev.run (restoreUuidTo dev k) d = (.ok true, d₁)) :
    GivesBack dev d₁ fs.geo m ↔
    fs.geo.agcount ≤ k ∨ k = 0 ∧
      ∃ start bbs cycle, fs.geo.logExtent = .ok (start, bbs) ∧ CleanAt dev d₁ cycle ∧
        fs.Clears dev start bbs cycle := by
  have hopen := h.opened
  have hpos := fs.valid.agcount_pos
  obtain ⟨hmeta, hm⟩ := hall.primary hopen
  rw [run_restoreUuidTo_eq_ok hd hopen hmeta, hm] at hrun
  obtain ⟨-, start, bbs, cycle, hext, -, hclears, -, hdisk⟩ := (run_setUuidTo_eq_ok hd hopen).1 hrun
  obtain rfl : d₁ = fs.interrupted m start bbs cycle (min k fs.geo.agcount) d := hdisk
  rcases Nat.eq_zero_or_pos k with rfl | hk
  · -- Nothing was written back: the restore starts again.
    rw [Nat.zero_min]
    obtain ⟨fs₁, hopen₁, halike, hm₁, hp⟩ := hall.reopened (n := 0) h hext hclears
    have hhealthy : (fs.interrupted m start bbs cycle 0 d).Healthy := Fs.interrupted_healthy.2 hd
    have hset : HasMeta fs₁.primary := by
      rw [hp, hall.readBuf_interrupted h hext hclears hpos, if_neg (by omega)]
      exact (hall 0 hpos).1
    rw [GivesBack, run_restoreUuid_of_meta hhealthy hopen₁ hset, hm₁]
    constructor
    · rintro ⟨b, d₂, hrun₂, -⟩
      obtain ⟨_, t, hset, -⟩ := Device.run_bind_eq_ok.1 hrun₂
      obtain ⟨start', bbs', cycle', hext', hclean', hclears', -⟩ :=
        (run_setUuid_alike hhealthy hopen₁ halike).1 hset
      exact .inr ⟨rfl, start', bbs', cycle', hext', hclean', hclears'⟩
    · intro hcond
      obtain ⟨-, start', bbs', cycle', hext', hclean', hclears'⟩ := hcond.resolve_left (by omega)
      have hreadable : ∀ i < fs.geo.agcount, Readable dev
          ((fs.interrupted m start bbs cycle 0 d).put start' (fs.cleared m cycle' bbs'))
          fs.geo i := fun i hi =>
        h.readable_cleared hext' hclears' hi (h.readable_interrupted hext hclears hi)
      have hset := (run_setUuid_alike hhealthy hopen₁ halike).2
        ⟨start', bbs', cycle', hext', hclean', hclears', hreadable, rfl⟩
      refine ⟨true, _, Device.run_bind_ok hset, fun i hi => ?_⟩
      have hlen : ∀ b, (withUuid m m b).length = b.length := fun _ => length_withUuid
      have hblock : Off.past ≤ (d.readBuf (fs.geo.headAt i) fs.geo.blocksize).length := by
        have := fs.valid.blocksize_ge
        rw [Disk.length_readBuf, Off.past]
        omega
      rw [hm₁, readBuf_editAgs fs.valid hlen (Nat.zero_le i) (by omega),
        h.readBuf_cleared hext' hclears' hi, hall.readBuf_interrupted h hext hclears hi,
        if_neg (by omega)]
      exact (hall.carries hi).restored hblock fs.geo
  · have hn : 0 < min k fs.geo.agcount := lt_min hk hpos
    rw [GivesBack, hall.restore_skips hd h hext hclears hn]
    constructor
    · rintro ⟨b, d₂, hrun₂, hrestored⟩
      obtain rfl : _ = d₂ := congrArg Prod.snd hrun₂
      left
      by_contra hlt
      -- The AG the restore had come to still carries `META_UUID`.
      have hlast := (hrestored k (by omega)).2.1
      rw [hall.readBuf_interrupted h hext hclears (by omega), if_neg (by omega)] at hlast
      exact hlast (hall k (by omega)).1
    · intro hcond
      have hle : fs.geo.agcount ≤ k := hcond.resolve_right fun hand => by omega
      exact ⟨false, _, rfl, fun i hi =>
        hall.restored_interrupted h hext hclears hi (by omega)⟩

/-- **An interrupted restore is completed by another one** exactly when all its superblocks were
written, or none was and the log can be cleared again. With a stripe unit of at most 256 KiB and
below the cycle that is spelled like a record header, the log can be unless it is a single block
longer than a multiple of 512. -/
theorem restoreUuid_resumed_iff (hd : d.Healthy) (h : Holds dev d fs)
    (hall : AllMeta d fs.geo v m) (hrun : dev.run (restoreUuidTo dev k) d = (.ok true, d₁)) :
    (GivesBack dev d₁ fs.geo m ↔
      fs.geo.agcount ≤ k ∨ k = 0 ∧
        ∃ start bbs cycle, fs.geo.logExtent = .ok (start, bbs) ∧ CleanAt dev d₁ cycle ∧
          fs.Clears dev start bbs cycle) ∧
    ∀ {start bbs cycle}, fs.geo.logExtent = .ok (start, bbs) → fs.geo.logsunit ≤ 262144 →
      CleanAt dev d cycle → cycle < Log.headerMagic →
      (GivesBack dev d₁ fs.geo m ↔ fs.geo.agcount ≤ k ∨ k = 0 ∧ bbs % 512 ≠ 1) := by
  have hiff : GivesBack dev d₁ fs.geo m ↔ _ := hall.givesBack_iff hd h hrun
  refine ⟨hiff, fun {start bbs cycle} hext hsunit hclean hmagic => hiff.trans ?_⟩
  refine or_congr_right (and_congr_right fun hk => ?_)
  have hroom := hclean.total_le h.opened hext
  obtain ⟨hmeta, hm⟩ := hall.primary h.opened
  rw [run_restoreUuidTo_eq_ok hd h.opened hmeta] at hrun
  obtain ⟨-, start', bbs', cycle', hext', hclean', hclears, -, hdisk⟩ :=
    (run_setUuidTo_eq_ok hd h.opened).1 hrun
  obtain rfl := hclean.unique hclean'
  rw [hext] at hext'
  cases hext'
  have hagain : CleanAt dev d₁ (cycle + 1) := by
    have hcarry := hall.carries fs.valid.agcount_pos
    rw [Geo.headAt_zero, ← h.opened.primary_eq, ← hm] at hcarry
    rw [show d₁ = fs.interrupted _ start bbs cycle _ d from hdisk]
    exact h.cleanAt_interrupted hd hext hroom hsunit hclears hclean.pos hmagic
      (Nat.min_le_right _ _) hcarry
  have hnext : fs.Clears dev start bbs (cycle + 1) ↔ bbs % 512 ≠ 1 := by
    have hpos := hclean.pos
    rw [Fs.clears_iff hroom hsunit (hclears.fits hroom hsunit)]
    exact or_iff_right (by omega)
  rw [← hnext]
  constructor
  · rintro ⟨start', bbs', cycle', hext', hclean', hclears'⟩
    rw [hext] at hext'
    cases hext'
    rwa [← hclean'.unique hagain]
  · exact fun hclears' => ⟨start, bbs, cycle + 1, hext, hagain, hclears'⟩

/-- After both superblocks of two AGs the restore is done, and after neither it is done again. -/
theorem restoreUuid_resumed_pair : (∃ d₁, devTwoAgs.run (restoreUuidTo devTwoAgs 2)
      (diskMeta pairOk_4096) = (.ok true, d₁) ∧
      GivesBack devTwoAgs d₁ (fsMeta pairOk_4096).geo uuidOnes) ∧
    ∃ d₁, devTwoAgs.run (restoreUuidTo devTwoAgs 0) (diskMeta pairOk_4096) = (.ok true, d₁) ∧
      GivesBack devTwoAgs d₁ (fsMeta pairOk_4096).geo uuidOnes := by
  have h := pairOk_4096
  have hcount : (fsMeta h).geo.agcount = 2 := rfl
  have hsunit : (fsMeta h).geo.logsunit ≤ 262144 := (by decide : 1 ≤ 262144)
  exact ⟨⟨_, h.run_restoring 2, (restoreUuid_resumed_iff h.diskMeta_healthy h.holds_meta h.allMeta
      (h.run_restoring 2)).1.2 (.inl hcount.le)⟩,
    ⟨_, h.run_restoring 0, ((restoreUuid_resumed_iff h.diskMeta_healthy h.holds_meta h.allMeta
      (h.run_restoring 0)).2 h.extent_meta hsunit h.cleanAt_meta (by decide)).2
      (.inr ⟨rfl, by norm_num⟩)⟩⟩

/-- After the first superblock of two AGs it is never done: the second keeps `META_UUID`. -/
theorem restoreUuid_not_resumed : ¬ ∀ (dev : Device) (d d₁ : Disk) (fs : Fs) (v m : Uuid) (k : ℕ),
    d.Healthy → Holds dev d fs → AllMeta d fs.geo v m → k ≤ fs.geo.agcount →
    dev.run (restoreUuidTo dev k) d = (.ok true, d₁) → GivesBack dev d₁ fs.geo m := by
  intro hall
  have h := pairOk_4096
  have hcount : (fsMeta h).geo.agcount = 2 := rfl
  have hmin : min 1 (fsMeta h).geo.agcount = 1 := by
    rw [hcount]
    rfl
  have hle : 1 ≤ (fsMeta h).geo.agcount := by omega
  obtain ⟨b, d₂, hrun, hrestored⟩ := hall devTwoAgs (diskMeta h) _ (fsMeta h) uuidTwos uuidOnes 1
    h.diskMeta_healthy h.holds_meta h.allMeta hle (h.run_restoring 1)
  rw [hmin, h.allMeta.restore_skips h.diskMeta_healthy h.holds_meta h.extent_meta h.clears_meta
    Nat.one_pos] at hrun
  obtain rfl : _ = d₂ := congrArg Prod.snd hrun
  have hi : 1 < (fsMeta h).geo.agcount := by omega
  have hlast := (hrestored 1 hi).2.1
  rw [h.allMeta.readBuf_interrupted h.holds_meta h.extent_meta h.clears_meta hi,
    if_neg (Nat.lt_irrefl 1)] at hlast
  exact hlast (h.allMeta 1 hi).1

end Restored

end MkfsXfs
