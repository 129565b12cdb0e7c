import MkfsXfs.Admin.LabelUuid
import MkfsXfs.Format.Determined
import MkfsXfs.Lib.Utf8

/-!
The label of a filesystem, as the formatter and `set_label` write it.

* `compute_label_isOk`: which labels `compute` takes.  `run_setLabel_isOk`: which `set_label` does.
* `fname_image`, `fname_labelled`: both write the bytes of the label, padded with zeros.
* `labels_agree_iff`: the two agree, and the label is read back, unless it is a short one that
  holds a NUL.
-/

namespace MkfsXfs

open Checked Inspect Sb

/-! ### Which labels are taken -/

section Taken

variable {params : Params} {size : UInt64} {logical physical : UInt32} {g : Geometry} {l : String}

/-- The parameters with the label `l`. -/
def Params.labelled (params : Params) (l : String) : Params := { params with label := some l }

/-- **`compute` takes a label of up to twelve bytes**, whatever they are. -/
theorem compute_label_isOk
    (h : Geometry.compute { params with label := none } size logical physical = .ok g) :
    (∃ g', Geometry.compute (params.labelled l) size logical physical = .ok g') ↔
      l.utf8ByteSize ≤ 12 := by
  have hacc := compute_eq_ok.mp h
  constructor
  · rintro ⟨g', hg'⟩
    have hlabel := (compute_eq_ok.mp hg').label
    exact not_lt.mp (refuseIf_bind_eq_ok.mp hlabel).1
  · intro hle
    refine ⟨{ g with label := padLabel l.toUTF8.toList }, compute_eq_ok.mpr ?_⟩
    exact { hacc with label := refuseIf_bind_eq_ok.mpr ⟨not_lt.mpr hle, rfl⟩ }

/-- The label of an accepted geometry. -/
lemma label_eq (h : Geometry.compute (params.labelled l) size logical physical = .ok g) :
    g.label = padLabel l.toUTF8.toList :=
  (Except.ok.inj (refuseIf_bind_eq_ok.mp (compute_eq_ok.mp h).label).2).symm

variable {dev : Device} {d d' : Disk} {fs : Fs}

/-- **`set_label` takes a label of up to twelve bytes without a NUL**, where it takes any. -/
theorem run_setLabel_isOk (hd : d.Healthy) (hopen : Opened dev d fs)
    (hset : (dev.run (setLabel dev "") d).1 = .ok ()) :
    (∃ d', dev.run (setLabel dev l) d = (.ok (), d')) ↔ LabelOk l := by
  have hall := ((run_setLabel_eq_ok hd hopen).1 (Prod.ext hset rfl)).2.1
  constructor
  · rintro ⟨d', hrun⟩
    exact ((run_setLabel_eq_ok hd hopen).1 hrun).1
  · intro hl
    exact ⟨_, (run_setLabel_eq_ok hd hopen).2 ⟨hl, hall, rfl⟩⟩

end Taken

/-! ### What is written -/

section Written

variable {params : Params} {size : UInt64} {logical physical : UInt32} {l : String}

/-- The label field of a superblock. -/
def fname (b : Buf) : Buf := slice b Off.fname (Off.fname + 12)

/-- The label that is read from a superblock: the bytes before the first zero. -/
def labelIn (b : Buf) : Buf := (fname b).takeWhile fun x => decide (x ≠ 0)

lemma length_fname {b : Buf} (h : Off.fname + 12 ≤ b.length) : (fname b).length = 12 := by
  rw [fname, length_slice h, Nat.add_sub_cancel_left]

lemma fname_congr {b c : Buf} (hb : Off.fname + 12 ≤ b.length) (hc : Off.fname + 12 ≤ c.length)
    (h : ∀ i, Off.fname ≤ i → i < Off.fname + 12 → byteAt b i = byteAt c i) :
    fname b = fname c := by
  refine Buf.ext (by rw [length_fname hb, length_fname hc]) fun i hi => ?_
  rw [length_fname hb] at hi
  rw [fname, fname, byteAt_slice (by omega), byteAt_slice (by omega), h _ (by omega) (by omega)]

/-- The superblock of a geometry has its label. -/
lemma fname_image {g : Geometry} {s : SbState} (hlabel : g.label.length = 12)
    (hs : 512 ≤ g.sectsize) : fname (Sb.image g s) = g.label := by
  have hfield : (⟨Off.fname, g.label⟩ : Field) ∈ fields g s (g.dirblocklog - g.blocklog) :=
    mem_firstFields (by simp [firstFields])
  have hpast : (⟨Off.fname, g.label⟩ : Field).past = Off.fname + 12 := by rw [Field.past, hlabel]
  have hread : ((Sb.image g s).drop Off.fname).take g.label.length = g.label :=
    read_stampFields (ascending hlabel) hfield
      (by rw [hpast, List.length_replicate]; exact le_trans (by decide) hs)
      (.inl (by rw [hpast]; decide))
  rw [hlabel] at hread
  rwa [fname, slice, Nat.add_sub_cancel_left]

/-- A superblock with a new label, as it is written. -/
lemma fname_labelled {g : Geo} {b : Buf} (hl : LabelOk l) (hb : 512 ≤ b.length) :
    fname (Fs.sbToDisk g (withLabel l b)) = padLabel l.toUTF8.toList := by
  have hlen : (withLabel l b).length = b.length := length_splice
  have hroom : Off.fname + 12 ≤ b.length := le_trans (by decide) hb
  have hwritten : fname (withLabel l b) = padLabel l.toUTF8.toList := by
    have hself := @slice_splice_self b Off.fname (padLabel l.toUTF8.toList)
      (by rw [hl.length_pad]; exact hroom)
    rwa [hl.length_pad] at hself
  rw [← hwritten]
  refine fname_congr (by rw [length_sbToDisk, hlen]; exact hroom) (by rw [hlen]; exact hroom)
    fun i hl hr => ?_
  have hcrc : Off.fname + 12 ≤ Off.crc := by decide
  have huq : Off.fname + 12 ≤ Off.uquotino := by decide
  have hbad : Off.fname + 12 ≤ Off.badFeatures2 := by decide
  have hpq : Off.fname + 12 ≤ Off.pquotino := by decide
  rw [(Fs.sbToDisk_same g _).2 i (.inl (by omega)),
    Fs.byteAt_sbNormal (.inl (by omega)) (.inl (by omega)) (.inl (by omega))]

/-- The bytes of a label without a NUL are read back from the field they are padded to. -/
lemma takeWhile_padLabel (hl : '\x00' ∉ l.toList) :
    (padLabel l.toUTF8.toList).takeWhile (fun x => decide (x ≠ 0)) = l.toUTF8.toList :=
  Utf8.takeWhile_padded fun h => hl (Utf8.zero_mem_toUTF8.mp h)

variable {s : Setup} {id : Identity} {head : Buf}

/-- The head of an AG that a format writes: with the others, or finished at the end. -/
def Setup.Writes (s : Setup) (head : Buf) : Prop :=
  (∃ agno, s.head agno = .ok head) ∨ s.finishedHead = .ok head

/-- Every head a format writes has the label of the geometry. -/
lemma fname_written (hs : setup params size logical physical id = .ok s) (hw : s.Writes head) :
    fname head = s.g.label := by
  obtain ⟨hg, -, -, -⟩ := setup_eq_ok.mp hs
  have h := compute_eq_ok.mp hg
  have hss := h.sectsize_ge
  have hroom : Off.fname + 12 ≤ 2 ^ 9 := by decide
  -- What was written has the first sector of a head.
  have hsector : ∃ sbs, s.g.sectsize ≤ head.length ∧
      ∀ i < s.g.sectsize, byteAt head i = byteAt (Sb.image s.g sbs) i := by
    rcases hw with ⟨agno, hhead⟩ | hfin
    · obtain ⟨plan, -, hhead⟩ := bind_eq_ok.mp hhead
      exact ⟨_, (h.sector_agHead hhead).2⟩
    · obtain ⟨plan, -, hfin⟩ := bind_eq_ok.mp hfin
      obtain ⟨whole, hwhole, hfin⟩ := bind_eq_ok.mp hfin
      obtain ⟨-, hle, hbytes⟩ := h.sector_agHead hwhole
      have hblock : s.g.sectsize ≤ s.g.headerBlocks * s.g.bs :=
        h.sectsize_le.trans (Nat.le_mul_of_pos_left _ h.headerBlocks_bounds.1)
      rw [← Except.ok.inj hfin]
      refine ⟨s.finished, by rw [List.length_take]; exact le_min hblock hle, fun i hi => ?_⟩
      rw [byteAt_take (hi.trans_le hblock), hbytes i hi]
  obtain ⟨sbs, hle, hbytes⟩ := hsector
  rw [← fname_image (s := sbs) h.label_length hss]
  exact fname_congr (by omega) (by rw [Sb.length_image]; omega) fun i _ hi =>
    hbytes i (by omega)

/-- The label `l` in the two writers, on a disk whose superblocks can be written: they take it
alike, what they write is the same, and the label is read back from it. -/
structure LabelsAgree (l : String) (params : Params) (size : UInt64) (logical physical : UInt32)
    (dev : Device) (d : Disk) (fs : Fs) : Prop where
  taken : (∃ g, Geometry.compute (params.labelled l) size logical physical = .ok g) ↔
    ∃ d', dev.run (setLabel dev l) d = (.ok (), d')
  formatted : ∀ {id s head}, setup (params.labelled l) size logical physical id = .ok s →
    s.Writes head → labelIn head = l.toUTF8.toList
  labelled : ∀ {d'}, dev.run (setLabel dev l) d = (.ok (), d') → ∀ agno < fs.geo.agcount,
    labelIn (d'.readBuf (fs.geo.headAt agno) fs.geo.blocksize) = l.toUTF8.toList
  same : ∀ {id s head d'}, setup (params.labelled l) size logical physical id = .ok s →
    s.Writes head → dev.run (setLabel dev l) d = (.ok (), d') → ∀ agno < fs.geo.agcount,
    fname head = fname (d'.readBuf (fs.geo.headAt agno) fs.geo.blocksize)

variable {dev : Device} {d d' : Disk} {fs : Fs} {g : Geometry}

/-- Every superblock has the label after it was set. -/
lemma fname_set (hd : d.Healthy) (hopen : Opened dev d fs)
    (hrun : dev.run (setLabel dev l) d = (.ok (), d')) {agno : ℕ} (hag : agno < fs.geo.agcount) :
    LabelOk l ∧ fname (d'.readBuf (fs.geo.headAt agno) fs.geo.blocksize) =
      padLabel l.toUTF8.toList := by
  obtain ⟨hl, -, rfl⟩ := (run_setLabel_eq_ok hd hopen).1 hrun
  refine ⟨hl, ?_⟩
  rw [readBuf_editAgs fs.valid (sbEdit_withLabel hl).length (Nat.zero_le agno) (by omega)]
  exact fname_labelled hl (by rw [Disk.length_readBuf]; exact fs.valid.blocksize_ge)

/-- **Labels agree between the two writers unless they hold a NUL**: of the labels short enough
for the field, `compute` takes those with a NUL too, and they are cut off when they are read. -/
theorem labels_agree_iff (l : String)
    (hg : Geometry.compute { params with label := none } size logical physical = .ok g)
    (hd : d.Healthy) (hopen : Opened dev d fs) (hset : (dev.run (setLabel dev "") d).1 = .ok ()) :
    LabelsAgree l params size logical physical dev d fs ↔
      '\x00' ∉ l.toList ∨ 12 < l.utf8ByteSize := by
  have hcompute := @compute_label_isOk params size logical physical g l hg
  have hsetLabel := @run_setLabel_isOk l dev d fs hd hopen hset
  constructor
  · intro h
    by_contra hnot
    rw [not_or, not_not, not_lt] at hnot
    exact (hsetLabel.mp (h.taken.mp (hcompute.mpr hnot.2))).2 hnot.1
  · intro hcond
    -- A label that either writer takes holds no NUL.
    have hnul : ∀ {g'}, Geometry.compute (params.labelled l) size logical physical = .ok g' →
        '\x00' ∉ l.toList := fun hg' =>
      hcond.resolve_right (not_lt.mpr (hcompute.mp ⟨_, hg'⟩))
    refine ⟨?_, fun {id s head} hs hw => ?_, fun {d'} hrun agno hag => ?_,
      fun {id s head d'} hs hw hrun agno hag => ?_⟩
    · rw [hcompute, hsetLabel, LabelOk, labelMax]
      constructor
      · exact fun hle => ⟨hle, hcond.resolve_right (not_lt.mpr hle)⟩
      · exact fun h => h.1
    · have hg' := (setup_eq_ok.mp hs).1
      rw [labelIn, fname_written hs hw, label_eq hg', takeWhile_padLabel (hnul hg')]
    · obtain ⟨hl, hfield⟩ := fname_set hd hopen hrun hag
      rw [labelIn, hfield, takeWhile_padLabel hl.2]
    · rw [fname_written hs hw, label_eq (setup_eq_ok.mp hs).1, (fname_set hd hopen hrun hag).2]

lemma diskNamed_healthy : (diskNamed 4096).Healthy := editAgs_healthy.2 rfl

/-- Setting the empty label on two AGs. -/
lemma run_setLabel_named :
    (devTwoAgs.run (setLabel devTwoAgs "") (diskNamed 4096)).1 = .ok () := by
  have hlabel : LabelOk "" := ⟨by decide, by decide⟩
  rw [pairOk_4096.holds_named.run_setLabel diskNamed_healthy hlabel]

/-- A label of one character. -/
theorem labels_agree_x : LabelsAgree "x" {} 536870912 512 512 devTwoAgs (diskNamed 4096)
    (fsNamed pairOk_4096) :=
  (labels_agree_iff "x" compute_geo512m diskNamed_healthy pairOk_4096.holds_named.opened
    run_setLabel_named).mpr (Or.inl (by decide))

/-- **A label with a NUL is taken by `compute` and refused by `set_label`.** -/
theorem labels_not_agree :
    (∃ g, Geometry.compute (Params.labelled {} "a\x00b") 536870912 512 512 = .ok g) ∧
      (¬ ∃ d', devTwoAgs.run (setLabel devTwoAgs "a\x00b") (diskNamed 4096) = (.ok (), d')) ∧
      ¬ LabelsAgree "a\x00b" {} 536870912 512 512 devTwoAgs (diskNamed 4096)
        (fsNamed pairOk_4096) := by
  have htaken : ∃ g, Geometry.compute (Params.labelled {} "a\x00b") 536870912 512 512 = .ok g :=
    (compute_label_isOk compute_geo512m).mpr (by decide)
  have hrefused : ¬ ∃ d',
      devTwoAgs.run (setLabel devTwoAgs "a\x00b") (diskNamed 4096) = (.ok (), d') := by
    rw [run_setLabel_isOk diskNamed_healthy pairOk_4096.holds_named.opened
      run_setLabel_named]
    exact fun hl => hl.2 (by decide)
  exact ⟨htaken, hrefused, fun h => hrefused (h.taken.mp htaken)⟩

end Written

end MkfsXfs
