import MkfsXfs.Admin.Fs
import MkfsXfs.Format.Counts

/-!
The superblock a format writes, read back.

* `Sb.image`: the encoded superblock, and `Accepted.encode_eq`: encoding an accepted geometry
  succeeds with it.
* `Sb.ascending`: its fields are in order, so each is read back where it stands.
* `Geometry.geo`, `compute_parse`: a reader takes from it the geometry it was made of, and
  the log's place.
-/

namespace MkfsXfs

open Checked

namespace Sb

/-- Where the fields of a superblock stand: offset and length. -/
def places (wide : Bool) : List (ℕ × ℕ) :=
  [(0, 4), (4, 4), (8, 8), (16, 8), (24, 8), (32, 16), (48, 8), (56, 8), (64, 8), (72, 8),
    (80, 4), (84, 4), (88, 4), (92, 4), (96, 4), (100, 2), (102, 2), (104, 2), (106, 2),
    (108, 12), (120, 1), (121, 1), (122, 1), (123, 1), (124, 1), (125, 1), (126, 1), (127, 1),
    (128, 8), (136, 8), (144, 8), (152, 8), (160, 8), (168, 8), (180, 4), (184, 4), (188, 4),
    (192, 1)] ++ (if wide then [(193, 1), (194, 2)] else []) ++
    [(196, 4), (200, 4), (204, 4), (208, 4), (212, 4), (216, 4), (220, 4), (228, 4), (232, 8),
      (240, 8)]

/-- The superblock of a geometry. -/
def image (g : Geometry) (s : SbState) : Buf :=
  stampFields (List.replicate g.sectsize 0) (fields g s (g.dirblocklog - g.blocklog)) Off.crc

variable {g : Geometry} {s : SbState} {n : ℕ}

@[simp] lemma length_image : (image g s).length = g.sectsize := by
  rw [image, length_stampFields, List.length_replicate]

lemma map_place_fields (hlabel : g.label.length = 12) :
    (fields g s n).map Field.place = places (wideSectors g) := by
  rw [fields, logsectFields, places]
  cases wideSectors g with
  | false =>
      simp only [firstFields, lastFields, List.map_append, List.map_cons, List.map_nil,
        Field.place_u8, Field.place_u16, Field.place_u32, Field.place_u64, Field.place_mk,
        s.uuid.2, hlabel, if_false, Bool.false_eq_true]
      rfl
  | true =>
      simp only [firstFields, lastFields, List.map_append, List.map_cons, List.map_nil,
        Field.place_u8, Field.place_u16, Field.place_u32, Field.place_u64, Field.place_mk,
        s.uuid.2, hlabel, if_true]
      rfl

/-- The fields of a superblock are in order. -/
lemma ascending (hlabel : g.label.length = 12) : Ascending (fields g s n) := by
  refine ascending_of_places ?_
  rw [map_place_fields hlabel]
  cases wideSectors g <;> decide

/-- Nothing is written after the fields. -/
lemma byteAt_image_past {i : ℕ} (hlabel : g.label.length = 12) (hi : Off.metaUuid ≤ i) :
    byteAt (image g s) i = 0 := by
  have hplaces : ∀ p ∈ places (wideSectors g), p.1 + p.2 ≤ Off.metaUuid := by
    cases wideSectors g <;> decide
  have hcrc : Off.crc + 4 ≤ Off.metaUuid := by decide
  rw [image, byteAt_stampFields_of_places, byteAt_replicate_zero]
  · intro p hp
    rw [map_place_fields hlabel] at hp
    exact .inr ((hplaces p hp).trans hi)
  · exact .inr (hcrc.trans hi)

section Read

variable {f : Field} {i o v : ℕ}

/-- A `u8` of the superblock. -/
lemma byteAt_image (hlabel : g.label.length = 12) (hs : Off.past ≤ g.sectsize)
    (hf : Field.u8 o v ∈ fields g s (g.dirblocklog - g.blocklog)) (ho : o + 1 ≤ Off.crc) :
    byteAt (image g s) o = UInt8.ofNat v :=
  byteAt_stampFields_u8 (ascending hlabel) hf
    (by rw [List.length_replicate]; exact ho.trans (le_trans (by decide) hs)) (.inl ho)

lemma be16_image (hlabel : g.label.length = 12) (hs : Off.past ≤ g.sectsize)
    (hf : Field.u16 o v ∈ fields g s (g.dirblocklog - g.blocklog)) (hv : v < 2 ^ 16)
    (ho : o + 2 ≤ Off.crc) : be16 (image g s) o = v :=
  be16_stampFields (ascending hlabel) hf hv
    (by rw [List.length_replicate]; exact ho.trans (le_trans (by decide) hs)) (.inl ho)

lemma be32_image (hlabel : g.label.length = 12) (hs : Off.past ≤ g.sectsize)
    (hf : Field.u32 o v ∈ fields g s (g.dirblocklog - g.blocklog)) (hv : v < 2 ^ 32)
    (ho : o + 4 ≤ Off.crc) : be32 (image g s) o = v :=
  be32_stampFields (ascending hlabel) hf hv
    (by rw [List.length_replicate]; exact ho.trans (le_trans (by decide) hs)) (.inl ho)

lemma be64_image (hlabel : g.label.length = 12) (hs : Off.past ≤ g.sectsize)
    (hf : Field.u64 o v ∈ fields g s (g.dirblocklog - g.blocklog)) (hv : v < 2 ^ 64)
    (ho : o + 8 ≤ Off.crc) : be64 (image g s) o = v :=
  be64_stampFields (ascending hlabel) hf hv
    (by rw [List.length_replicate]; exact ho.trans (le_trans (by decide) hs)) (.inl ho)

/-- The log's sector size, zero for sectors of a basic block. -/
lemma be16_image_logsectsize (hlabel : g.label.length = 12) (hs : Off.past ≤ g.sectsize)
    (hl : g.lsectsize < 2 ^ 16) :
    be16 (image g s) Off.logsectsize = if wideSectors g then g.lsectsize else 0 := by
  cases hw : wideSectors g with
  | true =>
      refine be16_image hlabel hs ?_ hl (by decide)
      rw [fields, logsectFields, hw]
      simp
  | false =>
      have hbyte : ∀ i, Off.logsectsize ≤ i → i < Off.logsunit → byteAt (image g s) i = 0 := by
        have hplaces : ∀ p ∈ places false, p.1 + p.2 ≤ Off.logsectsize ∨ Off.logsunit ≤ p.1 := by
          decide
        have hcrc : Off.logsunit ≤ Off.crc := by decide
        intro i hl hr
        rw [image, byteAt_stampFields_of_places, byteAt_replicate_zero]
        · intro p hp
          rw [map_place_fields hlabel, hw] at hp
          rcases hplaces p hp with hle | hge
          · exact .inr (hle.trans hl)
          · exact .inl (hr.trans_le hge)
        · exact .inl (hr.trans_le hcrc)
      rw [be16, hbyte _ le_rfl (by decide), hbyte _ (by decide) (by decide)]
      rfl

end Read

lemma mem_firstFields {f : Field} (h : f ∈ firstFields g s n) : f ∈ fields g s n :=
  List.mem_append_left _ (List.mem_append_left _ h)

lemma mem_lastFields {f : Field} (h : f ∈ lastFields g) : f ∈ fields g s n :=
  List.mem_append_right _ h

/-- The feature words are small. -/
lemma roCompat_lt (g : Geometry) : roCompat g < 16 := by
  rw [roCompat]
  cases g.features.finobt <;> cases g.features.rmapbt <;> cases g.features.reflink <;>
    cases g.features.inobtcount <;> decide

lemma incompat_lt (g : Geometry) : incompat g < 64 := by
  rw [incompat]
  cases g.features.bigtime <;> cases g.features.sparse <;> cases g.features.nrext64 <;> decide

lemma versionnum_lt (g : Geometry) : versionnum g < 2 ^ 16 := by
  rw [versionnum]
  cases wideSectors g <;> decide

/-- The superblock is one of version 5. -/
lemma versionnum_five (g : Geometry) : versionnum g &&& 0xf = 5 := by
  rw [versionnum]
  cases wideSectors g <;> decide

end Sb

/-! ### What is read -/

/-- The superblock's geometry as a reader takes it. -/
def Geometry.geo (g : Geometry) : Geo where
  blocksize := g.blocksize
  blocklog := g.blocklog
  sectsize := g.sectsize
  agblocks := g.agsize
  agcount := g.agcount
  dblocks := g.dblocks
  agblklog := g.agblklog
  inodesize := g.inodesize
  inopblog := g.inopblog
  logstart := g.logstart
  logblocks := g.logblocks
  logsectsize := if Sb.wideSectors g then g.lsectsize else 0
  logsunit := g.logsunit
  roCompat := Sb.roCompat g
  incompat := Sb.incompat g

section Accepted

variable {params : Params} {dev logical physical : ℕ} {g : Geometry} {s : SbState}

/-- A label takes twelve bytes. -/
lemma Accepted.label_length (h : Accepted params dev logical physical g) :
    g.label.length = 12 := by
  have hpad : ∀ l : List UInt8, l.length ≤ 12 → (padLabel l).length = 12 := fun _ =>
    length_padLabel
  have hlabel := h.label
  rw [labelBytes] at hlabel
  cases hl : params.label with
  | none =>
      rw [hl] at hlabel
      rw [← Except.ok.inj hlabel]
      exact hpad [] (Nat.zero_le _)
  | some l =>
      rw [hl] at hlabel
      obtain ⟨hle, hbytes⟩ := refuseIf_bind_eq_ok.mp hlabel
      rw [← Except.ok.inj hbytes]
      refine hpad _ ?_
      rw [length_toUTF8]
      omega

lemma Accepted.dirblocklog_ge (h : Accepted params dev logical physical g) :
    g.blocklog ≤ g.dirblocklog := by
  rw [h.dirblocklog]
  split_ifs with hlt
  · by_contra hgt
    have hpow : 2 ^ 12 ≤ 2 ^ g.blocklog := Nat.pow_le_pow_right (by norm_num) (by omega)
    rw [← h.blocksize] at hpow
    omega
  · exact le_rfl

/-- **Encoding the superblock of an accepted geometry succeeds.** -/
lemma Accepted.encode_eq (h : Accepted params dev logical physical g) :
    Sb.encode g s (List.replicate g.sectsize 0) = .ok (Sb.image g s) := by
  have hlen : (putFields (List.replicate g.sectsize 0)
      (Sb.fields g s (g.dirblocklog - g.blocklog))).length ≤ g.sectsize := by
    rw [length_putFields, List.length_replicate]
  simp only [Sb.encode, sub_of_le h.dirblocklog_ge, ok_bind, List.take_of_length_le hlen,
    List.drop_of_length_le hlen, List.append_nil]
  rfl

/-- The numbers of the superblock fit its fields. -/
structure Geometry.Narrow (g : Geometry) : Prop where
  label : g.label.length = 12
  blocksize : g.blocksize ≤ 2 ^ 14
  sectsize : 2 ^ 9 ≤ g.sectsize ∧ g.sectsize ≤ g.blocksize
  inodesize : 2 ^ 9 ≤ g.inodesize ∧ g.inodesize ≤ 2 ^ 11
  inopblock : g.inopblock ≤ 2 ^ 5
  agsize : g.agsize < 2 ^ 30
  agcount : g.agcount < 2 ^ 32
  dblocks : g.dblocks < 2 ^ 64
  logblocks : g.logblocks < 2 ^ 32
  agblklog : g.agblklog < 32

lemma Accepted.agblklog_lt (h : Accepted params dev logical physical g) : g.agblklog < 32 := by
  have hshift := h.agsize_le_shift.2
  have hlt := h.agsize_lt
  by_contra hge
  have hpow : 2 ^ 32 ≤ 2 ^ g.agblklog := Nat.pow_le_pow_right (by norm_num) (by omega)
  omega

lemma Accepted.dblocks_lt (h : Accepted params dev logical physical g) (hdev : dev < 2 ^ 64) :
    g.dblocks < 2 ^ 64 := by
  have h1 := h.dblocks_le
  have h2 := h.asked_lt hdev
  rw [h.askedBlocks_eq] at h2
  omega

lemma Accepted.narrow (h : Accepted params dev logical physical g) (hdev : dev < 2 ^ 64) :
    g.Narrow := by
  have hbs : g.blocksize ≤ 2 ^ 14 := by
    rw [h.blocksize]
    exact Nat.pow_le_pow_right (by norm_num) h.blocklog_le
  have hss := h.sectsize_ge
  have his : 2 ^ 9 ≤ g.inodesize ∧ g.inodesize ≤ 2 ^ 11 := by
    rw [h.inodesize]
    exact ⟨Nat.pow_le_pow_right (by norm_num) h.inodelog_ge,
      Nat.pow_le_pow_right (by norm_num) h.inodelog_le⟩
  have hipb : g.inopblock ≤ 2 ^ 5 := by
    have hbl := h.blocklog_le
    have hle := h.inopblock_eq.2
    rw [h.inopblock_eq.1]
    exact Nat.pow_le_pow_right (by norm_num) (by omega)
  have hcount := h.agcount_le
  have hlog : g.logblocks ≤ maxLogBlocks := by
    rw [h.logblocks, Geometry.logSize, Geometry.logCap]
    exact (min_le_right _ _).trans (min_le_left _ _)
  rw [maxAgnumber] at hcount
  rw [maxLogBlocks] at hlog
  exact ⟨h.label_length, hbs, ⟨hss, h.sectsize_le⟩, his, hipb, h.agsize_lt, by omega,
    h.dblocks_lt hdev, by omega, h.agblklog_lt⟩

/-- The fields are read back as they were. -/
lemma Accepted.ofBytes_image (h : Accepted params dev logical physical g) (hn : g.Narrow)
    (hstart : g.logstart < 2 ^ 64) : Geo.ofBytes (Sb.image g s) = g.geo := by
  have hss := hn.sectsize
  have his := hn.inodesize
  have hbs := hn.blocksize
  have hbl := h.blocklog_le
  have hal := hn.agblklog
  have hipb := h.inopblock_eq.2
  have hs : Sb.Off.past ≤ g.sectsize := le_trans (by decide) hss.1
  have hro := Sb.roCompat_lt g
  have hin := Sb.incompat_lt g
  have hsunit : g.logsunit < 2 ^ 32 := by
    rw [Geometry.logsunit, Geometry.lsunitBytes]
    split
    · decide
    · split_ifs <;> omega
  have h8 : ∀ o v, Field.u8 o v ∈ Sb.firstFields g s (g.dirblocklog - g.blocklog) →
      v < 256 → o + 1 ≤ Sb.Off.crc → (byteAt (Sb.image g s) o).toNat = v :=
    fun o v hf hv ho => by
      rw [Sb.byteAt_image hn.label hs (Sb.mem_firstFields hf) ho, UInt8.toNat_ofNat',
        Nat.mod_eq_of_lt hv]
  have h16 : ∀ o v, Field.u16 o v ∈ Sb.firstFields g s (g.dirblocklog - g.blocklog) →
      v < 2 ^ 16 → o + 2 ≤ Sb.Off.crc → be16 (Sb.image g s) o = v := fun o v hf =>
    Sb.be16_image hn.label hs (Sb.mem_firstFields hf)
  have h32 : ∀ o v, Field.u32 o v ∈ Sb.firstFields g s (g.dirblocklog - g.blocklog) →
      v < 2 ^ 32 → o + 4 ≤ Sb.Off.crc → be32 (Sb.image g s) o = v := fun o v hf =>
    Sb.be32_image hn.label hs (Sb.mem_firstFields hf)
  have h64 : ∀ o v, Field.u64 o v ∈ Sb.firstFields g s (g.dirblocklog - g.blocklog) →
      v < 2 ^ 64 → o + 8 ≤ Sb.Off.crc → be64 (Sb.image g s) o = v := fun o v hf =>
    Sb.be64_image hn.label hs (Sb.mem_firstFields hf)
  have hlast : ∀ o v, Field.u32 o v ∈ Sb.lastFields g → v < 2 ^ 32 → o + 4 ≤ Sb.Off.crc →
      be32 (Sb.image g s) o = v := fun o v hf =>
    Sb.be32_image hn.label hs (Sb.mem_lastFields hf)
  have hlogsect := Sb.be16_image_logsectsize (s := s) hn.label hs
    (by rw [h.lsectsize]; omega : g.lsectsize < 2 ^ 16)
  rw [Geo.ofBytes, Geometry.geo, hlogsect,
    h32 Sb.Off.blocksize g.blocksize (by simp [Sb.firstFields]) (by omega) (by decide),
    h8 Sb.Off.blocklog g.blocklog (by simp [Sb.firstFields]) (by omega) (by decide),
    h16 Sb.Off.sectsize g.sectsize (by simp [Sb.firstFields]) (by omega) (by decide),
    h32 Sb.Off.agblocks g.agsize (by simp [Sb.firstFields]) (by have := hn.agsize; omega)
      (by decide),
    h32 Sb.Off.agcount g.agcount (by simp [Sb.firstFields]) hn.agcount (by decide),
    h64 Sb.Off.dblocks g.dblocks (by simp [Sb.firstFields]) hn.dblocks (by decide),
    h8 Sb.Off.agblklog g.agblklog (by simp [Sb.firstFields]) (by omega) (by decide),
    h16 Sb.Off.inodesize g.inodesize (by simp [Sb.firstFields]) (by omega) (by decide),
    h8 Sb.Off.inopblog g.inopblog (by simp [Sb.firstFields]) (by omega) (by decide),
    h64 Sb.Off.logstart g.logstart (by simp [Sb.firstFields]) hstart (by decide),
    h32 Sb.Off.logblocks g.logblocks (by simp [Sb.firstFields]) hn.logblocks (by decide),
    hlast Sb.Off.logsunit g.logsunit (by simp [Sb.lastFields]) hsunit (by decide),
    hlast Sb.Off.featuresRoCompat (Sb.roCompat g) (by simp [Sb.lastFields]) (by omega) (by decide),
    hlast Sb.Off.featuresIncompat (Sb.incompat g) (by simp [Sb.lastFields]) (by omega) (by decide)]

/-- The geometry read is one that describes a filesystem. -/
lemma Accepted.check_geo (h : Accepted params dev logical physical g) (hn : g.Narrow) :
    g.geo.check = .ok true := by
  have hss := hn.sectsize
  have his := hn.inodesize
  have hbs := hn.blocksize
  have hcount := h.agcount_ge
  have hsize := h.agsize_ge
  have hpow : ∀ k, Nat.isPowerOfTwo (2 ^ k) := fun k => ⟨k, rfl⟩
  have hblock : g.geo.blocksize.isPowerOfTwo ∧ 512 ≤ g.geo.blocksize ∧
      g.geo.blocksize ≤ 65536 := by
    refine ⟨?_, ?_, ?_⟩
    · show g.blocksize.isPowerOfTwo
      rw [h.blocksize]
      exact hpow _
    · show 512 ≤ g.blocksize
      omega
    · show g.blocksize ≤ 65536
      omega
  have hbytes : Geo.shl64 g.geo.blocklog = .ok g.blocksize := by
    show Geo.shl64 g.blocklog = .ok g.blocksize
    have hbl := h.blocklog_le
    rw [Geo.shl64, if_pos (by omega), h.blocksize]
  have hfields : g.blocksize = g.geo.blocksize ∧
      g.geo.sectsize.isPowerOfTwo ∧ 512 ≤ g.geo.sectsize ∧ g.geo.sectsize ≤ 32768 ∧
      g.geo.sectsize ≤ g.geo.blocksize ∧
      g.geo.inodesize.isPowerOfTwo ∧ 256 ≤ g.geo.inodesize ∧ g.geo.inodesize ≤ 2048 ∧
      0 < g.geo.agcount ∧ 0 < g.geo.agblocks := by
    have hsect : g.sectsize.isPowerOfTwo := by rw [h.sectsize]; exact hpow _
    have hino : g.inodesize.isPowerOfTwo := by rw [h.inodesize]; exact hpow _
    simp only [Geometry.geo]
    exact ⟨trivial, hsect, hss.1, by omega, hss.2, hino, by omega, his.2, by omega, by omega⟩
  have hroom : Geo.shl64 g.geo.agblklog = .ok (2 ^ g.agblklog) := by
    show Geo.shl64 g.agblklog = .ok (2 ^ g.agblklog)
    have hal := hn.agblklog
    rw [Geo.shl64, if_pos (by omega)]
  have hshift : g.geo.agblocks ≤ 2 ^ g.agblklog ∧ g.geo.agblklog < 32 :=
    ⟨h.agsize_le_shift.1, hn.agblklog⟩
  have hfit : g.geo.agcount * g.geo.agblocks < 2 ^ 64 := by
    show g.agcount * g.agsize < 2 ^ 64
    calc g.agcount * g.agsize < 2 ^ 32 * 2 ^ 30 :=
          Nat.mul_lt_mul'' hn.agcount hn.agsize
      _ ≤ 2 ^ 64 := by norm_num
  have hblocks : g.geo.dblocks ≤ g.geo.agcount * g.geo.agblocks := h.dblocks_le_mul
  rw [Geo.check, if_neg (not_not.mpr hblock), hbytes, ok_bind, if_neg (not_not.mpr hfields),
    hroom, ok_bind, if_neg (not_not.mpr hshift), fit_of_lt hfit, ok_bind, decide_eq_true hblocks]

/-- **A reader takes from the superblock the geometry it was made of.** -/
lemma Accepted.parse_image (h : Accepted params dev logical physical g) (hn : g.Narrow)
    (hstart : g.logstart < 2 ^ 64) : Geo.parse (Sb.image g s) = .ok g.geo := by
  have hs : Sb.Off.past ≤ g.sectsize := le_trans (by decide) hn.sectsize.1
  have hreach : ∀ n, n ≤ Sb.Off.past → Geo.reaches (Sb.image g s) n = .ok () := fun n hle => by
    rw [Geo.reaches, Sb.length_image, if_pos (hle.trans hs)]
  have hmagic : be32 (Sb.image g s) Sb.Off.magicnum = Sb.magic :=
    Sb.be32_image hn.label hs (Sb.mem_firstFields (by simp [Sb.firstFields])) (by decide)
      (by decide)
  have hversion : be16 (Sb.image g s) Sb.Off.versionnum = Sb.versionnum g :=
    Sb.be16_image hn.label hs (Sb.mem_firstFields (by simp [Sb.firstFields]))
      (Sb.versionnum_lt g) (by decide)
  rw [Geo.parse, hreach _ (by decide), ok_bind, refuseIf_of_not (not_not.mpr hmagic), ok_bind,
    hreach _ (by decide), ok_bind, hversion,
    refuseIf_of_not (not_not.mpr (Sb.versionnum_five g)), ok_bind, hreach _ (by decide), ok_bind]
  simp only [h.ofBytes_image hn hstart, h.check_geo hn, ok_bind]
  rfl

/-- The log's first block is a block of its AG. -/
lemma Accepted.hasBlock_log (h : Accepted params dev logical physical g) (hlog : g.LogFits) :
    g.HasBlock g.logagno g.logAgbno := by
  obtain ⟨len, hlen, hin⟩ := hlog.inside
  have hpos := h.logblocks_pos
  exact ⟨hlog.agno_lt, len, hlen, by omega⟩

/-- The log's place as a reader finds it. -/
lemma Accepted.logExtent_geo (h : Accepted params dev logical physical g) (hdev : dev < 2 ^ 64)
    (hc : g.Covered) (hlog : g.LogFits) : g.geo.logExtent
      = .ok (g.agbToByte g.logagno g.logAgbno, g.logblocks * g.blocksize / bbsize) := by
  have hb := h.hasBlock_log hlog
  obtain ⟨-, hag, hagb⟩ := h.fsb hdev hb
  have hle := h.byte_le hdev (Nat.le_of_lt hc) hb
  have hsize := (Nat.mul_le_mul_right g.blocksize h.dblocks_le).trans h.asked_mul_le
  have hbyte : (g.logagno * g.agsize + g.logAgbno) * g.blocksize
      = g.agbToByte g.logagno g.logAgbno := h.agbToByte_eq.symm
  have hstart : g.geo.logstart >>> g.geo.agblklog = g.logagno := hag
  have hmask : g.geo.logstart &&& (2 ^ g.geo.agblklog - 1) = g.logAgbno := hagb
  rw [Geo.logExtent]
  simp only [hstart, hmask]
  show (fit 64 ((g.logagno * g.agsize + g.logAgbno) * g.blocksize) >>= _) = _
  rw [hbyte, fit_of_lt (by omega), ok_bind]
  rfl

end Accepted

/-- What a reader takes from the superblock `b` of the geometry. -/
structure Geometry.ReadBack (g : Geometry) (s : SbState) (b : Buf) : Prop where
  encode : Sb.encode g s (List.replicate g.sectsize 0) = .ok b
  parse : Geo.parse b = .ok g.geo
  crc : Crc.verify b Sb.Off.crc = true
  log : g.geo.logExtent
    = .ok (g.agbToByte g.logagno g.logAgbno, g.logblocks * g.blocksize / bbsize)

/-- **The superblock is read back faithfully**: no field loses a bit to its width, the
checksum holds, and the log is found where it was put. -/
theorem compute_readBack (params : Params) (dev : UInt64) (logical physical : UInt32)
    (g : Geometry) (s : SbState) (hg : Geometry.compute params dev logical physical = .ok g)
    (hmin : g.AgsMin) (hlog : g.LogFits) : ∃ b, g.ReadBack s b := by
  have h := compute_eq_ok.mp hg
  have hdev := dev.toNat_lt
  have hn := h.narrow hdev
  have hstart : g.logstart < 2 ^ 64 := (h.fsb hdev (h.hasBlock_log hlog)).1
  have hcrc : Sb.Off.crc + 4 ≤ g.sectsize := le_trans (by decide) hn.sectsize.1
  refine ⟨Sb.image g s, h.encode_eq, h.parse_image hn hstart, ?_,
    h.logExtent_geo hdev (h.covered_of_min hdev hmin) hlog⟩
  exact verify_stampFields (by rwa [List.length_replicate])

/-- A finished primary superblock of 512 MiB. -/
def sb512m : SbState where
  uuid := ⟨List.replicate 16 7, rfl⟩
  rootino := 128
  rbmino := 129
  rsumino := 130
  icount := 64
  ifree := 61
  fdblocks := 114652
  inprogress := false

lemma logFits_geo512m : geo512m.LogFits where
  agno_lt := by decide
  inside := ⟨32768, rfl, by decide⟩
  after := by decide

/-- The superblock of 512 MiB is read back. -/
theorem compute_readBack_512m : ∃ b, geo512m.ReadBack sb512m b :=
  compute_readBack {} 536870912 512 512 geo512m sb512m compute_geo512m agsMin_geo512m
    logFits_geo512m

end MkfsXfs
