import MkfsXfs.Admin.Confined

/-!
Superblocks that are read, edited and written back (`Fs::read_sb`, `Fs::write_sb` and the loops
between them in `src/admin.rs`).

* `Fs.sbNormal`: the superblock as it is written, its checksum apart; writing back an edited one
  normalises it once.
* `SbEdit`: an edit of the label or of the UUIDs only.  `sbToDisk_edit`: edits made one after the
  other are written as one.
-/

namespace MkfsXfs

open Checked Sb

/-! ### Superblocks up to their checksum -/

/-- The superblocks have one length and agree but for the checksum. -/
def SameSb (b c : Buf) : Prop :=
  b.length = c.length ∧ ∀ i, i < Off.crc ∨ Off.crc + 4 ≤ i → byteAt b i = byteAt c i

namespace SameSb

variable {b c : Buf} {o : ℕ}

lemma splice (h : SameSb b c) (off : ℕ) (data : Buf) :
    SameSb (splice b off data) (MkfsXfs.splice c off data) :=
  ⟨by rw [length_splice, length_splice, h.1], fun i hi => byteAt_splice_congr h.1 (h.2 i hi)⟩

lemma be32_eq (h : SameSb b c) (ho : o + 4 ≤ Off.crc ∨ Off.crc + 4 ≤ o) : be32 b o = be32 c o :=
  be32_congr fun _ hk => h.2 _ (by omega)

lemma be64_eq (h : SameSb b c) (ho : o + 8 ≤ Off.crc ∨ Off.crc + 4 ≤ o) : be64 b o = be64 c o :=
  be64_congr fun _ hk => h.2 _ (by omega)

lemma uuidAt_eq (h : SameSb b c) (ho : o + 16 ≤ Off.crc ∨ Off.crc + 4 ≤ o) :
    uuidAt b o = uuidAt c o :=
  Subtype.ext (List.map_congr_left fun i hi => h.2 _ (by have := List.mem_range.1 hi; omega))

end SameSb

namespace Fs

/-! ### What is written back -/

variable {b c data : Buf} {o o' : ℕ} {g : Geo}

lemma nullQuota_nullQuota : nullQuota (nullQuota b o) o = nullQuota b o := by
  by_cases h : be64 b o = 0
  · have hone : nullQuota b o = put64 b o null64 := if_pos h
    rw [hone, nullQuota]
    split_ifs
    · exact splice_splice rfl
    · rfl
  · have hsame : nullQuota b o = b := if_neg h
    rw [hsame, hsame]

lemma nullQuota_splice (h : o + 8 ≤ o' ∨ o' + data.length ≤ o) :
    nullQuota (splice b o' data) o = splice (nullQuota b o) o' data := by
  rw [nullQuota, nullQuota, be64_splice_of_disjoint h]
  split_ifs
  · exact splice_comm (by simpa [or_comm] using h)
  · rfl

lemma nullQuota_comm (h : o + 8 ≤ o' ∨ o' + 8 ≤ o) :
    nullQuota (nullQuota b o) o' = nullQuota (nullQuota b o') o := by
  by_cases hz : be64 b o' = 0
  · have hput : nullQuota b o' = put64 b o' null64 := if_pos hz
    have hz' : be64 (nullQuota b o) o' = 0 := by
      rw [← hz]
      exact be64_congr fun k hk => byteAt_nullQuota (by omega)
    have hput' : nullQuota (nullQuota b o) o' = put64 (nullQuota b o) o' null64 := if_pos hz'
    have hlen : o + 8 ≤ o' ∨ o' + (toBeBytes 8 null64).length ≤ o := by rwa [length_toBeBytes]
    rw [hput', hput, put64, put64, nullQuota_splice hlen]
  · have hz' : be64 (nullQuota b o) o' ≠ 0 := by
      have hread : be64 (nullQuota b o) o' = be64 b o' :=
        be64_congr fun k hk => byteAt_nullQuota (by omega)
      rwa [hread]
    have hsame : nullQuota b o' = b := if_neg hz
    have hsame' : nullQuota (nullQuota b o) o' = nullQuota b o := if_neg hz'
    rw [hsame, hsame']

/-- The quota inodes of a superblock, 0 read as `NULLFSINO`. -/
def nullQuotas (b : Buf) : Buf := [Off.uquotino, Off.gquotino, Off.pquotino].foldl nullQuota b

lemma nullQuotas_eq : nullQuotas b =
    nullQuota (nullQuota (nullQuota b Off.uquotino) Off.gquotino) Off.pquotino := by
  rw [nullQuotas, List.foldl_cons, List.foldl_cons, List.foldl_cons, List.foldl_nil]

lemma nullQuotas_nullQuotas : nullQuotas (nullQuotas b) = nullQuotas b := by
  have hup : ∀ b, nullQuota (nullQuota b Off.pquotino) Off.uquotino =
      nullQuota (nullQuota b Off.uquotino) Off.pquotino := fun b => nullQuota_comm (by decide)
  have hug : ∀ b, nullQuota (nullQuota b Off.gquotino) Off.uquotino =
      nullQuota (nullQuota b Off.uquotino) Off.gquotino := fun b => nullQuota_comm (by decide)
  have hgp : ∀ b, nullQuota (nullQuota b Off.pquotino) Off.gquotino =
      nullQuota (nullQuota b Off.gquotino) Off.pquotino := fun b => nullQuota_comm (by decide)
  rw [nullQuotas_eq, nullQuotas_eq, hup, hug, nullQuota_nullQuota, hgp, nullQuota_nullQuota,
    nullQuota_nullQuota]

lemma nullQuotas_splice (hu : Off.gquotino + 8 ≤ o ∨ o + data.length ≤ Off.uquotino)
    (hp : Off.pquotino + 8 ≤ o ∨ o + data.length ≤ Off.pquotino) :
    nullQuotas (splice b o data) = splice (nullQuotas b) o data := by
  have hu' : Off.uquotino + 8 ≤ o ∨ o + data.length ≤ Off.uquotino := by
    rw [Off.gquotino, Off.uquotino] at *
    omega
  have hg' : Off.gquotino + 8 ≤ o ∨ o + data.length ≤ Off.gquotino := by
    rw [Off.gquotino, Off.uquotino] at *
    omega
  rw [nullQuotas_eq, nullQuotas_eq, nullQuota_splice hu', nullQuota_splice hg',
    nullQuota_splice hp]

lemma length_nullQuotas : (nullQuotas b).length = b.length := by
  rw [nullQuotas_eq, length_nullQuota, length_nullQuota, length_nullQuota]

/-- The superblock as it is written back, its checksum apart. -/
def sbNormal (b : Buf) : Buf :=
  put32 (nullQuotas b) Off.badFeatures2 (be32 (nullQuotas b) Off.features2)

lemma sbToDisk_eq : sbToDisk g b =
    Crc.stamp ((sbNormal b).take g.sectsize) Off.crc ++ (sbNormal b).drop g.sectsize := by
  rw [sbToDisk, sbNormal, nullQuotas]

@[simp] lemma length_sbNormal : (sbNormal b).length = b.length := by
  rw [sbNormal, length_put32, length_nullQuotas]

lemma sbNormal_splice (hu : Off.gquotino + 8 ≤ o ∨ o + data.length ≤ Off.uquotino)
    (hf : Off.badFeatures2 + 4 ≤ o ∨ o + data.length ≤ Off.features2)
    (hp : Off.pquotino + 8 ≤ o ∨ o + data.length ≤ Off.pquotino) :
    sbNormal (splice b o data) = splice (sbNormal b) o data := by
  have hread : be32 (splice (nullQuotas b) o data) Off.features2 =
      be32 (nullQuotas b) Off.features2 := be32_splice_of_disjoint (by
    rw [Off.badFeatures2, Off.features2] at *
    omega)
  rw [sbNormal, nullQuotas_splice hu hp, hread, put32, splice_comm, sbNormal, put32]
  rw [length_toBeBytes]
  rw [Off.badFeatures2, Off.features2] at *
  omega

/-- What is normal stays so. -/
lemma sbNormal_sbNormal : sbNormal (sbNormal b) = sbNormal b := by
  have hquotas : nullQuotas (sbNormal b) = sbNormal b := by
    rw [sbNormal, put32, nullQuotas_splice (.inl (by decide)) (.inr (by
      rw [length_toBeBytes]
      decide)), nullQuotas_nullQuotas]
  have hread : be32 (sbNormal b) Off.features2 = be32 (nullQuotas b) Off.features2 :=
    be32_put32_of_disjoint (by decide)
  rw [sbNormal, hquotas, hread, sbNormal, put32, put32]
  exact splice_splice rfl

lemma sbNormal_same (h : SameSb b c) : SameSb (sbNormal b) (sbNormal c) := by
  have hone : ∀ {b c : Buf} {o : ℕ}, (o + 8 ≤ Off.crc ∨ Off.crc + 4 ≤ o) → SameSb b c →
      SameSb (nullQuota b o) (nullQuota c o) := fun {b c o} ho h => by
    rw [nullQuota, nullQuota, h.be64_eq ho]
    split_ifs
    · exact h.splice _ _
    · exact h
  have hquotas : SameSb (nullQuotas b) (nullQuotas c) := by
    rw [nullQuotas_eq, nullQuotas_eq]
    exact hone (by decide) (hone (by decide) (hone (by decide) h))
  rw [sbNormal, sbNormal, hquotas.be32_eq (by decide), put32, put32]
  exact hquotas.splice _ _

/-- The checksum apart, what is written is the normal superblock. -/
lemma sbToDisk_same (g : Geo) (b : Buf) : SameSb (sbToDisk g b) (sbNormal b) := by
  refine ⟨by rw [length_sbToDisk, length_sbNormal], fun i hi => ?_⟩
  have hlen : (Crc.stamp ((sbNormal b).take g.sectsize) Off.crc).length =
      min g.sectsize (sbNormal b).length := by rw [Crc.length_stamp, List.length_take]
  rw [sbToDisk_eq]
  rcases Nat.lt_or_ge i (min g.sectsize (sbNormal b).length) with hlt | hge
  · rw [byteAt_append_left (by omega), Crc.stamp_eq_splice,
      byteAt_splice_of_not_mem (by simpa using hi), byteAt_take (by omega)]
  · rw [byteAt_append_right (by omega), hlen, byteAt_drop]
    rcases Nat.lt_or_ge g.sectsize (sbNormal b).length with hs | hs
    · congr 1
      omega
    · rw [byteAt_of_le (by omega), byteAt_of_le (by omega)]

/-- What is written depends on the bytes outside the checksum. -/
lemma sbToDisk_congr (hs : Off.crc + 4 ≤ g.sectsize) (h : SameSb b c) :
    sbToDisk g b = sbToDisk g c := by
  have hn := sbNormal_same h
  have htake : Crc.stamp ((sbNormal b).take g.sectsize) Off.crc =
      Crc.stamp ((sbNormal c).take g.sectsize) Off.crc := by
    refine Crc.stamp_congr (by rw [List.length_take, List.length_take, hn.1]) fun i hi => ?_
    rcases Nat.lt_or_ge i g.sectsize with hlt | hge
    · rw [byteAt_take hlt, byteAt_take hlt, hn.2 i hi]
    · rw [byteAt_of_le (by rw [List.length_take]; omega),
        byteAt_of_le (by rw [List.length_take]; omega)]
  have hdrop : (sbNormal b).drop g.sectsize = (sbNormal c).drop g.sectsize := by
    refine Buf.ext (by rw [List.length_drop, List.length_drop, hn.1]) fun i _ => ?_
    rw [byteAt_drop, byteAt_drop, hn.2 _ (by omega)]
  rw [sbToDisk_eq, sbToDisk_eq, htake, hdrop]

/-- The bytes that are written as they are. -/
lemma byteAt_sbNormal {i : ℕ} (hu : i < Off.uquotino ∨ Off.gquotino + 8 ≤ i)
    (hf : i < Off.badFeatures2 ∨ Off.badFeatures2 + 4 ≤ i)
    (hp : i < Off.pquotino ∨ Off.pquotino + 8 ≤ i) : byteAt (sbNormal b) i = byteAt b i := by
  have hu' : i < Off.uquotino ∨ Off.uquotino + 8 ≤ i := hu.imp_right fun h => by
    rw [Off.gquotino, Off.uquotino] at *
    omega
  have hg' : i < Off.gquotino ∨ Off.gquotino + 8 ≤ i := hu.imp_left fun h => by
    rw [Off.gquotino, Off.uquotino] at *
    omega
  rw [sbNormal, byteAt_put32_of_disjoint hf, nullQuotas_eq, byteAt_nullQuota hp,
    byteAt_nullQuota hg', byteAt_nullQuota hu']

end Fs

/-! ### Edits -/

/-- The byte belongs to the label, to a UUID or to the feature that tells the UUIDs apart. -/
def NamingByte (i : ℕ) : Prop :=
  (Off.uuid ≤ i ∧ i < Off.uuid + 16) ∨ (Off.fname ≤ i ∧ i < Off.fname + 12) ∨
    (Off.featuresIncompat ≤ i ∧ i < Off.featuresIncompat + 4) ∨
    (Off.metaUuid ≤ i ∧ i < Off.metaUuid + 16)

/-- An edit of the label or of the UUIDs, and of nothing else in a superblock. -/
structure SbEdit (f : Buf → Buf) : Prop where
  length : ∀ b, (f b).length = b.length
  same : ∀ {b c}, SameSb b c → SameSb (f b) (f c)
  normal : ∀ b, Fs.sbNormal (f b) = f (Fs.sbNormal b)
  bytes : ∀ b {i}, ¬ NamingByte i → byteAt (f b) i = byteAt b i
  features : ∀ {b : Buf}, Off.featuresIncompat + 4 ≤ b.length →
    be32 (f b) Off.featuresIncompat ||| Version.inMetaUuid =
      be32 b Off.featuresIncompat ||| Version.inMetaUuid

/-- **Edits made one after the other are written as one.** -/
lemma SbEdit.sbToDisk_edit {f : Buf → Buf} (hf : SbEdit f) {g : Geo}
    (hs : Off.crc + 4 ≤ g.sectsize) (b : Buf) :
    Fs.sbToDisk g (f (Fs.sbToDisk g b)) = Fs.sbToDisk g (f b) := by
  have hwritten : SameSb (f (Fs.sbToDisk g b)) (Fs.sbNormal (f b)) := by
    rw [hf.normal]
    exact hf.same (Fs.sbToDisk_same g b)
  rw [Fs.sbToDisk_congr hs hwritten, Fs.sbToDisk_eq, Fs.sbNormal_sbNormal, ← Fs.sbToDisk_eq]

section Label

variable {fname : Buf}

/-- A new label is an edit. -/
lemma sbEdit_label (h : fname.length = 12) : SbEdit fun b => splice b Off.fname fname where
  length _ := length_splice
  same hbc := hbc.splice _ _
  normal b := Fs.sbNormal_splice (.inr (by rw [h]; decide)) (.inr (by rw [h]; decide))
    (.inr (by rw [h]; decide))
  bytes b i hi := byteAt_splice_of_not_mem (by
    rw [h]
    by_contra hin
    exact hi (.inr (.inl (by omega))))
  features _ := by
    rw [be32_splice_of_disjoint (.inr (by rw [h]; decide))]

end Label

/-- A feature cleared and set again is set. -/
lemma and_clear_or {x m : ℕ} (hx : x < 2 ^ 32) (hm : m < 2 ^ 32) :
    x &&& (2 ^ 32 - 1 - m) ||| m = x ||| m := by
  refine Nat.eq_of_testBit_eq fun j => ?_
  have hclear : 2 ^ 32 - 1 - m = 2 ^ 32 - (m + 1) := by omega
  rw [Nat.testBit_or, Nat.testBit_and, hclear, Nat.testBit_two_pow_sub_succ hm, Nat.testBit_or]
  rcases Nat.lt_or_ge j 32 with hj | hj
  · rw [decide_eq_true hj]
    cases x.testBit j <;> cases m.testBit j <;> rfl
  · rw [Nat.testBit_lt_two_pow (hx.trans_le (Nat.pow_le_pow_right (by omega) hj))]
    simp

section Uuid

variable {uuid metaU old : Uuid} {b c : Buf} {incompat : ℕ}

/-- The superblock with the UUID `uuid`, its features and its UUID so far being `incompat` and
`old`. -/
def uuidEdit (uuid metaU : Uuid) (incompat : ℕ) (old : Uuid) (b : Buf) : Buf :=
  if decide (incompat &&& Version.inMetaUuid ≠ 0) = false ∧ uuid ≠ metaU then
    splice (put32 (splice b Off.metaUuid old.1) Off.featuresIncompat
      (incompat ||| Version.inMetaUuid)) Off.uuid uuid.1
  else if decide (incompat &&& Version.inMetaUuid ≠ 0) = true ∧ uuid = metaU then
    splice (put32 (splice b Off.metaUuid (List.replicate 16 0)) Off.featuresIncompat
      (incompat &&& (2 ^ 32 - 1 - Version.inMetaUuid))) Off.uuid uuid.1
  else splice (put32 b Off.featuresIncompat incompat) Off.uuid uuid.1

lemma withUuid_eq : withUuid uuid metaU b =
    uuidEdit uuid metaU (be32 b Off.featuresIncompat) (uuidAt b Off.uuid) b := by
  rw [withUuid, uuidEdit]
  dsimp only
  split_ifs <;> rfl

lemma SameSb.put32 (h : SameSb b c) (off v : ℕ) : SameSb (put32 b off v) (MkfsXfs.put32 c off v) :=
  h.splice _ _

lemma uuidEdit_same (h : SameSb b c) :
    SameSb (uuidEdit uuid metaU incompat old b) (uuidEdit uuid metaU incompat old c) := by
  rw [uuidEdit, uuidEdit]
  split_ifs
  · exact ((h.splice _ _).put32 _ _).splice _ _
  · exact ((h.splice _ _).put32 _ _).splice _ _
  · exact (h.put32 _ _).splice _ _

lemma uuidEdit_normal : Fs.sbNormal (uuidEdit uuid metaU incompat old b) =
    uuidEdit uuid metaU incompat old (Fs.sbNormal b) := by
  have huuid : ∀ b, Fs.sbNormal (splice b Off.uuid uuid.1) =
      splice (Fs.sbNormal b) Off.uuid uuid.1 := fun b =>
    Fs.sbNormal_splice (.inr (by rw [uuid.2]; decide)) (.inr (by rw [uuid.2]; decide))
      (.inr (by rw [uuid.2]; decide))
  have hfeat : ∀ b v, Fs.sbNormal (put32 b Off.featuresIncompat v) =
      put32 (Fs.sbNormal b) Off.featuresIncompat v := fun b v =>
    Fs.sbNormal_splice (.inl (by decide)) (.inl (by decide)) (.inr (by
      rw [length_toBeBytes]
      decide))
  have hmeta : ∀ (b : Buf) (data : Buf), Fs.sbNormal (splice b Off.metaUuid data) =
      splice (Fs.sbNormal b) Off.metaUuid data := fun b data =>
    Fs.sbNormal_splice (.inl (by decide)) (.inl (by decide)) (.inl (by decide))
  rw [uuidEdit, uuidEdit]
  split_ifs <;> simp only [huuid, hfeat, hmeta]

lemma byteAt_uuidEdit {i : ℕ} (huuid : i < Off.uuid ∨ Off.uuid + 16 ≤ i)
    (hfeat : i < Off.featuresIncompat ∨ Off.featuresIncompat + 4 ≤ i)
    (hmeta : i < Off.metaUuid ∨ Off.metaUuid + 16 ≤ i) :
    byteAt (uuidEdit uuid metaU incompat old b) i = byteAt b i := by
  rw [uuidEdit]
  split_ifs
  · rw [byteAt_splice_of_not_mem (by rwa [uuid.2]), byteAt_put32_of_disjoint hfeat,
      byteAt_splice_of_not_mem (by rwa [old.2])]
  · rw [byteAt_splice_of_not_mem (by rwa [uuid.2]), byteAt_put32_of_disjoint hfeat,
      byteAt_splice_of_not_mem (by rwa [List.length_replicate])]
  · rw [byteAt_splice_of_not_mem (by rwa [uuid.2]), byteAt_put32_of_disjoint hfeat]

/-- The features the edited superblock carries. -/
lemma be32_uuidEdit (hb : Off.featuresIncompat + 4 ≤ b.length) (hv : incompat < 2 ^ 32) :
    be32 (uuidEdit uuid metaU incompat old b) Off.featuresIncompat =
      if decide (incompat &&& Version.inMetaUuid ≠ 0) = false ∧ uuid ≠ metaU then
        incompat ||| Version.inMetaUuid
      else if decide (incompat &&& Version.inMetaUuid ≠ 0) = true ∧ uuid = metaU then
        incompat &&& (2 ^ 32 - 1 - Version.inMetaUuid)
      else incompat := by
  have hor : incompat ||| Version.inMetaUuid < 2 ^ 32 := Nat.or_lt_two_pow hv (by decide)
  have hand : incompat &&& (2 ^ 32 - 1 - Version.inMetaUuid) < 2 ^ 32 :=
    lt_of_le_of_lt Nat.and_le_left hv
  have huuid : ∀ b : Buf, be32 (splice b Off.uuid uuid.1) Off.featuresIncompat =
      be32 b Off.featuresIncompat := fun b => be32_splice_of_disjoint (.inr (by
    rw [uuid.2]
    decide))
  rw [uuidEdit]
  split_ifs
  · rw [huuid, be32_put32 (by rwa [length_splice]) hor]
  · rw [huuid, be32_put32 (by rwa [length_splice]) hand]
  · rw [huuid, be32_put32 hb hv]

/-- A new UUID is an edit. -/
lemma sbEdit_withUuid (uuid metaU : Uuid) : SbEdit (withUuid uuid metaU) where
  length _ := length_withUuid
  same hbc := by
    rw [withUuid_eq, withUuid_eq, hbc.be32_eq (by decide), hbc.uuidAt_eq (by decide)]
    exact uuidEdit_same hbc
  normal b := by
    have hfeat : be32 (Fs.sbNormal b) Off.featuresIncompat = be32 b Off.featuresIncompat :=
      be32_congr fun k hk => Fs.byteAt_sbNormal (.inr (by
        rw [Off.gquotino, Off.featuresIncompat]
        omega)) (.inr (by
        rw [Off.badFeatures2, Off.featuresIncompat]
        omega)) (.inl (by
        rw [Off.pquotino, Off.featuresIncompat]
        omega))
    have huuid : uuidAt (Fs.sbNormal b) Off.uuid = uuidAt b Off.uuid :=
      Subtype.ext (List.map_congr_left fun k hk => Fs.byteAt_sbNormal (.inl (by
        have := List.mem_range.1 hk
        rw [Off.uquotino, Off.uuid]
        omega)) (.inl (by
        have := List.mem_range.1 hk
        rw [Off.badFeatures2, Off.uuid]
        omega)) (.inl (by
        have := List.mem_range.1 hk
        rw [Off.pquotino, Off.uuid]
        omega)))
    rw [withUuid_eq, withUuid_eq, hfeat, huuid, uuidEdit_normal]
  bytes b i hi := by
    rw [NamingByte, not_or, not_or, not_or] at hi
    rw [withUuid_eq]
    exact byteAt_uuidEdit (by omega) (by omega) (by omega)
  features hb := by
    rw [withUuid_eq, be32_uuidEdit hb be32_lt]
    split_ifs
    · rw [Nat.or_assoc, Nat.or_self]
    · exact and_clear_or be32_lt (by decide)
    · rfl

end Uuid

/-! ### The superblock checks -/

/-- The superblock has its magic and a checksum that matches. -/
def SbOk (g : Geo) (b : Buf) : Prop :=
  be32 b Off.magicnum = magic ∧ Crc.verify (b.take g.sectsize) Off.crc = true

lemma checkSb_eq_ok {g : Geo} {agno : ℕ} {b c : Buf} :
    checkSb g agno b = .ok c ↔ SbOk g b ∧ c = b := by
  rw [checkSb, refuseIf_bind_eq_ok, refuseIf_bind_eq_ok, not_not, Bool.not_eq_false, pure_eq_ok,
    Except.ok.injEq, SbOk, eq_comm (a := b), and_assoc]

/-- **What is written back checks.** -/
lemma SbOk.sbToDisk_edit {g : Geo} (hg : g.Valid) {f : Buf → Buf} (hf : SbEdit f) {b : Buf}
    (h : SbOk g b) (hlen : b.length = g.blocksize) : SbOk g (Fs.sbToDisk g (f b)) := by
  have hs := hg.sectsize_ge
  have hle := hg.sectsize_le
  have hlen' : (Fs.sbNormal (f b)).length = g.blocksize := by
    rw [Fs.length_sbNormal, hf.length, hlen]
  have hmagic : be32 (Fs.sbToDisk g (f b)) Off.magicnum = be32 b Off.magicnum := by
    refine be32_congr fun k hk => ?_
    have hid : ¬ NamingByte (Off.magicnum + k) := by
      rw [NamingByte, Off.magicnum, Off.uuid, Off.fname, Off.featuresIncompat, Off.metaUuid]
      omega
    rw [← hf.bytes b hid]
    rw [Off.magicnum]
    refine byteAt_sbToDisk (.inl ?_) (.inl ?_) (.inl ?_) (.inl ?_) (.inl ?_)
    · rw [Off.uquotino]; omega
    · rw [Off.gquotino]; omega
    · rw [Off.pquotino]; omega
    · rw [Off.badFeatures2]; omega
    · rw [Off.crc]; omega
  have htake : (Fs.sbToDisk g (f b)).take g.sectsize =
      Crc.stamp ((Fs.sbNormal (f b)).take g.sectsize) Off.crc := by
    have hstamp : (Crc.stamp ((Fs.sbNormal (f b)).take g.sectsize) Off.crc).length =
        g.sectsize := by
      rw [Crc.length_stamp, List.length_take, hlen']
      omega
    rw [Fs.sbToDisk_eq, List.take_append_of_le_length hstamp.ge, List.take_of_length_le hstamp.le]
  refine ⟨hmagic.trans h.1, ?_⟩
  rw [htake]
  refine Crc.verify_stamp ?_
  rw [List.length_take, hlen', Off.crc]
  omega

/-! ### The loop over the AGs -/

namespace Geo

/-- Where AG `agno` starts. -/
def headAt (g : Geo) (agno : ℕ) : ℕ := agno * g.agblocks * g.blocksize

variable {g : Geo} {i j : ℕ}

@[simp] lemma headAt_zero (g : Geo) : g.headAt 0 = 0 := by
  rw [headAt, Nat.zero_mul, Nat.zero_mul]

/-- The AGs' first blocks lie apart. -/
lemma headAt_add_le (hg : g.Valid) (h : i < j) : g.headAt i + g.blocksize ≤ g.headAt j := by
  have hpos := hg.agblocks_pos
  calc g.headAt i + g.blocksize
      ≤ g.headAt i + g.agblocks * g.blocksize :=
        Nat.add_le_add_left (Nat.le_mul_of_pos_left _ hpos) _
    _ = (i + 1) * g.agblocks * g.blocksize := by rw [headAt]; ring
    _ ≤ g.headAt j := Nat.mul_le_mul_right _ (Nat.mul_le_mul_right _ h)

lemma headAt_disjoint (hg : g.Valid) (h : i ≠ j) :
    g.headAt i + g.blocksize ≤ g.headAt j ∨ g.headAt j + g.blocksize ≤ g.headAt i :=
  (Nat.lt_or_gt_of_ne h).imp (headAt_add_le hg) (headAt_add_le hg)

end Geo

/-- AG `agno`'s superblock lies on the device and checks. -/
def Readable (dev : Device) (d : Disk) (g : Geo) (agno : ℕ) : Prop :=
  g.headAt agno + g.blocksize ≤ dev.size ∧ SbOk g (d.readBuf (g.headAt agno) g.blocksize)

/-- The disk with the superblocks of the `n` AGs from `agno` on edited. -/
def editAgs (g : Geo) (f : Buf → Buf) : ℕ → ℕ → Disk → Disk
  | _, 0, d => d
  | agno, n + 1, d => editAgs g f (agno + 1) n
      (d.put (g.headAt agno) (Fs.sbToDisk g (f (d.readBuf (g.headAt agno) g.blocksize))))

section Loop

variable {dev : Device} {d d' : Disk} {fs : Fs} {g : Geo} {f : Buf → Buf} {agno n i a : ℕ}

/-- One AG's superblock is rewritten exactly when it can be read. -/
lemma run_rewriteSb_eq_ok (hd : d.Healthy) (hf : ∀ b, (f b).length = b.length) :
    dev.run (rewriteSb fs f agno) d = (.ok (), d') ↔ Readable dev d fs.geo agno ∧
      d' = d.put (fs.geo.headAt agno)
        (Fs.sbToDisk fs.geo (f (d.readBuf (fs.geo.headAt agno) fs.geo.blocksize))) := by
  have hread : Readable dev d fs.geo agno → dev.run (rewriteSb fs f agno) d =
      (.ok (), d.put (fs.geo.headAt agno)
        (Fs.sbToDisk fs.geo (f (d.readBuf (fs.geo.headAt agno) fs.geo.blocksize)))) := fun h => by
    have hlt : fs.geo.headAt agno < 2 ^ 64 :=
      lt_of_le_of_lt ((Nat.le_add_right _ _).trans h.1) dev.size_lt
    have hoff : fs.geo.sbOffset agno = .ok (fs.geo.headAt agno) := fit_of_lt hlt
    exact run_rewriteSb hd hoff h.1 (checkSb_eq_ok.2 ⟨h.2, rfl⟩) (by rw [hf, Disk.length_readBuf])
  constructor
  · intro hrun
    have hok : Readable dev d fs.geo agno := by
      obtain ⟨b, t, hsb, _⟩ := Device.run_bind_eq_ok.1 hrun
      obtain ⟨offset, hoff, hsize, hcheck, _⟩ := readSb_eq_ok hsb
      obtain ⟨_, rfl⟩ := fit_eq_ok.1 hoff
      exact ⟨hsize, (checkSb_eq_ok.1 hcheck).1⟩
    rw [hread hok] at hrun
    exact ⟨hok, (congrArg Prod.snd hrun).symm⟩
  · rintro ⟨hok, rfl⟩
    exact hread hok

/-- A superblock is as it was when another one is rewritten. -/
lemma readBuf_put_head (hg : g.Valid) (hf : ∀ b, (f b).length = b.length) (h : i ≠ agno) :
    (d.put (g.headAt agno) (Fs.sbToDisk g (f (d.readBuf (g.headAt agno) g.blocksize)))).readBuf
      (g.headAt i) g.blocksize = d.readBuf (g.headAt i) g.blocksize := by
  refine Disk.readBuf_put_of_disjoint ?_
  rw [length_sbToDisk, hf, Disk.length_readBuf]
  exact Geo.headAt_disjoint hg h

lemma editAgs_healthy : (editAgs g f agno n d).Healthy ↔ d.Healthy := by
  induction n generalizing agno d with
  | zero => exact Iff.rfl
  | succ n ih => exact ih

/-- Outside the edited superblocks the disk is as it was. -/
lemma bytes_editAgs (hf : ∀ b, (f b).length = b.length)
    (h : ∀ i, agno ≤ i → i < agno + n → a < g.headAt i ∨ g.headAt i + g.blocksize ≤ a) :
    (editAgs g f agno n d).bytes a = d.bytes a := by
  induction n generalizing agno d with
  | zero => rfl
  | succ n ih =>
      rw [editAgs, ih fun i hl hr => h i (by omega) (by omega), Disk.bytes_put_of_not_mem]
      rw [length_sbToDisk, hf, Disk.length_readBuf]
      exact h agno le_rfl (by omega)

/-- A superblock that is not edited is read as it was. -/
lemma readBuf_editAgs_of_not_mem (hg : g.Valid) (hf : ∀ b, (f b).length = b.length)
    (h : i < agno ∨ agno + n ≤ i) : (editAgs g f agno n d).readBuf (g.headAt i) g.blocksize =
      d.readBuf (g.headAt i) g.blocksize := by
  refine Disk.readBuf_congr fun a hl hr => bytes_editAgs hf fun j hjl hjr => ?_
  have := Geo.headAt_disjoint hg (show i ≠ j by omega)
  omega

/-- **The edited superblocks.** -/
lemma readBuf_editAgs (hg : g.Valid) (hf : ∀ b, (f b).length = b.length) (hl : agno ≤ i)
    (hr : i < agno + n) : (editAgs g f agno n d).readBuf (g.headAt i) g.blocksize =
      Fs.sbToDisk g (f (d.readBuf (g.headAt i) g.blocksize)) := by
  induction n generalizing agno d with
  | zero => omega
  | succ n ih =>
      rw [editAgs]
      rcases Nat.eq_or_lt_of_le hl with rfl | hlt
      · have hlen : (Fs.sbToDisk g (f (d.readBuf (g.headAt agno) g.blocksize))).length =
            g.blocksize := by rw [length_sbToDisk, hf, Disk.length_readBuf]
        rw [readBuf_editAgs_of_not_mem hg hf (.inl (by omega))]
        have hread := @Disk.readBuf_put d (g.headAt agno) _ 0 g.blocksize
          ((Nat.zero_add _).trans_le hlen.ge)
        rwa [Nat.add_zero, List.drop_zero, List.take_of_length_le hlen.le] at hread
      · rw [ih hlt (by omega), readBuf_put_head hg hf (by omega)]

/-- **The loop edits the superblocks it can read**: it succeeds exactly when it can read them
all. -/
theorem run_eachAg_eq_ok (hd : d.Healthy) (hf : ∀ b, (f b).length = b.length) :
    dev.run (eachAg (rewriteSb fs f) agno n) d = (.ok (), d') ↔
      (∀ i, agno ≤ i → i < agno + n → Readable dev d fs.geo i) ∧
        d' = editAgs fs.geo f agno n d := by
  induction n generalizing agno d with
  | zero =>
      refine ⟨fun h => ⟨fun i hl hr => absurd hr (by omega), (congrArg Prod.snd h).symm⟩, ?_⟩
      rintro ⟨_, rfl⟩
      rfl
  | succ n ih =>
      have hother : ∀ i, agno + 1 ≤ i → (Readable dev (d.put (fs.geo.headAt agno)
          (Fs.sbToDisk fs.geo (f (d.readBuf (fs.geo.headAt agno) fs.geo.blocksize)))) fs.geo i ↔
            Readable dev d fs.geo i) := fun i hi => by
        rw [Readable, readBuf_put_head fs.valid hf (by omega), Readable]
      rw [eachAg, Device.run_bind_eq_ok]
      constructor
      · rintro ⟨_, t, hfirst, hrest⟩
        obtain ⟨hok, rfl⟩ := (run_rewriteSb_eq_ok hd hf).1 hfirst
        obtain ⟨hall, rfl⟩ := (ih (Disk.put_healthy.2 hd)).1 hrest
        refine ⟨fun i hl hr => ?_, rfl⟩
        rcases Nat.eq_or_lt_of_le hl with rfl | hlt
        · exact hok
        · exact (hother i hlt).1 (hall i hlt (by omega))
      · rintro ⟨hall, rfl⟩
        refine ⟨(), _, (run_rewriteSb_eq_ok hd hf).2 ⟨hall agno le_rfl (by omega), rfl⟩, ?_⟩
        refine (ih (Disk.put_healthy.2 hd)).2 ⟨fun i hl hr => ?_, rfl⟩
        exact (hother i hl).2 (hall i (by omega) (by omega))

/-- Superblocks can be read after an edit where they could before. -/
lemma Readable.editAgs (hg : g.Valid) (hf : SbEdit f) (h : Readable dev d g i) :
    Readable dev (editAgs g f agno n d) g i := by
  refine ⟨h.1, ?_⟩
  by_cases hi : agno ≤ i ∧ i < agno + n
  · rw [readBuf_editAgs hg hf.length hi.1 hi.2]
    exact h.2.sbToDisk_edit hg hf (Disk.length_readBuf _ _ _)
  · rw [readBuf_editAgs_of_not_mem hg hf.length (by omega)]
    exact h.2

end Loop

end MkfsXfs
