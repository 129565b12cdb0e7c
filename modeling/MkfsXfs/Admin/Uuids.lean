import MkfsXfs.Admin.Reopen

/-!
The two UUIDs of a superblock (`set_uuid` in `src/admin.rs`).

* `Carries`: the metadata's UUID is what the superblock says it is, and `sb_meta_uuid` is zero
  when it is not used.
* `Carries.withUuid`: a UUID change keeps that.
* `Carries.withUuid_withUuid`: of two changes the second stays.
-/

namespace MkfsXfs

open Checked Sb

/-! ### Fields of sixteen bytes -/

section Fields

variable {b c : Buf} {o off : ℕ} {uuid : Uuid} {data : Buf}

lemma uuidAt_congr (h : ∀ k < 16, byteAt b (o + k) = byteAt c (off + k)) :
    uuidAt b o = uuidAt c off :=
  Subtype.ext (List.map_congr_left fun k hk => h k (List.mem_range.1 hk))

lemma byteAt_uuidAt {k : ℕ} (hk : k < 16) : byteAt (uuidAt b o).1 k = byteAt b (o + k) := by
  simp [uuidAt, byteAt, hk]

lemma byteAt_eq_of_uuidAt_eq (h : uuidAt b o = uuidAt c o) {i : ℕ} (hi : o ≤ i ∧ i < o + 16) :
    byteAt b i = byteAt c i := by
  have hbyte := congrArg (fun u : Uuid => byteAt u.1 (i - o)) h
  rwa [byteAt_uuidAt (by omega), byteAt_uuidAt (by omega), Nat.add_sub_cancel' hi.1] at hbyte

lemma uuidAt_splice_self (h : o + 16 ≤ b.length) : uuidAt (splice b o uuid.1) o = uuid := by
  refine Subtype.ext (Buf.ext (by rw [(uuidAt _ _).2, uuid.2]) fun k hk => ?_)
  rw [(uuidAt _ _).2] at hk
  rw [byteAt_uuidAt hk, byteAt_splice_of_mem (by omega) (by rw [uuid.2]; omega) (by omega),
    Nat.add_sub_cancel_left]

lemma uuidAt_splice_of_disjoint (h : o + 16 ≤ off ∨ off + data.length ≤ o) :
    uuidAt (splice b off data) o = uuidAt b o :=
  uuidAt_congr fun _ hk => byteAt_splice_of_not_mem (by omega)

/-- The bytes of a `u32` are told by its value. -/
lemma byteAt_eq_of_be32_eq (h : be32 b o = be32 c o) {k : ℕ} (hk : k < 4) :
    byteAt b (o + k) = byteAt c (o + k) := by
  have hlt : ∀ (b : Buf) i, (byteAt b i).toNat < 256 := fun b i => (byteAt b i).toNat_lt
  have hb := fun i => hlt b (o + i)
  have hc := fun i => hlt c (o + i)
  have hb₀ := hlt b o
  have hc₀ := hlt c o
  have hb₁ := hb 1
  have hc₁ := hc 1
  have hb₂ := hb 2
  have hc₂ := hc 2
  have hb₃ := hb 3
  have hc₃ := hc 3
  simp only [be32, be16, Nat.add_assoc, Nat.reduceAdd] at h
  refine UInt8.toNat_inj.1 ?_
  have hk' : k = 0 ∨ k = 1 ∨ k = 2 ∨ k = 3 := by omega
  rcases hk' with rfl | rfl | rfl | rfl
  · rw [Nat.add_zero]
    omega
  · omega
  · omega
  · omega

end Fields

/-! ### The feature -/

/-- `META_UUID` is set: `sb_meta_uuid` is the metadata's UUID. -/
def HasMeta (b : Buf) : Prop := be32 b Off.featuresIncompat &&& Version.inMetaUuid ≠ 0

instance (b : Buf) : Decidable (HasMeta b) := inferInstanceAs (Decidable (_ ≠ _))

/-- The UUID of a field that is not used. -/
def zeroUuid : Uuid := ⟨List.replicate 16 0, rfl⟩

/-- The UUID of the metadata, as the superblock has it. -/
def metaOf (b : Buf) : Uuid := if HasMeta b then uuidAt b Off.metaUuid else uuidAt b Off.uuid

lemma Fs.metaUuid_eq (fs : Fs) : fs.metaUuid = metaOf fs.primary := rfl

lemma and_meta_ne_zero {x : ℕ} : x &&& Version.inMetaUuid ≠ 0 ↔ x.testBit 2 = true := by
  have hbit : ∀ j, (x &&& Version.inMetaUuid).testBit j = (x.testBit j && decide (2 = j)) :=
    fun j => by
      have hpow : Version.inMetaUuid = 2 ^ 2 := rfl
      rw [hpow, Nat.testBit_and, Nat.testBit_two_pow]
  constructor
  · intro hne
    by_contra hclear
    rw [Bool.not_eq_true] at hclear
    refine hne (Nat.eq_of_testBit_eq fun j => ?_)
    rw [hbit, Nat.zero_testBit]
    by_cases hj : 2 = j
    · rw [← hj, hclear, Bool.false_and]
    · rw [decide_eq_false hj, Bool.and_false]
  · intro hset hzero
    have htwo := hbit 2
    rw [hzero, hset, Nat.zero_testBit] at htwo
    cases htwo

lemma or_meta_of_testBit {x : ℕ} (h : x.testBit 2 = true) : x ||| Version.inMetaUuid = x := by
  have hpow : Version.inMetaUuid = 2 ^ 2 := rfl
  refine Nat.eq_of_testBit_eq fun j => ?_
  rw [hpow, Nat.testBit_or, Nat.testBit_two_pow]
  by_cases hj : 2 = j
  · rw [← hj, h, Bool.true_or]
  · rw [decide_eq_false hj, Bool.or_false]

lemma testBit_clear {x j : ℕ} (hx : x < 2 ^ 32) :
    (x &&& (2 ^ 32 - 1 - Version.inMetaUuid)).testBit j = (x.testBit j && !decide (2 = j)) := by
  have hclear : 2 ^ 32 - 1 - Version.inMetaUuid = 2 ^ 32 - (2 ^ 2 + 1) := rfl
  rw [Nat.testBit_and, hclear, Nat.testBit_two_pow_sub_succ (by decide), Nat.testBit_two_pow]
  rcases Nat.lt_or_ge j 32 with hj | hj
  · rw [decide_eq_true hj, Bool.true_and]
  · rw [Nat.testBit_lt_two_pow (hx.trans_le (Nat.pow_le_pow_right (by omega) hj))]
    rfl

lemma clear_meta_of_testBit {x : ℕ} (hx : x < 2 ^ 32) (h : x.testBit 2 = false) :
    x &&& (2 ^ 32 - 1 - Version.inMetaUuid) = x := by
  refine Nat.eq_of_testBit_eq fun j => ?_
  rw [testBit_clear hx]
  by_cases hj : 2 = j
  · rw [← hj, h, Bool.false_and]
  · rw [decide_eq_false hj, Bool.not_false, Bool.and_true]

/-! ### A change of the UUID -/

/-- The metadata's UUID is `m`, and a `sb_meta_uuid` that is not used is zero. -/
structure Carries (m : Uuid) (b : Buf) : Prop where
  of_meta : HasMeta b → uuidAt b Off.metaUuid = m
  of_none : ¬ HasMeta b → uuidAt b Off.uuid = m ∧ uuidAt b Off.metaUuid = zeroUuid

section Change

variable {m uuid uuid' : Uuid} {b : Buf} {i : ℕ}

/-- A change of the UUID leaves what is neither a UUID nor the features. -/
lemma byteAt_withUuid (huuid : i < Off.uuid ∨ Off.uuid + 16 ≤ i)
    (hfeat : i < Off.featuresIncompat ∨ Off.featuresIncompat + 4 ≤ i)
    (hmeta : i < Off.metaUuid ∨ Off.metaUuid + 16 ≤ i) :
    byteAt (withUuid uuid m b) i = byteAt b i := by
  rw [withUuid_eq]
  exact byteAt_uuidEdit huuid hfeat hmeta

/-- The UUID is the new one. -/
lemma uuidAt_withUuid (h : Off.past ≤ b.length) : uuidAt (withUuid uuid m b) Off.uuid = uuid := by
  have hroom : Off.uuid + 16 ≤ b.length := (by decide : Off.uuid + 16 ≤ Off.past).trans h
  rw [withUuid_eq, uuidEdit]
  split_ifs
  · exact uuidAt_splice_self (by rwa [length_put32, length_splice])
  · exact uuidAt_splice_self (by rwa [length_put32, length_splice])
  · exact uuidAt_splice_self (by rwa [length_put32])

/-- `sb_meta_uuid` behind the feature and the new UUID. -/
lemma uuidAt_uuidEdit_meta {incompat : ℕ} {old : Uuid} :
    uuidAt (uuidEdit uuid m incompat old b) Off.metaUuid =
      uuidAt (if decide (incompat &&& Version.inMetaUuid ≠ 0) = false ∧ uuid ≠ m then
        splice b Off.metaUuid old.1
      else if decide (incompat &&& Version.inMetaUuid ≠ 0) = true ∧ uuid = m then
        splice b Off.metaUuid (List.replicate 16 0) else b) Off.metaUuid := by
  have huuid : ∀ b : Buf, uuidAt (splice b Off.uuid uuid.1) Off.metaUuid =
      uuidAt b Off.metaUuid := fun b => uuidAt_splice_of_disjoint (.inr (by
    rw [uuid.2]
    decide))
  have hfeat : ∀ (b : Buf) v, uuidAt (put32 b Off.featuresIncompat v) Off.metaUuid =
      uuidAt b Off.metaUuid := fun b v => uuidAt_splice_of_disjoint (.inr (by
    rw [length_toBeBytes]
    decide))
  rw [uuidEdit]
  split_ifs
  · rw [huuid, hfeat]
  · rw [huuid, hfeat]
  · rw [huuid, hfeat]

/-- The features after a change: `META_UUID` is set when the UUID is not the metadata's. -/
lemma be32_withUuid (hlen : Off.past ≤ b.length) :
    be32 (withUuid uuid m b) Off.featuresIncompat =
      if uuid = m then be32 b Off.featuresIncompat &&& (2 ^ 32 - 1 - Version.inMetaUuid)
      else be32 b Off.featuresIncompat ||| Version.inMetaUuid := by
  rw [withUuid_eq, be32_uuidEdit ((by decide : Off.featuresIncompat + 4 ≤ Off.past).trans hlen)
    be32_lt]
  have hbit := @and_meta_ne_zero (be32 b Off.featuresIncompat)
  by_cases hm : be32 b Off.featuresIncompat &&& Version.inMetaUuid ≠ 0
  · rw [decide_eq_true hm]
    by_cases hu : uuid = m
    · rw [if_neg (by simp), if_pos ⟨rfl, hu⟩, if_pos hu]
    · rw [if_neg (by simp), if_neg fun hand => hu hand.2, if_neg hu,
        or_meta_of_testBit (hbit.1 hm)]
  · have hclear : (be32 b Off.featuresIncompat).testBit 2 = false := by
      rw [← Bool.not_eq_true, ← hbit]
      exact hm
    rw [decide_eq_false hm]
    by_cases hu : uuid = m
    · rw [if_neg fun hand => hand.2 hu, if_neg (by simp), if_pos hu,
        clear_meta_of_testBit be32_lt hclear]
    · rw [if_pos ⟨rfl, hu⟩, if_neg hu]

lemma hasMeta_withUuid (hlen : Off.past ≤ b.length) :
    HasMeta (withUuid uuid m b) ↔ uuid ≠ m := by
  rw [HasMeta, be32_withUuid hlen, and_meta_ne_zero]
  split_ifs with hu
  · rw [testBit_clear be32_lt, decide_eq_true rfl]
    simp [hu]
  · have hbit : Version.inMetaUuid.testBit 2 = true := rfl
    rw [Nat.testBit_or, hbit, Bool.or_true]
    simp [hu]

namespace Carries

/-- `sb_meta_uuid` after a change. -/
lemma metaUuid_withUuid (h : Carries m b) (hlen : Off.past ≤ b.length) :
    uuidAt (MkfsXfs.withUuid uuid m b) Off.metaUuid = if uuid = m then zeroUuid else m := by
  have hroom : Off.metaUuid + 16 ≤ b.length := (by decide : _ ≤ Off.past).trans hlen
  have hself : ∀ u : Uuid, uuidAt (splice b Off.metaUuid u.1) Off.metaUuid = u := fun u =>
    uuidAt_splice_self hroom
  rw [withUuid_eq, uuidAt_uuidEdit_meta]
  by_cases hm : HasMeta b
  · have hdec : decide (be32 b Off.featuresIncompat &&& Version.inMetaUuid ≠ 0) = true :=
      decide_eq_true hm
    rw [hdec]
    by_cases hu : uuid = m
    · rw [if_neg (by simp), if_pos ⟨rfl, hu⟩, if_pos hu]
      exact hself zeroUuid
    · rw [if_neg (by simp), if_neg fun hand => hu hand.2, if_neg hu, h.of_meta hm]
  · have hdec : decide (be32 b Off.featuresIncompat &&& Version.inMetaUuid ≠ 0) = false :=
      decide_eq_false hm
    rw [hdec]
    by_cases hu : uuid = m
    · rw [if_neg fun hand => hand.2 hu, if_neg (by simp), if_pos hu, (h.of_none hm).2]
    · rw [if_pos ⟨rfl, hu⟩, if_neg hu, hself, (h.of_none hm).1]

/-- **A change keeps the metadata's UUID.** -/
lemma withUuid (h : Carries m b) (hlen : Off.past ≤ b.length) :
    Carries m (MkfsXfs.withUuid uuid m b) where
  of_meta hm := by
    rw [h.metaUuid_withUuid hlen, if_neg ((hasMeta_withUuid hlen).1 hm)]
  of_none hm := by
    rw [hasMeta_withUuid hlen, not_not] at hm
    rw [uuidAt_withUuid hlen, h.metaUuid_withUuid hlen, if_pos hm]
    exact ⟨hm, rfl⟩

/-- **Of two changes the second stays.** -/
lemma withUuid_withUuid (h : Carries m b) (hlen : Off.past ≤ b.length) :
    MkfsXfs.withUuid uuid' m (MkfsXfs.withUuid uuid m b) = MkfsXfs.withUuid uuid' m b := by
  have hlen' : Off.past ≤ (MkfsXfs.withUuid uuid m b).length := by rwa [length_withUuid]
  have hc : Carries m (MkfsXfs.withUuid uuid m b) := h.withUuid hlen
  have hfeatures : be32 (MkfsXfs.withUuid uuid' m (MkfsXfs.withUuid uuid m b))
      Off.featuresIncompat = be32 (MkfsXfs.withUuid uuid' m b) Off.featuresIncompat := by
    rw [be32_withUuid hlen', be32_withUuid hlen, be32_withUuid hlen]
    split_ifs
    · rw [Nat.and_assoc, Nat.and_self]
    · refine Nat.eq_of_testBit_eq fun j => ?_
      rw [testBit_clear (Nat.or_lt_two_pow be32_lt (by decide)), testBit_clear be32_lt]
      by_cases hj : 2 = j
      · rw [decide_eq_true hj, Bool.not_true, Bool.and_false, Bool.and_false]
      · have hpow : Version.inMetaUuid = 2 ^ 2 := rfl
        rw [Nat.testBit_or, hpow, Nat.testBit_two_pow, decide_eq_false hj, Bool.or_false]
    · exact and_clear_or be32_lt (by decide)
    · rw [Nat.or_assoc, Nat.or_self]
  refine Buf.ext (by rw [length_withUuid, length_withUuid, length_withUuid]) fun i _ => ?_
  by_cases hu : Off.uuid ≤ i ∧ i < Off.uuid + 16
  · exact byteAt_eq_of_uuidAt_eq (by rw [uuidAt_withUuid hlen', uuidAt_withUuid hlen]) hu
  by_cases hm : Off.metaUuid ≤ i ∧ i < Off.metaUuid + 16
  · exact byteAt_eq_of_uuidAt_eq
      (by rw [hc.metaUuid_withUuid hlen', h.metaUuid_withUuid hlen]) hm
  by_cases hf : Off.featuresIncompat ≤ i ∧ i < Off.featuresIncompat + 4
  · have hbyte := byteAt_eq_of_be32_eq hfeatures (k := i - Off.featuresIncompat) (by omega)
    rwa [Nat.add_sub_cancel' hf.1] at hbyte
  · rw [byteAt_withUuid (by omega) (by omega) (by omega),
      byteAt_withUuid (by omega) (by omega) (by omega),
      byteAt_withUuid (by omega) (by omega) (by omega)]

end Carries

end Change

/-! ### Written back -/

section Written

variable {m : Uuid} {b : Buf} {g : Geo} {f : Buf → Buf}

lemma uuidAt_sbToDisk {o : ℕ} (hu : o + 16 ≤ Off.uquotino ∨ Off.gquotino + 8 ≤ o)
    (hf : o + 16 ≤ Off.badFeatures2 ∨ Off.badFeatures2 + 4 ≤ o)
    (hc : o + 16 ≤ Off.crc ∨ Off.crc + 4 ≤ o) (hp : o + 16 ≤ Off.pquotino ∨ Off.pquotino + 8 ≤ o) :
    uuidAt (Fs.sbToDisk g b) o = uuidAt b o := uuidAt_congr fun k hk => by
  rw [(Fs.sbToDisk_same g b).2 _ (by omega)]
  exact Fs.byteAt_sbNormal (by omega) (by omega) (by omega)

@[simp] lemma uuidAt_sbToDisk_uuid : uuidAt (Fs.sbToDisk g b) Off.uuid = uuidAt b Off.uuid :=
  uuidAt_sbToDisk (by decide) (by decide) (by decide) (by decide)

@[simp] lemma uuidAt_sbToDisk_metaUuid :
    uuidAt (Fs.sbToDisk g b) Off.metaUuid = uuidAt b Off.metaUuid :=
  uuidAt_sbToDisk (by decide) (by decide) (by decide) (by decide)

@[simp] lemma hasMeta_sbToDisk : HasMeta (Fs.sbToDisk g b) ↔ HasMeta b := by
  rw [HasMeta, be32_sbToDisk_features, HasMeta]

/-- Writing a superblock back keeps its UUIDs. -/
lemma Carries.sbToDisk (h : Carries m b) : Carries m (Fs.sbToDisk g b) where
  of_meta hm := by
    rw [uuidAt_sbToDisk_metaUuid]
    exact h.of_meta (hasMeta_sbToDisk.1 hm)
  of_none hm := by
    rw [uuidAt_sbToDisk_uuid, uuidAt_sbToDisk_metaUuid]
    exact h.of_none fun hm' => hm (hasMeta_sbToDisk.2 hm')

lemma Carries.metaOf_eq (h : Carries m b) : metaOf b = m := by
  rw [metaOf]
  split_ifs with hm
  · exact h.of_meta hm
  · exact (h.of_none hm).1

end Written

end MkfsXfs
