import MkfsXfs.Crc
import MkfsXfs.Lib.Register

/-!
What the checksum catches (`src/crc.rs`).

* `registerTable`: the CRC's table as one of a register of four bytes; `toNat_update` is the
  link to the code.
* `cksum_ne_of_window`: four consecutive bytes on one side of the checksum's field change the
  checksum.
* `stamp_detects`: a stamped buffer verifies, and does not after such a change.
-/

namespace MkfsXfs.Crc

/-! ### The table -/

lemma table_getD {i : ℕ} (h : i < 256) : table.getD i 0 = tableEntry i := by
  rw [table, List.getD_eq_getElem?_getD, List.getElem?_map, List.getElem?_range h]
  rfl

/-- The top bytes of the table's entries. -/
lemma tops_nodup : ((List.range 256).map fun i => (tableEntry i).toNat >>> 24).Nodup := by
  decide +kernel

/-- The table of the CRC drives a register of four bytes. -/
def registerTable : Register.Table 4 where
  entry i := (tableEntry i).toNat
  pos := by norm_num
  entry_lt i _ := (tableEntry i).toNat_lt
  top_injective i hi j hj h :=
    List.inj_on_of_nodup_map tops_nodup (List.mem_range.2 hi) (List.mem_range.2 hj) h

variable {buf buf' data l l' : Buf} {off p n : ℕ} {c : UInt32}

/-- The bytes of a buffer as numbers. -/
def nats (b : Buf) : List ℕ := b.map UInt8.toNat

lemma lt_of_mem_nats {b : ℕ} (h : b ∈ nats l) : b < 256 := by
  obtain ⟨x, -, rfl⟩ := List.mem_map.1 h
  exact x.toNat_lt

lemma nats_injective (h : nats l = nats l') : l = l' :=
  List.map_injective_iff.2 (fun _ _ hxy => UInt8.toNat_inj.1 hxy) h

/-- **The running checksum is the register.** -/
lemma toNat_update : (update c l).toNat = registerTable.run c.toNat (nats l) := by
  induction l generalizing c with
  | nil => rfl
  | cons b l ih =>
      have hindex : ((c ^^^ b.toUInt32) &&& 0xff).toNat = (c.toNat ^^^ b.toNat) % 256 := by
        rw [UInt32.toNat_and, UInt32.toNat_xor, UInt8.toNat_toUInt32]
        exact Nat.and_two_pow_sub_one_eq_mod _ 8
      have hstep : (table.getD ((c ^^^ b.toUInt32) &&& 0xff).toNat 0 ^^^ (c >>> 8)).toNat =
          registerTable.step c.toNat b.toNat := by
        rw [hindex, table_getD (Nat.mod_lt _ (by norm_num)), UInt32.toNat_xor,
          UInt32.toNat_shiftRight]
        rfl
      calc (update c (b :: l)).toNat
          = registerTable.run (table.getD ((c ^^^ b.toUInt32) &&& 0xff).toNat 0 ^^^
              (c >>> 8)).toNat (nats l) := ih
        _ = registerTable.run c.toNat (nats (b :: l)) := by rw [hstep]; rfl

/-- For fixed data the running checksum at the end tells the one at the start. -/
lemma update_injective {c' : UInt32} (h : update c l = update c' l) : c = c' := by
  have hrun := congrArg UInt32.toNat h
  rw [toNat_update, toNat_update] at hrun
  exact UInt32.toNat_inj.1 (Register.Table.run_injective c.toNat_lt c'.toNat_lt hrun)

/-- Buffers that differ in at most four consecutive bytes have different checksums. -/
lemma update_window (hlen : l.length = l'.length) (hn : n ≤ 4) (hpre : l.take p = l'.take p)
    (hsuf : l.drop (p + n) = l'.drop (p + n)) (h : update c l = update c l') : l = l' := by
  have hrun := congrArg UInt32.toNat h
  rw [toNat_update, toNat_update] at hrun
  refine nats_injective (Register.Table.run_window (p := p) (n := n) (by simpa [nats] using hlen)
    (fun _ => lt_of_mem_nats) (fun _ => lt_of_mem_nats) c.toNat_lt hn ?_ ?_ hrun)
  · rw [nats, nats, ← List.map_take, ← List.map_take, hpre]
  · rw [nats, nats, ← List.map_drop, ← List.map_drop, hsuf]

/-! ### Changes -/

/-- The buffers agree outside the bytes from `lo` to `hi`. -/
def ChangedWithin (b b' : Buf) (lo hi : ℕ) : Prop := ∀ i, (i < lo ∨ hi ≤ i) → byteAt b' i = byteAt b i

lemma ChangedWithin.take (h : ChangedWithin buf buf' p n) (hlen : buf'.length = buf.length) :
    buf'.take p = buf.take p := by
  refine Buf.ext (by rw [List.length_take, List.length_take, hlen]) fun i hi => ?_
  rw [List.length_take] at hi
  rw [byteAt_take (by omega), byteAt_take (by omega), h i (.inl (by omega))]

lemma ChangedWithin.drop (h : ChangedWithin buf buf' p n) (hlen : buf'.length = buf.length) :
    buf'.drop n = buf.drop n := by
  refine Buf.ext (by rw [List.length_drop, List.length_drop, hlen]) fun i _ => ?_
  rw [byteAt_drop, byteAt_drop, h _ (.inr (by omega))]

/-- The slice of a buffer before a point changes within the same bytes, those past it left out. -/
lemma ChangedWithin.take_window (h : ChangedWithin buf buf' p n) (off : ℕ) :
    ChangedWithin (buf.take off) (buf'.take off) p n := fun i hi => by
  rcases Nat.lt_or_ge i off with hlt | hge
  · rw [byteAt_take hlt, byteAt_take hlt, h i hi]
  · rw [byteAt_of_le (by rw [List.length_take]; omega),
      byteAt_of_le (by rw [List.length_take]; omega)]

/-- A checksum tells a change of at most four consecutive bytes. -/
lemma update_changed (hlen : buf'.length = buf.length) (h : ChangedWithin buf buf' p (p + 4))
    (heq : update c buf' = update c buf) : buf' = buf :=
  update_window hlen le_rfl (h.take hlen) (h.drop hlen) heq

/-- A change before the field changes the checksum. -/
lemma cksum_ne_of_before (hlen : buf'.length = buf.length) (hne : buf' ≠ buf)
    (h : ChangedWithin buf buf' p (p + 4)) (hbefore : ChangedWithin buf buf' 0 off) :
    cksum buf' off ≠ cksum buf off := by
  intro heq
  have hdrop : buf'.drop off = buf.drop off := hbefore.drop hlen
  have hrest : buf'.drop (off + 4) = buf.drop (off + 4) := by
    rw [← List.drop_drop, ← List.drop_drop, hdrop]
  rw [cksum, cksum, hrest] at heq
  have hzeros := update_injective (UInt32.not_inj.1 heq)
  have hstart := update_injective hzeros
  have htake : buf'.take off = buf.take off :=
    update_changed (by rw [List.length_take, List.length_take, hlen]) (h.take_window off) hstart
  apply hne
  rw [← List.take_append_drop off buf', htake, hdrop, List.take_append_drop]

/-- A change after the field changes the checksum. -/
lemma cksum_ne_of_after (hlen : buf'.length = buf.length) (hne : buf' ≠ buf)
    (h : ChangedWithin buf buf' p (p + 4))
    (hafter : ChangedWithin buf buf' (off + 4) buf.length) : cksum buf' off ≠ cksum buf off := by
  intro heq
  have htake : buf'.take (off + 4) = buf.take (off + 4) := hafter.take hlen
  have hfirst : buf'.take off = buf.take off := by
    have hcut : ∀ b : Buf, b.take off = (b.take (off + 4)).take off := fun b => by
      rw [List.take_take, Nat.min_eq_left (by omega)]
    rw [hcut buf', hcut buf, htake]
  rw [cksum, cksum, hfirst] at heq
  have hend : buf'.drop (off + 4) = buf.drop (off + 4) := by
    refine update_changed (p := p - (off + 4)) (by rw [List.length_drop, List.length_drop, hlen])
      (fun i hi => ?_) (UInt32.not_inj.1 heq)
    rw [byteAt_drop, byteAt_drop]
    exact h _ (by omega)
  apply hne
  rw [← List.take_append_drop (off + 4) buf', htake, hend, List.take_append_drop]

/-- A little-endian word tells its four bytes. -/
lemma byteAt_of_le32 {o : ℕ} (h : le32 buf' o = le32 buf o) :
    ∀ i, o ≤ i → i < o + 4 → byteAt buf' i = byteAt buf i := by
  have hlt : ∀ (b : Buf) (i : ℕ), (byteAt b i).toNat < 256 := fun b i => (byteAt b i).toNat_lt
  rw [le32, le32] at h
  have h0 := hlt buf o
  have h1 := hlt buf (o + 1)
  have h2 := hlt buf (o + 2)
  have h3 := hlt buf (o + 3)
  have h0' := hlt buf' o
  have h1' := hlt buf' (o + 1)
  have h2' := hlt buf' (o + 2)
  have h3' := hlt buf' (o + 3)
  intro i hlo hhi
  refine UInt8.toNat_inj.1 ?_
  obtain rfl | rfl | rfl | rfl : i = o ∨ i = o + 1 ∨ i = o + 2 ∨ i = o + 3 := by omega
  all_goals omega

/-- A change inside the field changes the stored checksum, and leaves the computed one. -/
lemma field_ne_of_inside (hlen : buf'.length = buf.length) (hne : buf' ≠ buf)
    (hinside : ChangedWithin buf buf' off (off + 4)) :
    le32 buf' off ≠ le32 buf off ∧ cksum buf' off = cksum buf off := by
  refine ⟨fun heq => hne (Buf.ext hlen fun i _ => ?_), ?_⟩
  · rcases Nat.lt_or_ge i off with hlt | hge
    · exact hinside i (.inl hlt)
    rcases Nat.lt_or_ge i (off + 4) with hlt' | hge'
    · exact byteAt_of_le32 heq i hge hlt'
    · exact hinside i (.inr hge')
  · rw [cksum, cksum, hinside.take hlen, hinside.drop hlen]

/-! ### Detection -/

lemma verify_eq_true : verify buf off = true ↔
    off + 4 ≤ buf.length ∧ le32 buf off = (cksum buf off).toNat := by
  rw [verify, Bool.and_eq_true, decide_eq_true_eq, decide_eq_true_eq]

/-- A buffer that verifies does not after its checksum changes and its field does not. -/
lemma verify_eq_false_of_cksum (hv : verify buf off = true) (hfield : le32 buf' off = le32 buf off)
    (h : cksum buf' off ≠ cksum buf off) : verify buf' off = false := by
  rw [← Bool.not_eq_true, verify_eq_true]
  rintro ⟨-, hstored⟩
  rw [hfield, (verify_eq_true.1 hv).2] at hstored
  exact h (UInt32.toNat_inj.1 hstored.symm)

/-- **A stamped buffer verifies, and only its field has changed; after a change of at most four
consecutive bytes before the field, inside it or after it, it does not verify.** -/
theorem stamp_detects (buf : Buf) (off : ℕ) (h : off + 4 ≤ buf.length) :
    verify (stamp buf off) off = true ∧ (stamp buf off).length = buf.length ∧
      ChangedWithin buf (stamp buf off) off (off + 4) ∧
      ∀ (buf' : Buf) (p : ℕ), buf'.length = buf.length → buf' ≠ stamp buf off →
        ChangedWithin (stamp buf off) buf' p (p + 4) →
        (ChangedWithin (stamp buf off) buf' 0 off ∨
          ChangedWithin (stamp buf off) buf' off (off + 4) ∨
          ChangedWithin (stamp buf off) buf' (off + 4) buf.length) →
        verify buf' off = false := by
  have hv := verify_stamp h
  have hsame : ChangedWithin buf (stamp buf off) off (off + 4) := fun i hi => by
    rw [stamp_eq_splice, byteAt_splice_of_not_mem (by simpa using hi)]
  refine ⟨hv, length_stamp, hsame, fun buf' p hlen hne hwindow hplace => ?_⟩
  have hlen' : buf'.length = (stamp buf off).length := hlen.trans length_stamp.symm
  rcases hplace with hbefore | hinside | hafter
  · refine verify_eq_false_of_cksum hv ?_ (cksum_ne_of_before hlen' hne hwindow hbefore)
    exact le32_congr fun k _ => hbefore _ (.inr (by omega))
  · obtain ⟨hfield, hck⟩ := field_ne_of_inside hlen' hne hinside
    rw [← Bool.not_eq_true, verify_eq_true, hck, ← (verify_eq_true.1 hv).2]
    exact fun hstored => hfield hstored.2
  · have hlast : (stamp buf off).length = buf.length := length_stamp
    rw [← hlast] at hafter
    refine verify_eq_false_of_cksum hv ?_ (cksum_ne_of_after hlen' hne hwindow hafter)
    exact le32_congr fun k hk => hafter _ (.inl (by omega))

/-- One bad byte of a stamped sector is caught. -/
theorem stamp_detects_sector :
    verify (stamp (List.replicate 512 7) 8) 8 = true ∧
      verify (splice (stamp (List.replicate 512 7) 8) 20 [6]) 8 = false := by
  have hlen : 8 + 4 ≤ (List.replicate 512 (7 : UInt8)).length := by
    rw [List.length_replicate]
    norm_num
  obtain ⟨hv, hlen', -, hdetect⟩ := stamp_detects (List.replicate 512 7) 8 hlen
  have hchange : ∀ lo hi, lo ≤ 20 → 21 ≤ hi → ChangedWithin (stamp (List.replicate 512 7) 8)
      (splice (stamp (List.replicate 512 7) 8) 20 [6]) lo hi := fun lo hi hlo hhi i hi' =>
    byteAt_splice_of_not_mem (by rw [List.length_singleton]; omega)
  refine ⟨hv, hdetect _ 20 (by rw [length_splice, hlen']) (fun heq => ?_)
    (hchange _ _ (by norm_num) (by norm_num))
    (.inr (.inr (hchange _ _ (by norm_num) (by rw [List.length_replicate]; norm_num))))⟩
  have hbyte : byteAt _ 20 = byteAt _ 20 := congrArg (byteAt · 20) heq
  have hread : byteAt (stamp (List.replicate 512 7) 8) 20 = 7 := by
    rw [stamp_eq_splice, byteAt_splice_of_not_mem (.inr (by rw [length_toLeBytes]; norm_num)),
      byteAt, List.getElem?_replicate, if_pos (by norm_num)]
    rfl
  rw [hread, byteAt_splice_of_mem (by norm_num) (by simp)
    (by rw [hlen', List.length_replicate]; norm_num)] at hbyte
  exact absurd hbyte (by decide)

end MkfsXfs.Crc
