import MkfsXfs.Admin.Resumed

/-!
A log clear that runs past the log's end, over the superblock of the next AG (`Fs::clear_log` in
`src/admin.rs`).

* `blockOf_record_zero`, `blockOf_record_of_lt`: the blocks of a log record in full.
* `blockOf_clearStream`: the blocks a clear leaves past its first record.
* `fsOver`: a filesystem whose stripe unit of the log is longer than a record, and a UUID under
  which the two blocks left in the place of its second superblock are a superblock.
-/

namespace MkfsXfs

open Checked

/-! ### The blocks of a record -/

/-- The first bytes of a spliced buffer. -/
lemma take_splice {b data : Buf} {off n : ℕ} :
    (splice b off data).take n = splice (b.take n) off data := by
  refine Buf.ext (by simp) fun i hi => ?_
  obtain ⟨hn, hb⟩ : i < n ∧ i < b.length := by simpa using hi
  have htake : i < (b.take n).length := by simpa using ⟨hn, hb⟩
  rw [byteAt_take hn]
  by_cases hin : off ≤ i ∧ i < off + data.length
  · rw [byteAt_splice_of_mem hin.1 hin.2 hb, byteAt_splice_of_mem hin.1 hin.2 htake]
  · rw [byteAt_splice_of_not_mem (by omega), byteAt_splice_of_not_mem (by omega), byteAt_take hn]

namespace Log

variable {uuid : Uuid} {sunit l t i j : ℕ}

lemma take_putHeader {rec : Buf} {n : ℕ} : (putHeader rec uuid sunit l t).take n =
    putHeader (rec.take n) uuid sunit l t := by
  simp only [putHeader, put32, put64, take_splice]

/-- The header stays in its block. -/
lemma byteAt_putHeader {rec : Buf} {o : ℕ} (h : bbsize ≤ o) :
    byteAt (putHeader rec uuid sunit l t) o = byteAt rec o := by
  have h32 : ∀ (b : Buf) (k v : ℕ), k + 4 ≤ bbsize → byteAt (put32 b k v) o = byteAt b o :=
    fun b k v hk => byteAt_put32_of_disjoint (.inr (by omega))
  have h64 : ∀ (b : Buf) (k v : ℕ), k + 8 ≤ bbsize → byteAt (put64 b k v) o = byteAt b o :=
    fun b k v hk => byteAt_splice_of_not_mem (.inr (by rw [length_toBeBytes]; omega))
  have huuid : ∀ b : Buf, byteAt (splice b Off.fsUuid uuid.1) o = byteAt b o := fun b =>
    byteAt_splice_of_not_mem (.inr (by rw [uuid.2]; exact (by decide : _ ≤ bbsize).trans h))
  simp only [putHeader]
  rw [h32 _ _ _ (by decide), huuid, h64 _ _ _ (by decide), h64 _ _ _ (by decide),
    h32 _ _ _ (by decide), h32 _ _ _ (by decide), h32 _ _ _ (by decide), h32 _ _ _ (by decide),
    h32 _ _ _ (by decide), h32 _ _ _ (by decide), h32 _ _ _ (by decide), h32 _ _ _ (by decide)]

/-- The header of a record fills its first block, with the word that the unmount record lost. -/
lemma blockOf_record_zero : blockOf (record uuid sunit l t) 0 =
    put32 (putHeader zeroBlock uuid sunit l t) Off.cycleData unmountTid := by
  have hlong : bbsize ≤ recordLen sunit * bbsize :=
    Nat.le_mul_of_pos_left _ (by have := two_le_recordLen sunit; omega)
  have hu := bbsize_le_unmount sunit
  have hend : recordHdrs sunit * bbsize + bbsize ≤ recordLen sunit * bbsize := by
    rw [← Nat.succ_mul]
    exact Nat.mul_le_mul_right _ (recordHdrs_lt_recordLen sunit)
  have hcd : Off.cycleData + 4 ≤ bbsize := by decide
  have hbb : 14 ≤ bbsize := by decide
  refine Buf.ext ?_ fun i hi => ?_
  · rw [length_blockOf (by rw [length_record]; omega), length_put32, length_putHeader, zeroBlock,
      List.length_replicate]
  · have hi' : i < bbsize := by rwa [length_blockOf (by rw [length_record]; omega)] at hi
    rw [byteAt_blockOf hi', Nat.zero_mul, Nat.zero_add]
    by_cases hc : Off.cycleData ≤ i ∧ i < Off.cycleData + 4
    · have hword : be32 (record uuid sunit l t) Off.cycleData =
          be32 (put32 (putHeader zeroBlock uuid sunit l t) Off.cycleData unmountTid)
            Off.cycleData := by
        rw [be32_put32 (by rw [length_putHeader, zeroBlock, List.length_replicate]; omega)
          (by decide), record]
        rw [be32_stampBlocks_of_disjoint fun j hj _ => .inl
            (hcd.trans (Nat.le_mul_of_pos_left _ (by omega))),
          be32_put32_of_disjoint (.inl (by omega)), be32_put32 (by simp; omega) be32_lt, putUnmount]
        rw [be32_splice_of_disjoint (.inl (by simp)), be32_splice_of_disjoint (.inl (by omega)),
          be32_splice_of_disjoint (.inl (by omega)), be32_put32_of_disjoint (.inl (by omega)),
          be32_put32 (by simp; omega) (by decide)]
      have hbyte := @byteAt_eq_of_be32_eq _ _ _ hword (i - Off.cycleData) (by omega)
      rwa [Nat.add_sub_cancel' hc.1] at hbyte
    · rw [byteAt_record hi' (by omega), byteAt_put32_of_disjoint (by omega), ← byteAt_take hi',
        take_putHeader, List.take_replicate, min_eq_left hlong, zeroBlock]

/-- Past the unmount record a block carries the cycle and nothing else. -/
lemma blockOf_record_of_lt (hl : l < 2 ^ 64) (hj : recordHdrs sunit < j)
    (hlen : j < recordLen sunit) :
    blockOf (record uuid sunit l t) j = put32 zeroBlock 0 (l >>> 32) := by
  have hblock : (j + 1) * bbsize ≤ recordLen sunit * bbsize := Nat.mul_le_mul_right _ hlen
  have hhdrs : (recordHdrs sunit + 1) * bbsize ≤ j * bbsize := Nat.mul_le_mul_right _ hj
  rw [Nat.succ_mul] at hblock hhdrs
  have hu := bbsize_le_unmount sunit
  have hcycle : l >>> 32 < 2 ^ 32 := by rw [Nat.shiftRight_eq_div_pow]; omega
  refine Buf.ext ?_ fun i hi => ?_
  · rw [length_blockOf (by rw [length_record, Nat.succ_mul]; omega), length_put32, zeroBlock,
      List.length_replicate]
  · have hi' : i < bbsize := by
      rwa [length_blockOf (by rw [length_record, Nat.succ_mul]; omega)] at hi
    rw [byteAt_blockOf hi']
    rcases Nat.lt_or_ge i 4 with hword | hrest
    · have hwords : be32 (blockOf (record uuid sunit l t) j) 0 =
          be32 (put32 zeroBlock 0 (l >>> 32)) 0 := by
        rw [be32_blockOf (by decide), Nat.add_zero, record_stamped hl (by omega) hlen,
          be32_put32 (by rw [zeroBlock, List.length_replicate]; decide) hcycle]
      have hbyte := byteAt_eq_of_be32_eq hwords hword
      rwa [Nat.zero_add, byteAt_blockOf hi'] at hbyte
    · have hfree : ∀ k, j * bbsize + i < k * bbsize ∨ k * bbsize + 4 ≤ j * bbsize + i := fun k => by
        rcases Nat.lt_or_ge j k with hk | hk
        · have hle : (j + 1) * bbsize ≤ k * bbsize := Nat.mul_le_mul_right _ hk
          rw [Nat.succ_mul] at hle
          omega
        · have hle : k * bbsize ≤ j * bbsize := Nat.mul_le_mul_right _ hk
          omega
      have hcd : Off.cycleData + 4 ≤ bbsize := by decide
      have hbb : 14 ≤ bbsize := by decide
      rw [byteAt_put32_of_disjoint (.inr hrest), record, byteAt_stampBlocks fun k _ _ => hfree k,
        byteAt_put32_of_disjoint (by omega), byteAt_put32_of_disjoint (by omega),
        byteAt_putUnmount (by omega), byteAt_stampBlocks fun k _ _ => hfree k,
        byteAt_putHeader (by omega), zeroBlock, byteAt_replicate_zero, byteAt_replicate_zero]

end Log
/-! ### The blocks of a clear -/

/-- Past the first record the clear leaves the chain, however long that record is. -/
lemma blockOf_clearStream {fs : Fs} {uuid : Uuid} {c n q : ℕ}
    (hfirst : 512 ≤ Fs.firstLen fs.geo.logsunit) (hn : n % 512 ≠ 1) (hq : q < n - 512) :
    blockOf (fs.clearStream uuid c n) (Fs.firstLen fs.geo.logsunit + q) =
      blockOf (Fs.fillRecord uuid (c - 1) (512 + q / 512 * 512)
        (min (n - 512 - q / 512 * 512) 512)) (q % 512) := by
  have hzero : 512 * bbsize - Fs.firstLen fs.geo.logsunit * bbsize = 0 :=
    Nat.sub_eq_zero_of_le (Nat.mul_le_mul_right _ hfirst)
  rw [Fs.clearStream]
  rw [length_firstRecord, hzero, List.replicate_zero, List.append_nil,
    blockOf_append_right length_firstRecord (Nat.le_add_right _ _), Nat.add_sub_cancel_left,
    recordsStream_block (by omega) hq]

/-- Two blocks side by side. -/
lemma take_drop_eq_blocks {b : Buf} {p : ℕ} :
    (b.drop (p * bbsize)).take (bbsize + bbsize) = blockOf b p ++ blockOf b (p + 1) := by
  rw [List.take_add, blockOf, blockOf, List.drop_drop, Nat.succ_mul]

/-! ### The filesystem -/

section Over

open Sb

/-- Two AGs of 2049 blocks of 1 KiB: the log fills the first from block 1 on, and is written in
units of 1025 basic blocks. -/
def geoOver : Geo where
  blocksize := 1024
  blocklog := 10
  sectsize := 1024
  agblocks := 2049
  agcount := 2
  dblocks := 4098
  agblklog := 12
  inodesize := 256
  inopblog := 2
  logstart := 1
  logblocks := 2048
  logsectsize := 0
  logsunit := 524800
  roCompat := 0
  incompat := 0

/-- Its device. -/
def devOver : Device := ⟨4196352, 512, by decide⟩

/-- Its superblock, without checksum. -/
def bareOver : Buf := bareSb geoOver ++ List.replicate 512 0

/-- Its superblock. -/
def sbOver : Buf := Crc.stamp bareOver Off.crc

lemma parse_bareOver : Geo.parse (bareSb geoOver) = .ok geoOver := by decide +kernel

/-- The filesystem. -/
def fsOver : Fs := ⟨geoOver, sbOver, Geo.parse_valid parse_bareOver⟩

lemma geoPlain_valid : { geoOver with logsunit := 1 }.Valid := by
  have h : Geo.parse (bareSb { geoOver with logsunit := 1 }) = .ok { geoOver with logsunit := 1 } := by
    decide +kernel
  exact Geo.parse_valid h

/-- The same filesystem with a log that is written block by block. -/
def fsPlain : Fs := ⟨{ geoOver with logsunit := 1 }, sbOver, geoPlain_valid⟩

/-- The disk: two superblocks, and between them a log cleared at the cycle before the one that
reads like a superblock's magic. -/
def diskOver : Disk :=
  ((Disk.blank.put 0 sbOver).put 2098176 sbOver).put 1024
    (fsPlain.cleared zeroUuid 0x58465342 4096)

/-- The UUID under which the checksum comes out. -/
def uuidOver : Uuid := ⟨[0, 0, 0, 0, 0, 0, 0, 0, 0, 0, 0, 0, 124, 52, 176, 218], rfl⟩

/-- What the clear leaves in the place of the second superblock: the end of a record, and the
header of the next one. -/
def sectorOver : Buf :=
  put32 Log.zeroBlock 0 magic ++ put32 (Log.putHeader Log.zeroBlock uuidOver 262144
    (Log.lsn magic 3584) (Log.lsn magic 3072)) Log.Off.cycleData Log.unmountTid

lemma length_sectorOver : sectorOver.length = 1024 := by
  rw [sectorOver, List.length_append, length_put32, length_put32, Log.length_putHeader,
    Log.zeroBlock, List.length_replicate, bbsize]

lemma update_take_drop {c : UInt32} {l : Buf} (n : ℕ) :
    Crc.update c l = Crc.update (Crc.update c (l.take n)) (l.drop n) := by
  rw [Crc.update, Crc.update, Crc.update, ← List.foldl_append, List.take_append_drop]

/-- **Its checksum is the zero it has there.** -/
lemma cksum_sectorOver : Crc.cksum sectorOver Off.crc = 0 := by
  -- The checksum goes over it 200 bytes at a time.
  have h₀ : Crc.update 0xffffffff (sectorOver.take Off.crc) = 1893023788 := by decide +kernel
  have h₁ : Crc.update 1893023788 (List.replicate 4 0) = 2324145821 := by decide +kernel
  have h₂ : Crc.update 2324145821 ((sectorOver.drop 228).take 200) = 4293411040 := by
    decide +kernel
  have h₃ : Crc.update 4293411040 ((sectorOver.drop 428).take 200) = 1325766292 := by
    decide +kernel
  have h₄ : Crc.update 1325766292 ((sectorOver.drop 628).take 200) = 3178321225 := by
    decide +kernel
  have h₅ : Crc.update 3178321225 (sectorOver.drop 828) = 4294967295 := by decide +kernel
  have hoff : Off.crc + 4 = 228 := rfl
  rw [Crc.cksum, h₀, h₁, hoff, update_take_drop 200, h₂, List.drop_drop, update_take_drop 200, h₃,
    List.drop_drop, update_take_drop 200, h₄, List.drop_drop, h₅]
  rfl

/-- It is a superblock. -/
lemma sbOk_sectorOver : SbOk geoOver sectorOver := by
  have hlen := length_sectorOver
  have hzero : le32 sectorOver Off.crc = 0 := by decide +kernel
  have htake : sectorOver.take geoOver.sectsize = sectorOver := List.take_of_length_le hlen.le
  have hroom : Off.crc + 4 ≤ sectorOver.length := by
    rw [hlen]
    decide
  refine ⟨by decide +kernel, ?_⟩
  rw [htake, Crc.verify, cksum_sectorOver, hzero, decide_eq_true hroom]
  rfl

lemma cleared_sectorOver : ((fsOver.cleared uuidOver 0x58465343 4096).drop 2097152).take 1024 =
    sectorOver := by
  have hcleared : fsOver.cleared uuidOver 0x58465343 4096 =
      fsOver.clearStream uuidOver 0x58465343 4096 := if_neg (by decide)
  have hfirst : Fs.firstLen fsOver.geo.logsunit = 1025 := by decide
  have hblock : ∀ q < 3584, blockOf (fsOver.clearStream uuidOver 0x58465343 4096) (1025 + q) =
      blockOf (Fs.fillRecord uuidOver magic (512 + q / 512 * 512)
        (min (3584 - q / 512 * 512) 512)) (q % 512) := fun q hq => by
    have hchain := @blockOf_clearStream fsOver uuidOver 0x58465343 4096 q
      (by rw [hfirst]; norm_num) (by norm_num) hq
    rwa [hfirst] at hchain
  have hsunit : 512 * bbsize % 2 ^ 32 = 262144 := by decide
  have hlast : blockOf (fsOver.clearStream uuidOver 0x58465343 4096) 4096 =
      put32 Log.zeroBlock 0 magic := by
    have hlsn : Log.lsn magic 3072 < 2 ^ 64 := Log.lsn_lt (by decide) (by norm_num)
    have hrecord : blockOf (Log.record uuidOver 262144 (Log.lsn magic 3072) (Log.lsn magic 2560))
        511 = put32 Log.zeroBlock 0 (Log.lsn magic 3072 >>> 32) :=
      Log.blockOf_record_of_lt hlsn (by decide) (by decide)
    rw [Log.lsn_cycle (by norm_num)] at hrecord
    have hq := hblock 3071 (by norm_num)
    rw [Fs.fillRecord] at hq
    rw [← hrecord]
    exact hq
  have hnext : blockOf (fsOver.clearStream uuidOver 0x58465343 4096) 4097 =
      put32 (Log.putHeader Log.zeroBlock uuidOver 262144 (Log.lsn magic 3584)
        (Log.lsn magic 3072)) Log.Off.cycleData Log.unmountTid := by
    have hq := hblock 3072 (by norm_num)
    rw [Fs.fillRecord] at hq
    exact hq.trans Log.blockOf_record_zero
  have hblocks : ((fsOver.clearStream uuidOver 0x58465343 4096).drop (4096 * bbsize)).take
      (bbsize + bbsize) = _ := take_drop_eq_blocks
  rw [hcleared, sectorOver, ← hlast, ← hnext]
  exact hblocks

/-! ### Its disk -/

variable {d : Disk}

lemma length_sbOver : sbOver.length = 1024 := by
  rw [sbOver, Crc.length_stamp, bareOver, List.length_append, length_bareSb, List.length_replicate]

lemma sbOk_sbOver : SbOk geoOver sbOver := by
  have hlen := length_sbOver
  have htake : sbOver.take geoOver.sectsize = sbOver := List.take_of_length_le hlen.le
  have hmagic : be32 sbOver Off.magicnum = be32 bareOver Off.magicnum :=
    be32_splice_of_disjoint (.inl (by decide))
  have hroom : Off.crc + 4 ≤ bareOver.length := by
    rw [bareOver, List.length_append, length_bareSb, List.length_replicate]
    decide
  refine ⟨hmagic.trans (by decide +kernel), ?_⟩
  rw [htake]
  exact Crc.verify_stamp hroom

/-- It opens on every disk that begins with its superblock. -/
lemma opened_over (h : d.readBuf 0 1024 = sbOver) : Opened devOver d fsOver := by
  have hcrc : (toLeBytes 4 (Crc.cksum bareOver Off.crc).toNat).length = 4 := length_toLeBytes
  have hread : d.readBuf 0 512 = sbOver.take 512 := by
    refine Buf.ext (by simp [length_sbOver]) fun i hi => ?_
    have hi' : i < 512 := by simpa using hi
    rw [byteAt_take hi', Disk.byteAt_readBuf hi', ← h, Disk.byteAt_readBuf (by omega)]
  have hhead : sbOver.take 512 = splice (bareSb geoOver) Off.crc
      (toLeBytes 4 (Crc.cksum bareOver Off.crc).toNat) := by
    have hbare : bareOver.take 512 = bareSb geoOver := by
      rw [bareOver, List.take_left' (length_bareSb _)]
    rw [sbOver, Crc.stamp_eq_splice, take_splice, hbare]
  have hstamp : Crc.stamp (sbOver.take 512) Off.crc = Crc.stamp (bareSb geoOver) Off.crc := by
    rw [hhead]
    exact Crc.stamp_congr length_splice fun i hi => byteAt_splice_of_not_mem (by rwa [hcrc])
  have hparse : Geo.parse (sbOver.take 512) = .ok geoOver := by
    rw [← Geo.parse_stamp, hstamp, Geo.parse_stamp]
    exact parse_bareOver
  have hfeatures : be32 sbOver Off.featuresIncompat = be32 bareOver Off.featuresIncompat :=
    be32_splice_of_disjoint (.inl (by decide))
  have hrblocks : be64 sbOver Off.rblocks = be64 bareOver Off.rblocks :=
    be64_splice_of_disjoint (.inl (by decide))
  have hbare : be32 bareOver Off.featuresIncompat = 0 ∧ be64 bareOver Off.rblocks = 0 := by
    decide +kernel
  exact {
    parsed := by
      change Geo.parse (d.readBuf 0 512) = .ok geoOver
      rw [hread, hparse]
    block_le := (by decide : 1024 ≤ 4196352)
    sb := by
      change checkSb geoOver 0 (d.readBuf 0 1024) = .ok sbOver
      exact checkSb_eq_ok.2 ⟨by rw [h]; exact sbOk_sbOver, h.symm⟩
    features := by
      change checkFeatures geoOver sbOver = .ok ()
      rw [checkFeatures_eq_ok, hfeatures, hrblocks, hbare.1, hbare.2]
      decide }

/-- The log that `diskOver` carries. -/
lemma length_logOver : (fsPlain.cleared zeroUuid 0x58465342 4096).length = 2097152 := by
  have hlen : (fsPlain.cleared zeroUuid 0x58465342 4096).length =
      Fs.clearedLen fsPlain.geo 4096 0x58465342 := length_cleared (.inr (by decide))
  rw [hlen, clearedLen_eq fsPlain.valid (by decide : 1 ≤ 262144) (by norm_num), bbsize]

lemma readBuf_over {a : ℕ} (ha : a = 0 ∨ a = 2098176) : diskOver.readBuf a 1024 = sbOver := by
  have hlen := length_sbOver
  have hwrite : ∀ t : Disk, (t.put a sbOver).readBuf a 1024 = sbOver := fun t => by
    have hread := @Disk.readBuf_put t a sbOver 0 1024 ((Nat.zero_add 1024).trans_le hlen.ge)
    rwa [Nat.add_zero, List.drop_zero, List.take_of_length_le hlen.le] at hread
  rw [diskOver, Disk.readBuf_put_of_disjoint (by rw [length_logOver]; omega)]
  rcases ha with rfl | rfl
  · rw [Disk.readBuf_put_of_disjoint (.inl (by norm_num)), hwrite]
  · exact hwrite _

lemma diskOver_healthy : diskOver.Healthy := rfl

lemma diskOver_opened : Opened devOver diskOver fsOver := opened_over (readBuf_over (.inl rfl))

lemma headAt_over : geoOver.headAt 1 = 2098176 := by
  change 1 * 2049 * 1024 = 2098176
  norm_num

/-- Both superblocks can be read. -/
lemma readable_over {i : ℕ} (hi : i < 2) : Readable devOver diskOver geoOver i := by
  have hi' : i = 0 ∨ i = 1 := by omega
  have hplace : geoOver.headAt i = 0 ∨ geoOver.headAt i = 2098176 :=
    hi'.imp (fun h => by rw [h, Geo.headAt_zero]) (fun h => by rw [h, headAt_over])
  refine ⟨?_, ?_⟩
  · change geoOver.headAt i + 1024 ≤ 4196352
    omega
  · change SbOk geoOver (diskOver.readBuf (geoOver.headAt i) 1024)
    rw [readBuf_over hplace]
    exact sbOk_sbOver

lemma extent_over : fsOver.geo.logExtent = .ok (1024, 4096) := by decide

/-- The log is found clean, and is next cleared in the cycle whose records before it are filled
with the magic. -/
lemma cleanAt_over : CleanAt devOver diskOver 0x58465343 := by
  have hext : fsPlain.geo.logExtent = .ok (1024, 4096) := by decide
  have hsunit : fsPlain.geo.logsunit ≤ 262144 := (by decide : 1 ≤ 262144)
  have hclears : fsPlain.Clears devOver 1024 4096 0x58465342 := by
    have hsize : devOver.size = 4196352 := rfl
    rw [Fs.Clears, clearedLen_eq fsPlain.valid hsunit (by norm_num), hsize, bbsize]
    exact ⟨by norm_num, .inr ⟨by decide, by norm_num⟩⟩
  have hbare : ((Disk.blank.put 0 sbOver).put 2098176 sbOver).Healthy := rfl
  obtain ⟨s, hfind, -, hdirty, hcycle⟩ := clearLog_findTail hext (by decide) hsunit zeroUuid
    (by norm_num) (by decide)
    ((run_clearLog_eq_ok hbare hext (by decide) (by norm_num)).2 ⟨hclears, rfl⟩) diskOver_healthy
  exact (cleanAt_iff diskOver_healthy diskOver_opened (LogReader.new_eq_ok.2 extent_over)).2
    ⟨s, hfind, hdirty, by rw [hcycle], by norm_num⟩

/-- What the clear under `uuidOver` leaves. -/
def clearOver : Buf := fsOver.cleared uuidOver 0x58465343 4096

lemma clears_over : fsOver.Clears devOver 1024 4096 0x58465343 := by
  have hsize : devOver.size = 4196352 := rfl
  have hlen : Fs.clearedLen fsOver.geo 4096 0x58465343 = 2359808 := by decide
  rw [Fs.Clears, hlen, hsize]
  exact ⟨by norm_num, .inr ⟨by decide, by norm_num⟩⟩

lemma length_clearOver : clearOver.length = 2359808 := by
  have hlen : clearOver.length = Fs.clearedLen fsOver.geo 4096 0x58465343 :=
    clears_over.length_cleared
  rw [hlen]
  decide

/-- After the clear the second superblock is the end of the log's last record but one and the
header of the last. -/
lemma readBuf_cleared_over : (d.put 1024 clearOver).readBuf (geoOver.headAt 1) 1024 =
    sectorOver := by
  have hread := @Disk.readBuf_put d 1024 clearOver 2097152 1024 (by rw [length_clearOver]; norm_num)
  rw [headAt_over]
  exact hread.trans cleared_sectorOver

/-- Both superblocks can still be read after the clear. -/
lemma readable_cleared_over {i : ℕ} (hi : i < 2) (h : Readable devOver d geoOver 0) :
    Readable devOver (d.put 1024 clearOver) geoOver i := by
  have hi' : i = 0 ∨ i = 1 := by omega
  rcases hi' with rfl | rfl
  · refine ⟨h.1, ?_⟩
    rw [Disk.readBuf_put_of_disjoint (.inl (by rw [Geo.headAt_zero]; decide))]
    exact h.2
  · refine ⟨?_, ?_⟩
    · rw [headAt_over]
      decide
    · change SbOk geoOver ((d.put 1024 clearOver).readBuf (geoOver.headAt 1) 1024)
      rw [readBuf_cleared_over]
      exact sbOk_sectorOver

end Over

end MkfsXfs
