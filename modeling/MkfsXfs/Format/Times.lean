import MkfsXfs.Format.Determined

/-!
The times of the root inode (`encode_time`, `decode_time` in `src/structs/inode.rs`, and
`root_chunk` in `src/format.rs`).

* `Timestamp.Storable`: the times that the on-disk encodings can hold.
* `encodeTime_kept_iff`: they are the ones that are read back as they were stored.
* `rootChunk_times`: the root inode has the time it was made with.
* `run_withTime`: a format that succeeds at one time, at another.
* `format_time_iff`: a format keeps the time it is given exactly when it is one of these.
-/

namespace MkfsXfs

open Checked Inode Inspect

/-! ### The two encodings -/

/-- The encodings can hold the time: whole nanoseconds from the minimum 32-bit time on in 64 bits,
or seconds in 32 bits with a sign. -/
def Timestamp.Storable (t : Timestamp) (bigtime : Bool) : Prop :=
  if bigtime then
    -2 ^ 31 ≤ t.secs.toInt ∧ t.nsecs.toNat < 1000000000 ∧
      (t.secs.toInt + 2 ^ 31) * 1000000000 + t.nsecs.toNat < 2 ^ 64
  else -2 ^ 31 ≤ t.secs.toInt ∧ t.secs.toInt < 2 ^ 31

instance (t : Timestamp) (bigtime : Bool) : Decidable (t.Storable bigtime) :=
  inferInstanceAs (Decidable (if bigtime then _ else _))

section Encodings

variable {t : Timestamp} {raw : ℕ}

lemma timestamp_ext {t' : Timestamp} : t = t' ↔
    t.secs.toInt = t'.secs.toInt ∧ t.nsecs.toNat = t'.nsecs.toNat := by
  obtain ⟨secs, nsecs⟩ := t
  obtain ⟨secs', nsecs'⟩ := t'
  rw [Timestamp.mk.injEq, Int64.toInt_inj, UInt32.toNat_inj]

/-- Sixty-four bits are too few for a time before the minimum. -/
lemma encodeTime_big_eq_ok : encodeTime t true = .ok raw ↔
    0 ≤ t.secs.toInt + 2 ^ 31 ∧
      raw = (t.secs.toInt + 2 ^ 31).toNat * 1000000000 + t.nsecs.toNat ∧ raw < 2 ^ 64 := by
  have hlo := t.secs.le_toInt
  have hhi := t.secs.toInt_lt
  have hoff : bigtimeEpochOffset = 2 ^ 31 := rfl
  rw [encodeTime, if_pos rfl]
  dsimp only
  rw [hoff, asWord]
  split_ifs with hwide
  · constructor
    · rintro ⟨⟩
    · rintro ⟨h0, rfl, hlt⟩
      omega
  · rw [fit_eq_ok]
    rcases lt_or_ge (t.secs.toInt + 2 ^ 31) 0 with hneg | hpos
    · have hword : ((t.secs.toInt + 2 ^ 31) % 2 ^ 64).toNat ≥ 2 ^ 63 := by omega
      constructor
      · rintro ⟨hlt, -⟩
        omega
      · rintro ⟨h0, -, -⟩
        omega
    · have hword : (t.secs.toInt + 2 ^ 31) % 2 ^ 64 = t.secs.toInt + 2 ^ 31 :=
        Int.emod_eq_of_lt hpos (by omega)
      rw [hword]
      constructor
      · rintro ⟨hlt, rfl⟩
        exact ⟨hpos, rfl, hlt⟩
      · rintro ⟨-, rfl, hlt⟩
        exact ⟨hlt, rfl⟩

/-- What is decoded from a count of nanoseconds. -/
lemma decodeTime_big (hraw : raw < 2 ^ 64) :
    (decodeTime raw true).secs.toInt = raw / 1000000000 - 2 ^ 31 ∧
      (decodeTime raw true).nsecs.toNat = raw % 1000000000 := by
  have hoff : bigtimeEpochOffset = 2 ^ 31 := rfl
  rw [decodeTime, if_pos rfl]
  dsimp only
  rw [hoff, Int64.toInt_ofInt_of_le (by omega) (by omega), UInt32.toNat_ofNat']
  exact ⟨rfl, by omega⟩

/-- What is decoded from two 32-bit halves. -/
lemma decodeTime_small {hi lo : ℕ} (hlo : lo < 2 ^ 32) :
    (decodeTime (hi <<< 32 ||| lo) false).secs.toInt = (hi : ℤ).bmod (2 ^ 32) ∧
      (decodeTime (hi <<< 32 ||| lo) false).nsecs.toNat = lo := by
  have hor : hi <<< 32 ||| lo = hi * 2 ^ 32 + lo := by
    rw [Nat.shiftLeft_eq, Nat.mul_comm, Nat.two_pow_add_eq_or_of_lt hlo]
  have hshift : (hi <<< 32 ||| lo) >>> 32 = hi := by
    rw [hor, Nat.shiftRight_eq_div_pow]
    omega
  rw [decodeTime, if_neg (by decide), hshift]
  dsimp only
  have hword : (Int32.ofNat hi).toInt = (hi : ℤ).bmod (2 ^ 32) := Int32.toInt_ofNat'
  have hbounds : -2 ^ 31 ≤ (hi : ℤ).bmod (2 ^ 32) ∧ (hi : ℤ).bmod (2 ^ 32) < 2 ^ 31 := by
    rw [Int.bmod_def]
    split_ifs <;> omega
  rw [hword, Int64.toInt_ofInt_of_le (by omega) (by omega)]
  refine ⟨rfl, ?_⟩
  rw [UInt32.toNat_ofNat', hor]
  omega

/-- A time is encoded in 64 bits, or the encoder panics. -/
lemma encodeTime_cases (t : Timestamp) (bigtime : Bool) :
    encodeTime t bigtime = .error .panic ∨
      ∃ raw, encodeTime t bigtime = .ok raw ∧ raw < 2 ^ 64 := by
  have hns := t.nsecs.toNat_lt
  cases bigtime with
  | true =>
      rw [encodeTime, if_pos rfl]
      dsimp only
      split_ifs
      · exact .inl rfl
      · rw [fit]
        split_ifs with hlt
        · exact .inr ⟨_, rfl, hlt⟩
        · exact .inl rfl
  | false =>
      refine .inr ⟨asWord 32 t.secs.toInt <<< 32 ||| t.nsecs.toNat, rfl, ?_⟩
      have hword : asWord 32 t.secs.toInt < 2 ^ 32 := by
        rw [asWord]
        omega
      rw [Nat.shiftLeft_eq, Nat.mul_comm, ← Nat.two_pow_add_eq_or_of_lt hns]
      omega

/-- **The times that are read back as they were stored.** -/
theorem encodeTime_kept_iff {bigtime : Bool} :
    (∃ raw, encodeTime t bigtime = .ok raw ∧ decodeTime raw bigtime = t) ↔
      t.Storable bigtime := by
  have hns := t.nsecs.toNat_lt
  cases bigtime with
  | true =>
      rw [Timestamp.Storable, if_pos rfl]
      constructor
      · rintro ⟨raw, henc, hdec⟩
        obtain ⟨h0, hraw, hlt⟩ := encodeTime_big_eq_ok.mp henc
        obtain ⟨-, hnsecs⟩ := timestamp_ext.mp hdec
        rw [(decodeTime_big hlt).2] at hnsecs
        omega
      · rintro ⟨hlo, hnsecs, hlt⟩
        have henc := encodeTime_big_eq_ok.mpr ⟨(by omega : 0 ≤ t.secs.toInt + 2 ^ 31), rfl,
          (by omega)⟩
        refine ⟨_, henc, timestamp_ext.mpr ?_⟩
        obtain ⟨hs, hn⟩ := decodeTime_big (encodeTime_big_eq_ok.mp henc).2.2
        rw [hs, hn]
        constructor <;> omega
  | false =>
      obtain ⟨hs, hn⟩ := @decodeTime_small (asWord 32 t.secs.toInt) _ hns
      have henc : encodeTime t false =
          .ok (asWord 32 t.secs.toInt <<< 32 ||| t.nsecs.toNat) := rfl
      rw [Timestamp.Storable, if_neg (by decide), henc]
      have hkept : decodeTime (asWord 32 t.secs.toInt <<< 32 ||| t.nsecs.toNat) false = t ↔
          (asWord 32 t.secs.toInt : ℤ).bmod (2 ^ 32) = t.secs.toInt := by
        rw [timestamp_ext, hs, hn]
        exact and_iff_left rfl
      have hbmod : (asWord 32 t.secs.toInt : ℤ).bmod (2 ^ 32) = t.secs.toInt ↔
          -2 ^ 31 ≤ t.secs.toInt ∧ t.secs.toInt < 2 ^ 31 := by
        rw [asWord, Int.bmod_def]
        split_ifs <;> omega
      rw [← hbmod, ← hkept]
      constructor
      · rintro ⟨raw, hraw, hdec⟩
        rwa [Except.ok.inj hraw]
      · exact fun h => ⟨_, rfl, h⟩

end Encodings

/-! ### The root inode -/

section RootInode

variable {params : Params} {dev logical physical : ℕ} {g : Geometry} {uuid : Uuid}
  {time : Timestamp} {gen : Gen} {agbno raw : ℕ} {inodes : Buf}

/-- The four times of an inode. -/
def timeOffs : List ℕ := [Off.mtime, Off.ctime, Off.crtime, Off.atime]

lemma timeOffs_le {off : ℕ} (hoff : off ∈ timeOffs) : off + 8 ≤ 176 := by
  simp only [timeOffs, List.mem_cons, List.not_mem_nil, or_false] at hoff
  rcases hoff with rfl | rfl | rfl | rfl <;> decide

/-- The inode has the time it was made with, as it is stored. -/
lemma Dinode.times_encode {d : Dinode} {slot b : Buf} (h : d.encode uuid slot = .ok b)
    (hs : coreSize ≤ slot.length) (ht : ∀ t ∈ [d.atime, d.mtime, d.ctime, d.crtime], t = time)
    (henc : encodeTime time d.bigtime = .ok raw) (hraw : raw < 2 ^ 64) :
    ∀ off ∈ timeOffs, be64 b off = raw := by
  obtain ⟨atime, mtime, ctime, crtime, ⟨ha, hm, hc, hcr⟩, hb⟩ := Dinode.encode_eq h
  have heq : ∀ {t n}, t ∈ [d.atime, d.mtime, d.ctime, d.crtime] →
      encodeTime t d.bigtime = .ok n → n = raw := fun hmem hn => by
    rw [ht _ hmem, henc] at hn
    exact (Except.ok.inj hn).symm
  rw [heq (by simp) ha, heq (by simp) hm, heq (by simp) hc, heq (by simp) hcr] at hb
  have hread : ∀ off, Field.u64 off raw ∈
      d.fields uuid raw raw raw raw ++ [⟨coreSize, d.data⟩] → off + 8 ≤ coreSize →
      (off + 8 ≤ Off.crc ∨ Off.crc + 4 ≤ off) → be64 b off = raw := by
    intro off hmem hroom hcrc
    rw [hb]
    exact be64_stampFields Dinode.ascending_fields hmem hraw (hroom.trans hs) hcrc
  intro off hoff
  simp only [timeOffs, List.mem_cons, List.not_mem_nil, or_false] at hoff
  rcases hoff with rfl | rfl | rfl | rfl
  · exact hread _ (by simp [Dinode.fields]) (by decide) (by decide)
  · exact hread _ (by simp [Dinode.fields]) (by decide) (by decide)
  · exact hread _ (by simp [Dinode.fields]) (by decide) (by decide)
  · exact hread _ (by simp [Dinode.fields]) (by decide) (by decide)

/-- **The root inode has the time of the chunk**, as it is stored. -/
theorem Accepted.rootChunk_times (h : Accepted params dev logical physical g)
    (hok : rootChunk g agbno uuid time gen = .ok inodes)
    (henc : encodeTime time g.features.bigtime = .ok raw) (hraw : raw < 2 ^ 64) :
    ∀ off ∈ timeOffs, be64 inodes off = raw := by
  have hisz : 2 ^ 9 ≤ g.inodesize := by
    rw [h.inodesize]
    exact Nat.pow_le_pow_right (by norm_num) h.inodelog_ge
  have hcore : coreSize = 176 := rfl
  rw [rootChunk, h.chunkBytes] at hok
  obtain ⟨b₁, hroot, hok⟩ := bind_eq_ok.mp hok
  obtain ⟨b₂, hrbm, hok⟩ := bind_eq_ok.mp hok
  -- The other two inodes leave the first slot.
  have hkeep : KeepsBelow g.inodesize b₁ inodes :=
    (keepsBelow_onSlice hrbm le_rfl).trans (keepsBelow_onSlice hok (by omega))
  rw [onSlice] at hroot
  split_ifs at hroot with hroom
  obtain ⟨slot, hslot, hroot⟩ := bind_eq_ok.mp hroot
  have hlen := Dinode.length_encode hslot
  rw [List.length_take, List.length_drop] at hlen
  have hlong : coreSize ≤ (((freeSlots (g.ino 0 agbno 0) gen.next.1.toNat uuid g.inodesize
      (List.replicate (64 * g.inodesize) 0)).drop 0).take g.inodesize).length := by
    rw [List.length_take, List.length_drop, length_freeSlots (by omega)]
    omega
  have hmade : ∀ t ∈ [(rootInode g (g.ino 0 agbno 0) time).sizeFromData.atime,
      (rootInode g (g.ino 0 agbno 0) time).sizeFromData.mtime,
      (rootInode g (g.ino 0 agbno 0) time).sizeFromData.ctime,
      (rootInode g (g.ino 0 agbno 0) time).sizeFromData.crtime], t = time := by
    simp [rootInode, Dinode.sizeFromData, baseInode]
  have hbig : (rootInode g (g.ino 0 agbno 0) time).sizeFromData.bigtime = g.features.bigtime :=
    @baseInode_bigtime time g (g.ino 0 agbno 0)
  have htimes := Dinode.times_encode hslot hlong hmade (by rw [hbig]; exact henc) hraw
  intro off hoff
  have hbound := timeOffs_le hoff
  rw [← htimes off hoff]
  refine be64_congr fun k hk => ?_
  rw [hkeep.2 _ (by omega), ← Except.ok.inj hroot, byteAt_splice_of_mem (Nat.zero_le _)
    (by omega) (by omega), Nat.sub_zero]

/-- **A time that cannot be stored stops the format with a panic.** -/
lemma Accepted.rootChunk_panic (h : Accepted params dev logical physical g)
    (henc : encodeTime time g.features.bigtime = .error .panic) :
    rootChunk g agbno uuid time gen = .error .panic := by
  have hisz : 0 < g.inodesize := by
    rw [h.inodesize]
    positivity
  have hroot : ∀ slot, (rootInode g (g.ino 0 agbno 0) time).sizeFromData.encode uuid slot =
      .error .panic := by
    intro slot
    have hbig : decide ((rootInode g (g.ino 0 agbno 0) time).sizeFromData.flags2 &&&
        diflag2Bigtime ≠ 0) = g.features.bigtime := @baseInode_bigtime time g (g.ino 0 agbno 0)
    rw [Dinode.encode]
    dsimp only
    rw [hbig]
    have hatime : (rootInode g (g.ino 0 agbno 0) time).sizeFromData.atime = time := rfl
    rw [hatime, henc]
    rfl
  rw [rootChunk, h.chunkBytes]
  dsimp only
  rw [onSlice, if_pos (by rw [length_freeSlots hisz]; omega), hroot]
  rfl

end RootInode

/-! ### The format -/

/-- The setup at another time. -/
def Setup.withTime (s : Setup) (t : Timestamp) : Setup := { s with id := { s.id with time := t } }

section Run

variable {params : Params} {size : UInt64} {logical physical : UInt32} {id : Identity}
  {order : List ℕ} {s : Setup} {dev : Device} {d d' : Disk} {t : Timestamp} {inodes : Buf}
  {raw : ℕ}

lemma setup_withTime (hs : setup params size logical physical id = .ok s) (t : Timestamp) :
    setup params size logical physical { id with time := t } = .ok (s.withTime t) := by
  obtain ⟨hg, hplans, hinitial, hid⟩ := setup_eq_ok.mp hs
  exact setup_eq_ok.mpr ⟨hg, hplans, hinitial, by rw [Setup.withTime, hid]⟩

/-- No head has the time. -/
lemma Setup.writeHeads_withTime : (s.withTime t).writeHeads order = s.writeHeads order := by
  induction order with
  | nil => rfl
  | cons agno order ih =>
      rw [Setup.writeHeads, Setup.writeHeads, ih]
      rfl

/-- Nothing but the root inode chunk has the time. -/
lemma format_withTime (hs : setup params size logical physical id = .ok s) (t : Timestamp) :
    format params size logical physical { id with time := t } order =
      (s.zeroEnds size.toNat >>= fun _ => s.writeLog >>= fun _ => s.writeHeads order) >>= fun _ =>
        (s.withTime t).writeChunk >>= fun _ => s.finish >>= fun _ => Prog.pure s.report := by
  have hlog : (s.withTime t).writeLog = s.writeLog := rfl
  have hfinish : (s.withTime t).finish = s.finish := rfl
  have hreport : (s.withTime t).report = s.report := rfl
  rw [format_eq (setup_withTime hs t), Setup.body, Setup.writeHeads_withTime, hlog, hfinish, hreport]
  simp only [bind_assoc]
  rfl

/-- The chunk is made at its place in AG 0. -/
lemma Setup.chunk_withTime (hs : setup params size logical physical id = .ok s) :
    (s.withTime t).chunk =
      rootChunk s.g s.g.rootChunkAgbno s.id.uuid t ⟨s.id.genSeed⟩ >>= fun inodes =>
        .ok (s.g.rootChunkAgbno, inodes) := by
  obtain ⟨hg, hplans, -, -⟩ := setup_eq_ok.mp hs
  have h := compute_eq_ok.mp hg
  have hn := h.agcount_ge
  obtain ⟨hlen, -⟩ := List.forall₂_iff_get.mp (mapM_eq_ok_iff.mp hplans)
  rw [List.length_range] at hlen
  have hpos : 0 < s.plans.length := by omega
  have hplan : s.plan 0 = .ok s.plans[0] := by rw [Setup.plan, List.getElem?_eq_getElem hpos]
  obtain ⟨hp, -⟩ := h.plan_zero size.toNat_lt (Setup.plan_eq_ok hplans hplan).2
  have hchunk := hp.planned.chunk
  rw [hp.agno_eq, if_pos rfl] at hchunk
  have hplan' : (s.withTime t).plan 0 = .ok s.plans[0] := hplan
  rw [Setup.chunk, hplan', ok_bind, hchunk]
  rfl

/-- An operation that succeeds. -/
lemma Device.run_perform_eq_ok {op : DevOp} {a : op.Ans} :
    dev.run (perform op) d = (.ok a, d') ↔ op.offset + op.len ≤ dev.size ∧ d.faults 0 = false ∧
      a = op.answer d ∧ d' = (op.effect d).tick := by
  rw [Device.run_perform, Device.step]
  split_ifs with hbound hfault
  · simp [hbound]
  · simp [hfault]
  · simp only [Prod.mk.injEq, Except.ok.injEq, Bool.not_eq_true] at hfault ⊢
    exact ⟨fun h => ⟨by omega, hfault, h.1.symm, h.2.symm⟩,
      fun h => ⟨h.2.2.1.symm, h.2.2.2.symm⟩⟩

/-- The end of a format: two writes, each flushed. -/
lemma Device.run_ends_eq_ok {α : Type} {off : ℕ} {b head : Buf} {r r' : α} :
    dev.run (writeAt off b >>= fun _ => flush >>= fun _ => writeAt 0 head >>= fun _ =>
      flush >>= fun _ => Prog.pure r) d = (.ok r', d') ↔
      off + b.length ≤ dev.size ∧ head.length ≤ dev.size ∧ (∀ n < 4, d.faults n = false) ∧
        r' = r ∧ d' = ((d.put off b).tick.tick.put 0 head).tick.tick := by
  have hwrite : ∀ {off : ℕ} {b : Buf} {d d' : Disk} {a : Unit},
      dev.run (writeAt off b) d = (.ok a, d') ↔ off + b.length ≤ dev.size ∧ d.faults 0 = false ∧
        a = () ∧ d' = (d.put off b).tick := Device.run_perform_eq_ok
  have hflush : ∀ {d d' : Disk} {a : Unit}, dev.run flush d = (.ok a, d') ↔
      0 + 0 ≤ dev.size ∧ d.faults 0 = false ∧ a = () ∧ d' = d.tick := Device.run_perform_eq_ok
  simp only [Device.run_bind_eq_ok, hwrite, hflush]
  constructor
  · rintro ⟨_, _, ⟨hoff, h0, -, rfl⟩, _, _, ⟨-, h1, -, rfl⟩, _, _, ⟨hhead, h2, -, rfl⟩, _, _,
      ⟨-, h3, -, rfl⟩, hpure⟩
    obtain ⟨hr, hd⟩ := Prod.mk.inj hpure
    refine ⟨hoff, by omega, fun n hn => ?_, (Except.ok.inj hr).symm, hd.symm⟩
    interval_cases n
    · exact h0
    · exact h1
    · exact h2
    · exact h3
  · rintro ⟨hoff, hhead, hfaults, rfl, rfl⟩
    exact ⟨(), _, ⟨hoff, hfaults 0 (by omega), trivial, rfl⟩, (), _,
      ⟨Nat.zero_le _, hfaults 1 (by omega), trivial, rfl⟩, (), _,
      ⟨by omega, hfaults 2 (by omega), trivial, rfl⟩, (), _,
      ⟨Nat.zero_le _, hfaults 3 (by omega), trivial, rfl⟩, rfl⟩

/-- A format ends with its two writes when their contents are made. -/
lemma Setup.ends_eq {head : Buf} (hs : setup params size logical physical id = .ok s)
    (hmade : rootChunk s.g s.g.rootChunkAgbno s.id.uuid t ⟨s.id.genSeed⟩ = .ok inodes)
    (hhead : s.finishedHead = .ok head) :
    ((s.withTime t).writeChunk >>= fun _ => s.finish >>= fun _ => Prog.pure s.report) =
      writeAt (s.g.agbToByte 0 s.g.rootChunkAgbno) inodes >>= fun _ => flush >>= fun _ =>
        writeAt 0 head >>= fun _ => flush >>= fun _ => Prog.pure s.report := by
  rw [Setup.writeChunk, Setup.chunk_withTime hs, hmade, Setup.finish, hhead]
  rfl

/-- The finished header blocks end before the root inode chunk. -/
lemma Setup.length_finishedHead_le {dev logical physical : ℕ} {head : Buf}
    (h : Accepted params dev logical physical s.g) (hhead : s.finishedHead = .ok head) :
    head.length ≤ s.g.agbToByte 0 s.g.rootChunkAgbno := by
  rw [Setup.finishedHead] at hhead
  obtain ⟨plan, -, hhead⟩ := bind_eq_ok.mp hhead
  obtain ⟨whole, -, hhead⟩ := bind_eq_ok.mp hhead
  have hprealloc := s.g.headerBlocks_le
  have hchunk := h.rootChunk_bounds.1
  rw [← Except.ok.inj hhead, h.agbToByte_eq, List.length_take, Nat.zero_mul, Nat.zero_add]
  exact (min_le_left _ _).trans (Nat.mul_le_mul_right _ (by omega))

/-- The times that are read back from the root inode. -/
def rootTimes (g : Geometry) (d : Disk) : List Timestamp :=
  timeOffs.map fun off =>
    decodeTime (be64 (d.readBuf (g.agbToByte 0 g.rootChunkAgbno) g.inodesize) off)
      g.features.bigtime

/-- The times are read back from the chunk that was written. -/
lemma Accepted.rootTimes_put {g : Geometry} {dev logical physical agbno : ℕ} {uuid : Uuid}
    {gen : Gen} {head : Buf} (h : Accepted params dev logical physical g)
    (hmade : rootChunk g agbno uuid t gen = .ok inodes)
    (hhead : head.length ≤ g.agbToByte 0 g.rootChunkAgbno)
    (henc : encodeTime t g.features.bigtime = .ok raw) (hraw : raw < 2 ^ 64) :
    rootTimes g ((d.put (g.agbToByte 0 g.rootChunkAgbno) inodes).tick.tick.put 0 head).tick.tick
      = timeOffs.map fun _ => decodeTime raw g.features.bigtime := by
  have hisz : 2 ^ 9 ≤ g.inodesize := by
    rw [h.inodesize]
    exact Nat.pow_le_pow_right (by norm_num) h.inodelog_ge
  have hlen := h.length_rootChunk hmade
  rw [h.chunkBytes] at hlen
  have hread : ((d.put (g.agbToByte 0 g.rootChunkAgbno) inodes).tick.tick.put 0 head).readBuf
      (g.agbToByte 0 g.rootChunkAgbno) g.inodesize = inodes.take g.inodesize :=
    (Disk.readBuf_put_of_disjoint (by omega)).trans (Disk.readBuf_put (k := 0) (by omega))
  refine List.map_congr_left fun off hoff => congrArg (decodeTime · _) ?_
  rw [← h.rootChunk_times hmade henc hraw off hoff]
  refine be64_congr fun k hk => ?_
  have hbound := timeOffs_le hoff
  exact (congrArg (byteAt · _) hread).trans (byteAt_take (by omega))

/-- **A format that succeeds at one time, at another**: it writes the chunk of that time in its
place, or it panics. -/
lemma run_withTime {report : Report}
    (hrun : (dev.run (format params size logical physical id order) d).1 = .ok report)
    (t : Timestamp) : ∃ s, setup params size logical physical id = .ok s ∧ report = s.report ∧
      ((encodeTime t s.g.features.bigtime = .error .panic ∧
        (dev.run (format params size logical physical { id with time := t } order) d).1
          = .error .panic) ∨
      ∃ raw d', encodeTime t s.g.features.bigtime = .ok raw ∧
        dev.run (format params size logical physical { id with time := t } order) d
          = (.ok report, d') ∧
        rootTimes s.g d' = timeOffs.map fun _ => decodeTime raw s.g.features.bigtime) := by
  rcases hs : setup params size logical physical id with e | s
  · rw [format_of_error hs] at hrun
    cases hrun
  have h := compute_eq_ok.mp (setup_eq_ok.mp hs).1
  have hid : { id with time := id.time } = id := rfl
  rcases hall : dev.run (format params size logical physical id order) d with ⟨res, d₃⟩
  rw [hall] at hrun
  obtain rfl : res = .ok report := hrun
  rw [← hid, format_withTime hs] at hall
  obtain ⟨_, d₁, hpre, hrest⟩ := Device.run_bind_eq_ok.mp hall
  -- The chunk at the time of the format that succeeds.
  rcases hbase : rootChunk s.g s.g.rootChunkAgbno s.id.uuid id.time ⟨s.id.genSeed⟩ with e | inodes
  · rw [Setup.writeChunk, Setup.chunk_withTime hs, hbase] at hrest
    cases hrest
  rcases hhead : s.finishedHead with e | head
  · obtain ⟨_, d₂, -, hfinish⟩ := Device.run_bind_eq_ok.mp hrest
    rw [Setup.finish, hhead] at hfinish
    cases hfinish
  rw [Setup.ends_eq hs hbase hhead, Device.run_ends_eq_ok, h.length_rootChunk hbase] at hrest
  obtain ⟨hroom, hheadRoom, hfaults, rfl, -⟩ := hrest
  refine ⟨s, rfl, rfl, ?_⟩
  rcases encodeTime_cases t s.g.features.bigtime with hpanic | ⟨raw, henc, hraw⟩
  · refine .inl ⟨hpanic, ?_⟩
    rw [format_withTime hs, Device.run_bind_ok hpre, Setup.writeChunk, Setup.chunk_withTime hs,
      h.rootChunk_panic hpanic]
    rfl
  · obtain ⟨inodes', hmade⟩ : ∃ inodes', rootChunk s.g s.g.rootChunkAgbno s.id.uuid t
        ⟨s.id.genSeed⟩ = .ok inodes' := h.rootChunk_ok ⟨raw, henc⟩
    have hlen := h.length_rootChunk hmade
    have hends : dev.run (format params size logical physical { id with time := t } order) d
        = (.ok s.report, ((d₁.put (s.g.agbToByte 0 s.g.rootChunkAgbno) inodes').tick.tick.put 0
          head).tick.tick) := by
      rw [format_withTime hs, Device.run_bind_ok hpre, Setup.ends_eq hs hmade hhead]
      exact Device.run_ends_eq_ok.mpr ⟨hlen ▸ hroom, hheadRoom, hfaults, rfl, rfl⟩
    refine .inr ⟨raw, _, henc, hends, ?_⟩
    exact h.rootTimes_put hmade (Setup.length_finishedHead_le h hhead) henc hraw

end Run

/-- A format whose time is encoded makes its report. -/
lemma Setup.result_ok {params : Params} {size : UInt64} {logical physical : UInt32}
    {id : Identity} {s : Setup} (hs : setup params size logical physical id = .ok s)
    (henc : ∃ n, encodeTime s.id.time s.g.features.bigtime = .ok n) : s.result = .ok s.report := by
  obtain ⟨inodes, hmade⟩ : ∃ inodes, rootChunk s.g s.g.rootChunkAgbno s.id.uuid s.id.time
      ⟨s.id.genSeed⟩ = .ok inodes := (compute_eq_ok.mp (setup_eq_ok.mp hs).1).rootChunk_ok henc
  have hchunk : s.chunk = _ := @Setup.chunk_withTime _ _ _ _ _ s s.id.time hs
  rw [Setup.result, hchunk, hmade]
  rfl

/-- The format of 512 MiB, run on a blank disk. -/
lemma run_512m : ((Device.ofSize 536870912 512).run
    (format {} 536870912 512 512 setup512m.id [0, 1, 2, 3]) Disk.blank).1
      = .ok setup512m.report := by
  have hblank : Disk.blank.Healthy := rfl
  rw [run_format setup_512m agsMin_geo512m logFits_geo512m (by decide) hblank]
  exact Setup.result_ok setup_512m ⟨3847483648000000000, by decide⟩

/-- A format that refuses the time with an error, or the times of whose root inode are that
time. -/
def TimeKept (t : Timestamp) (r : Except (Fault Error) Report × Disk) : Prop :=
  (∃ e, r.1 = .error (.error e)) ∨
    ∃ report, r.1 = .ok report ∧ ∀ t' ∈ rootTimes report.geometry r.2, t' = t

/-- **A format keeps the time it is given exactly when the encodings can hold it**, wherever it
succeeds at some time; the features asked for say which encoding it is. -/
theorem format_time_iff (params : Params) (size : UInt64) (logical physical : UInt32)
    (id : Identity) (order : List ℕ) (d : Disk) (report : Report)
    (hrun : ((Device.ofSize size logical).run
      (format params size logical physical id order) d).1 = .ok report) (t : Timestamp) :
    TimeKept t ((Device.ofSize size logical).run
        (format params size logical physical { id with time := t } order) d) ↔
      t.Storable params.features.bigtime := by
  obtain ⟨s, hs, rfl, hcases⟩ := run_withTime hrun t
  rw [← (compute_eq_ok.mp (setup_eq_ok.mp hs).1).features, ← encodeTime_kept_iff]
  rcases hcases with ⟨hpanic, hrun'⟩ | ⟨raw, d', henc, hrun', htimes⟩
  · rw [TimeKept, hrun']
    constructor
    · rintro (⟨e, he⟩ | ⟨r, hr, -⟩)
      · cases he
      · cases hr
    · rintro ⟨raw, hraw, -⟩
      have hok := hpanic.symm.trans hraw
      cases hok
  · rw [TimeKept, hrun']
    constructor
    · rintro (⟨e, he⟩ | ⟨r, hr, hkept⟩)
      · cases he
      · obtain rfl := Except.ok.inj hr
        have hmem : decodeTime raw s.g.features.bigtime ∈ rootTimes s.g d' := by
          rw [htimes]
          simp [timeOffs]
        exact ⟨raw, henc, hkept _ hmem⟩
    · rintro ⟨raw', hraw, hdec⟩
      obtain rfl : raw = raw' := Except.ok.inj (henc.symm.trans hraw)
      refine .inr ⟨s.report, rfl, fun t' ht' => ?_⟩
      have hmem : t' ∈ timeOffs.map fun _ => decodeTime raw s.g.features.bigtime := by
        rw [← htimes]
        exact ht'
      obtain ⟨-, -, rfl⟩ := List.mem_map.mp hmem
      exact hdec

/-- A format of 512 MiB keeps the year 2030. -/
theorem format_time_2030 : TimeKept ⟨1900000000, 5⟩ ((Device.ofSize 536870912 512).run
    (format {} 536870912 512 512 { setup512m.id with time := ⟨1900000000, 5⟩ } [0, 1, 2, 3])
    Disk.blank) :=
  (format_time_iff {} 536870912 512 512 setup512m.id [0, 1, 2, 3] Disk.blank setup512m.report
    run_512m ⟨1900000000, 5⟩).mpr (by decide)

/-- A format of 512 MiB panics at the year 2603. -/
theorem format_time_not_kept : ¬ ∀ (params : Params) (size : UInt64) (logical physical : UInt32)
    (id : Identity) (order : List ℕ) (d : Disk), TimeKept id.time
      ((Device.ofSize size logical).run (format params size logical physical id order) d) := by
  intro h
  have hkept := h {} 536870912 512 512 { setup512m.id with time := ⟨20000000000, 0⟩ }
    [0, 1, 2, 3] Disk.blank
  obtain ⟨s, hs, -, hcases⟩ := run_withTime run_512m ⟨20000000000, 0⟩
  obtain rfl : setup512m = s := Except.ok.inj (setup_512m.symm.trans hs)
  have henc : encodeTime ⟨20000000000, 0⟩ setup512m.g.features.bigtime = .error .panic := by
    decide
  rcases hcases with ⟨-, hrun⟩ | ⟨raw, -, hraw, -⟩
  · rw [TimeKept, hrun] at hkept
    rcases hkept with ⟨e, he⟩ | ⟨r, hr, -⟩
    · cases he
    · cases hr
  · cases henc.symm.trans hraw

end MkfsXfs
