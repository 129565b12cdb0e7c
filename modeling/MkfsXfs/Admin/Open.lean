import MkfsXfs.Admin.Ops

/-!
What the operations rely on once a filesystem is open, and what they touch.

* `Opened`: what `openFs` has checked; `openFs_eq_ok` gets it from a run, `run_openFs` runs
  the open where it holds.
* `Quiet`: the operations that write nothing.  Opening, and reading the log, are quiet.
* `OnLog`: the operations that write at the log's start or later.  `clearLog_safe`: the log
  clear does no other, and fails on its own only in a record of one basic block.
* `Opened.start_ge`: the log never starts in the first block.
-/

namespace MkfsXfs

open Checked Sb

/-! ### Quiet programs -/

/-- The operation writes nothing. -/
def Quiet (op : DevOp) : Prop := ∀ a, ¬ op.Touches a

/-- A quiet program leaves the disk's bytes. -/
lemma run_quiet {α : Type} (dev : Device) (d : Disk) {p : DevM α} {E : Fault Error → Prop}
    {Q : α → Prop} (hp : p.Safe Quiet E Q) :
    (dev.run p d).2.bytes = d.bytes ∧ (dev.run p d).2.written = d.written := by
  have h : ∀ a, (dev.run p d).2.bytes a = d.bytes a ∧ (dev.run p d).2.written a = d.written a :=
    fun a => Device.run_untouched (hp.mono (fun op hop => hop a) (fun _ he => he) fun _ hq => hq)
  exact ⟨funext fun a => (h a).1, funext fun a => (h a).2⟩

lemma safe_ofExcept_of {α : Type} {G : DevOp → Prop} {E : Fault Error → Prop} {x : Exec α}
    {Q : α → Prop} (hE : ∀ e, x = .error e → E e) (hQ : ∀ a, x = .ok a → Q a) :
    (Prog.ofExcept x : DevM α).Safe G E Q := Prog.safe_ofExcept.2 ⟨hE, hQ⟩

section Quiet

variable {E : Fault Error → Prop}

lemma readSb_quiet {g : Geo} {agno : ℕ} (hE : ∀ e, g.sbOffset agno = .error e → E e)
    (hC : ∀ b e, checkSb g agno b = .error e → E e) :
    (readSb g agno).Safe Quiet E (fun _ => True) :=
  (safe_ofExcept_of hE fun _ _ => trivial).bind fun _ _ =>
    (safe_readAt (Q := fun _ => True) (fun _ => id) fun _ _ => trivial).bind fun b _ =>
      safe_ofExcept_of (hC b) fun _ _ => trivial

lemma openFs_quiet (dev : Device) : (openFs dev).Safe Quiet (fun _ => True) (fun _ => True) := by
  have hgeo : (geometry dev).Safe Quiet (fun _ => True) (fun _ => True) :=
    (safe_readAt (Q := fun _ => True) (fun _ => id) fun _ _ => trivial).bind fun _ _ =>
      safe_ofExcept_of (fun _ _ => trivial) fun _ _ => trivial
  refine hgeo.bind fun g _ => ?_
  refine (readSb_quiet (fun _ _ => trivial) fun _ _ _ => trivial).bind fun p _ => ?_
  exact (safe_ofExcept_of (Q := fun _ => True) (fun _ _ => trivial) fun _ _ => trivial).bind
    fun _ _ => trivial

lemma findTail_quiet (r : LogReader) :
    r.findTail.Safe Quiet (fun _ => True) (fun s => s.head < r.bbs) :=
  (r.drive_reads (E := fun _ => True)
    (Log.findTail_safe (fun _ => trivial) trivial r.total_le) trivial).mono
    (fun _ hop _ => hop.untouched) (fun _ _ => trivial) fun _ h => h

end Quiet

/-! ### What opening checks -/

/-- The filesystem `fs` was found on the disk. -/
structure Opened (dev : Device) (d : Disk) (fs : Fs) : Prop where
  parsed : Geo.parse (d.readBuf 0 (min (max dev.logicalSectorSize 512) dev.size)) = .ok fs.geo
  block_le : fs.geo.blocksize ≤ dev.size
  sb : checkSb fs.geo 0 (d.readBuf 0 fs.geo.blocksize) = .ok fs.primary
  features : checkFeatures fs.geo fs.primary = .ok ()

lemma sbOffset_zero (g : Geo) : g.sbOffset 0 = .ok 0 := by
  rw [Geo.sbOffset, Nat.zero_mul, Nat.zero_mul]
  rfl

/-- What a superblock read that succeeds has read. -/
lemma readSb_eq_ok {dev : Device} {d d' : Disk} {g : Geo} {agno : ℕ} {b : Buf}
    (h : dev.run (readSb g agno) d = (.ok b, d')) : ∃ offset, g.sbOffset agno = .ok offset ∧
      offset + g.blocksize ≤ dev.size ∧
      checkSb g agno (d.readBuf offset g.blocksize) = .ok b ∧ d'.bytes = d.bytes := by
  rw [readSb, Device.run_bind_eq_ok] at h
  obtain ⟨offset, t, hoff, h⟩ := h
  rw [Device.run_monadLift] at hoff
  obtain ⟨hoffset, rfl⟩ := Prod.mk.inj hoff
  rw [Device.run_bind_eq_ok] at h
  obtain ⟨buf, t, hread, h⟩ := h
  obtain ⟨rfl, hsize, rfl⟩ := Device.run_readAt_eq_ok hread
  rw [Device.run_monadLift] at h
  obtain ⟨hcheck, rfl⟩ := Prod.mk.inj h
  exact ⟨offset, hoffset, hsize, hcheck, rfl⟩

/-- How a superblock read fails: the block is out of reach, or does not check. -/
lemma readSb_eq_error {dev : Device} {d d' : Disk} {g : Geo} {agno : ℕ} {e : Fault Error}
    (h : dev.run (readSb g agno) d = (.error e, d')) :
    g.sbOffset agno = .error e ∨ DeviceFault e ∨ ∃ offset, g.sbOffset agno = .ok offset ∧
      checkSb g agno (d.readBuf offset g.blocksize) = .error e := by
  rw [readSb] at h
  rcases Device.run_bind_eq_error.1 h with hoff | ⟨offset, t, hoff, h⟩
  · rw [Device.run_monadLift] at hoff
    exact .inl (congrArg Prod.fst hoff)
  rw [Device.run_monadLift] at hoff
  obtain ⟨hoffset, rfl⟩ := Prod.mk.inj hoff
  rcases Device.run_bind_eq_error.1 h with hread | ⟨b, t, hread, h⟩
  · have hsafe : (readAt offset g.blocksize).Safe (fun _ => True) (fun _ => False)
        (fun _ => True) := safe_readAt trivial fun _ _ => trivial
    exact .inr (.inl ((Device.run_fault hsafe (congrArg Prod.fst hread)).resolve_left id))
  · obtain ⟨rfl, _, rfl⟩ := Device.run_readAt_eq_ok hread
    rw [Device.run_monadLift] at h
    exact .inr (.inr ⟨offset, hoffset, congrArg Prod.fst h⟩)

/-- **What opening checks**, read off a run of it. -/
theorem openFs_eq_ok {dev : Device} {d d' : Disk} {fs : Fs}
    (h : dev.run (openFs dev) d = (.ok fs, d')) : Opened dev d fs := by
  rw [openFs, Device.run_bind_eq_ok] at h
  obtain ⟨g, t, hgeo, h⟩ := h
  rw [geometry, Device.run_bind_eq_ok] at hgeo
  obtain ⟨head, t₁, hread, hparse⟩ := hgeo
  obtain ⟨rfl, _, rfl⟩ := Device.run_readAt_eq_ok hread
  rw [Device.run_monadLift] at hparse
  obtain ⟨hparsed, rfl⟩ := Prod.mk.inj hparse
  rw [Device.run_bind_eq_ok] at h
  obtain ⟨p, t, hsb, h⟩ := h
  obtain ⟨offset, hoff, hsize, hcheck, _⟩ := readSb_eq_ok hsb
  rw [sbOffset_zero] at hoff
  cases hoff
  rw [Nat.zero_add] at hsize
  rw [Device.run_bind_eq_ok] at h
  obtain ⟨_, t, hfeat, h⟩ := h
  rw [Device.run_monadLift] at hfeat
  obtain ⟨hfeatures, rfl⟩ := Prod.mk.inj hfeat
  cases h
  exact {
    parsed := Geo.parseValid_eq_ok.1 hparsed
    block_le := hsize
    sb := hcheck
    features := hfeatures }

/-- What opening checks is a matter of the disk's bytes. -/
lemma Opened.of_bytes {dev : Device} {d d' : Disk} {fs : Fs} (h : Opened dev d fs)
    (hbytes : d'.bytes = d.bytes) : Opened dev d' fs := by
  have hread : ∀ off len, d'.readBuf off len = d.readBuf off len := fun off len => by
    rw [Disk.readBuf, hbytes, Disk.readBuf]
  exact {
    parsed := by
      rw [hread]
      exact h.parsed
    block_le := h.block_le
    sb := by
      rw [hread]
      exact h.sb
    features := h.features }

/-- A healthy disk opens where the checks pass, and is as it was. -/
lemma run_openFs {dev : Device} {d : Disk} {fs : Fs} (hd : d.Healthy) (h : Opened dev d fs) :
    dev.run (openFs dev) d = (.ok fs, d) := by
  have hgeo : dev.run (geometry dev) d = (.ok ⟨fs.geo, fs.valid⟩, d) := by
    rw [geometry, Device.run_bind_ok (Device.run_readAt hd (by omega)), Device.run_monadLift,
      (Geo.parseValid_eq_ok (g := ⟨fs.geo, fs.valid⟩)).2 h.parsed]
  have hsb : dev.run (readSb fs.geo 0) d = (.ok fs.primary, d) := by
    have hread : dev.run (readAt 0 fs.geo.blocksize) d =
        (.ok (d.readBuf 0 fs.geo.blocksize), d) :=
      Device.run_readAt hd (by have := h.block_le; omega)
    rw [readSb, sbOffset_zero]
    refine (Device.run_bind_ok hread).trans ?_
    rw [Device.run_monadLift, h.sb]
  rw [openFs, Device.run_bind_ok hgeo, Device.run_bind_ok hsb, h.features]
  rfl

/-- A filesystem that opens has an internal log. -/
lemma Opened.logstart_ne {dev : Device} {d : Disk} {fs : Fs} (h : Opened dev d fs) :
    fs.geo.logstart ≠ 0 := by
  have hf := h.features
  rw [checkFeatures, refuseIf_bind_eq_ok, refuseIf_bind_eq_ok, refuseIf_bind_eq_ok,
    refuseIf_eq_ok] at hf
  exact hf.2.2.2

/-- The parts of the log's place. -/
lemma logExtent_eq_ok {g : Geo} {start bbs : ℕ} (h : g.logExtent = .ok (start, bbs)) :
    start = (g.logstart >>> g.agblklog * g.agblocks + g.logstart % 2 ^ g.agblklog) * g.blocksize ∧
      bbs = g.logblocks * g.blocksize / bbsize ∧ start < 2 ^ 64 := by
  rw [Geo.logExtent, fit_bind_eq_ok, Nat.and_two_pow_sub_one_eq_mod] at h
  obtain ⟨hlt, h⟩ := h
  obtain ⟨rfl, rfl⟩ := Prod.mk.inj (Except.ok.inj h)
  exact ⟨rfl, rfl, hlt⟩

/-- **The log never starts in the first block.** -/
lemma start_ge {g : Geo} (hg : g.Valid) (hlog : g.logstart ≠ 0) {start bbs : ℕ}
    (h : g.logExtent = .ok (start, bbs)) : g.blocksize ≤ start := by
  obtain ⟨rfl, _, _⟩ := logExtent_eq_ok h
  have hpos : 0 < g.logstart >>> g.agblklog * g.agblocks + g.logstart % 2 ^ g.agblklog := by
    rw [Nat.shiftRight_eq_div_pow]
    have hdm := Nat.div_add_mod g.logstart (2 ^ g.agblklog)
    rcases Nat.eq_zero_or_pos (g.logstart / 2 ^ g.agblklog) with h0 | h0
    · rw [h0, Nat.mul_zero, Nat.zero_add] at hdm
      omega
    · have := Nat.mul_pos h0 hg.agblocks_pos
      omega
  exact Nat.le_mul_of_pos_left _ hpos

/-- The reader's log is the filesystem's. -/
lemma LogReader.new_eq_ok {g : Geo} {r : LogReader} :
    LogReader.new g = .ok r ↔ g.logExtent = .ok (r.start, r.bbs) := by
  rw [LogReader.new, bind_eq_ok]
  constructor
  · rintro ⟨⟨start, bbs⟩, hext, h⟩
    dsimp only at h
    split at h
    · cases h
      exact hext
    · cases h
  · intro hext
    refine ⟨_, hext, ?_⟩
    dsimp only
    rw [dif_pos r.total_le]
    rfl

/-! ### One superblock rewritten -/

section Rewrite

variable {dev : Device} {d : Disk} {g : Geo} {fs : Fs} {b : Buf} {i agno offset : ℕ}

lemma length_nullQuota {o : ℕ} : (Fs.nullQuota b o).length = b.length := by
  rw [Fs.nullQuota]
  split
  · exact length_put64
  · rfl

lemma byteAt_nullQuota {o : ℕ} (ho : i < o ∨ o + 8 ≤ i) :
    byteAt (Fs.nullQuota b o) i = byteAt b i := by
  rw [Fs.nullQuota]
  split
  · exact byteAt_splice_of_not_mem (by simpa using ho)
  · rfl

@[simp] lemma length_sbToDisk : (Fs.sbToDisk g b).length = b.length := by
  rw [Fs.sbToDisk, List.foldl_cons, List.foldl_cons, List.foldl_cons, List.foldl_nil,
    List.length_append, Crc.length_stamp, List.length_take, List.length_drop, length_put32,
    length_nullQuota, length_nullQuota, length_nullQuota]
  omega

/-- The bytes of the quota inodes, `sb_bad_features2` and the checksum apart, the superblock
is written as it is. -/
lemma byteAt_sbToDisk (hu : i < Off.uquotino ∨ Off.uquotino + 8 ≤ i)
    (hg : i < Off.gquotino ∨ Off.gquotino + 8 ≤ i) (hp : i < Off.pquotino ∨ Off.pquotino + 8 ≤ i)
    (hf : i < Off.badFeatures2 ∨ Off.badFeatures2 + 4 ≤ i) (hc : i < Off.crc ∨ Off.crc + 4 ≤ i) :
    byteAt (Fs.sbToDisk g b) i = byteAt b i := by
  have happend : ∀ b : Buf, byteAt (Crc.stamp (b.take g.sectsize) Off.crc ++ b.drop g.sectsize) i =
      byteAt b i := by
    intro b
    have hlen : (Crc.stamp (b.take g.sectsize) Off.crc).length = min g.sectsize b.length := by
      rw [Crc.length_stamp, List.length_take]
    rcases Nat.lt_or_ge i (min g.sectsize b.length) with hlt | hge
    · rw [byteAt_append_left (by omega), Crc.stamp_eq_splice,
        byteAt_splice_of_not_mem (by simpa using hc), byteAt_take (by omega)]
    · rw [byteAt_append_right (by omega), hlen, byteAt_drop]
      rcases Nat.lt_or_ge g.sectsize b.length with hs | hs
      · congr 1
        omega
      · rw [byteAt_of_le (by omega), byteAt_of_le (by omega)]
  rw [Fs.sbToDisk, List.foldl_cons, List.foldl_cons, List.foldl_cons, List.foldl_nil, happend,
    byteAt_put32_of_disjoint hf, byteAt_nullQuota hp, byteAt_nullQuota hg, byteAt_nullQuota hu]

/-- On a healthy disk a superblock that checks is rewritten in place. -/
lemma run_rewriteSb {f : Buf → Buf} (hd : d.Healthy) (hoff : fs.geo.sbOffset agno = .ok offset)
    (hsize : offset + fs.geo.blocksize ≤ dev.size)
    (hcheck : checkSb fs.geo agno (d.readBuf offset fs.geo.blocksize) = .ok b)
    (hlen : (f b).length = fs.geo.blocksize) :
    dev.run (rewriteSb fs f agno) d =
      (.ok (), d.put offset (Fs.sbToDisk fs.geo (f b))) := by
  have hread : dev.run (readSb fs.geo agno) d = (.ok b, d) := by
    rw [readSb, hoff]
    refine (Device.run_bind_ok (Device.run_readAt hd hsize)).trans ?_
    rw [Device.run_monadLift, hcheck]
  rw [rewriteSb, Device.run_bind_ok hread, Fs.writeSb, hoff]
  exact Device.run_writeAt hd (by rwa [length_sbToDisk, hlen])

/-- A superblock that does not check is refused. -/
lemma run_rewriteSb_error {f : Buf → Buf} {e : Fault Error} (hd : d.Healthy)
    (hoff : fs.geo.sbOffset agno = .ok offset) (hsize : offset + fs.geo.blocksize ≤ dev.size)
    (hcheck : checkSb fs.geo agno (d.readBuf offset fs.geo.blocksize) = .error e) :
    dev.run (rewriteSb fs f agno) d = (.error e, d) := by
  have hread : dev.run (readSb fs.geo agno) d = (.error e, d) := by
    rw [readSb, hoff]
    refine (Device.run_bind_ok (Device.run_readAt hd hsize)).trans ?_
    rw [Device.run_monadLift, hcheck]
  rw [rewriteSb, Device.run_bind_error hread]

end Rewrite

/-! ### A superblock that opens -/

/-- A superblock of one 512-byte block with the geometry `g` and nothing else, its checksum
not yet stored. -/
def bareSb (g : Geo) : Buf :=
  let b := put32 (List.replicate 512 0) Off.magicnum magic
  let b := put32 b Off.blocksize g.blocksize
  let b := put64 b Off.dblocks g.dblocks
  let b := put64 b Off.logstart g.logstart
  let b := put32 b Off.agblocks g.agblocks
  let b := put32 b Off.agcount g.agcount
  let b := put32 b Off.logblocks g.logblocks
  let b := put16 b Off.versionnum 5
  let b := put16 b Off.sectsize g.sectsize
  let b := put16 b Off.inodesize g.inodesize
  let b := splice b Off.blocklog [UInt8.ofNat g.blocklog]
  let b := splice b Off.inopblog [UInt8.ofNat g.inopblog]
  let b := splice b Off.agblklog [UInt8.ofNat g.agblklog]
  let b := put16 b Off.logsectsize g.logsectsize
  let b := put32 b Off.logsunit g.logsunit
  let b := put32 b Off.featuresRoCompat g.roCompat
  put32 b Off.featuresIncompat g.incompat

@[simp] lemma length_bareSb (g : Geo) : (bareSb g).length = 512 := by
  simp only [bareSb, put16, length_put32, length_put64, length_splice, List.length_replicate]

/-- The bare superblock opens once its checksum is stored, where its geometry is accepted. -/
lemma opened_bareSb {dev : Device} {d : Disk} {g : Geo} (hparse : Geo.parse (bareSb g) = .ok g)
    (hblock : g.blocksize = 512) (hsect : g.sectsize = 512) (hlog : g.logstart ≠ 0)
    (hfeatures : be32 (bareSb g) Off.featuresIncompat = 0) (hrt : be64 (bareSb g) Off.rblocks = 0)
    (hmagic : be32 (bareSb g) Off.magicnum = magic) (hdev : dev.logicalSectorSize ≤ 512)
    (hsize : 512 ≤ dev.size) (hdisk : d.readBuf 0 512 = Crc.stamp (bareSb g) Off.crc) :
    Opened dev d ⟨g, Crc.stamp (bareSb g) Off.crc, Geo.parse_valid hparse⟩ := by
  have hstamp : ∀ o, o + 4 ≤ Off.crc →
      be32 (Crc.stamp (bareSb g) Off.crc) o = be32 (bareSb g) o := fun o ho =>
    be32_splice_of_disjoint (.inl ho)
  have hrb : be64 (Crc.stamp (bareSb g) Off.crc) Off.rblocks = be64 (bareSb g) Off.rblocks :=
    be64_splice_of_disjoint (.inl (by decide))
  have htake : (Crc.stamp (bareSb g) Off.crc).take 512 = Crc.stamp (bareSb g) Off.crc :=
    List.take_of_length_le (by simp)
  exact {
    parsed := by
      rw [max_eq_right hdev, min_eq_left hsize, hdisk, Geo.parse_stamp]
      exact hparse
    block_le := by
      dsimp only
      omega
    sb := by
      dsimp only
      rw [hblock, hdisk, checkSb, refuseIf_bind_eq_ok, refuseIf_bind_eq_ok, hsect, htake,
        hstamp _ (by decide), hmagic, Crc.verify_stamp (by simp; decide)]
      exact ⟨not_not.2 rfl, by decide, rfl⟩
    features := by
      dsimp only
      rw [checkFeatures, hstamp _ (by decide), hfeatures, hrb, hrt]
      simp [hlog] }

/-- A filesystem of two AGs of 4 MiB. -/
def geoTwoAgs : Geo where
  blocksize := 512
  blocklog := 9
  sectsize := 512
  agblocks := 8192
  agcount := 2
  dblocks := 16384
  agblklog := 13
  inodesize := 256
  inopblog := 1
  logstart := 8
  logblocks := 4096
  logsectsize := 0
  logsunit := 1
  roCompat := 0
  incompat := 0

/-- Its device. -/
def devTwoAgs : Device := ⟨8388608, 512, by decide⟩

/-- A disk that holds its primary superblock and nothing else. -/
def diskTwoAgs : Disk := Disk.blank.put 0 (Crc.stamp (bareSb geoTwoAgs) Off.crc)

/-- The filesystem on it. -/
def fsTwoAgs : Fs where
  geo := geoTwoAgs
  primary := Crc.stamp (bareSb geoTwoAgs) Off.crc
  valid := Geo.parse_valid (b := bareSb geoTwoAgs) (by decide +kernel)

lemma fsTwoAgs_opened : Opened devTwoAgs diskTwoAgs fsTwoAgs := by
  have hread : diskTwoAgs.readBuf (0 + 0) 512 = Crc.stamp (bareSb geoTwoAgs) Off.crc := by
    rw [diskTwoAgs, Disk.readBuf_put (by simp)]
    exact List.take_of_length_le (by simp)
  exact opened_bareSb (by decide +kernel) rfl rfl (by decide) (by decide +kernel)
    (by decide +kernel) (by decide +kernel) le_rfl (by decide) hread

/-! ### Where the log clear writes -/

/-- The operation writes nothing below `start`. -/
def From (start : ℕ) (op : DevOp) : Prop := ∀ a < start, ¬ op.Touches a

/-- The error of a record that cannot be as short as what is left of the log. -/
def shortRecord (rlen : ℕ) : Error := .unsupported s!"a log record of {rlen} basic blocks"

section Clear

variable {E : Fault Error → Prop} {start : ℕ}

lemma safe_fit {G : DevOp → Prop} (hP : E .panic) (w n : ℕ) :
    (Prog.ofExcept (fit w n) : DevM ℕ).Safe G E (· = n) := by
  rw [fit]
  split
  · rfl
  · exact hP

/-- The writer of the log at `start` was given `n` bytes, and has written whole chunks of them. -/
structure LogWriter.Given (start n : ℕ) (w : LogWriter) : Prop where
  start_eq : w.start = start
  dvd_logAt : chunk ∣ w.logAt
  total : w.logAt + w.buf.length = n

/-- The chunks of the first `n` bytes of the log may be written. -/
def Chunked (G : DevOp → Prop) (start n : ℕ) : Prop :=
  ∀ logAt (buf : Buf), chunk ∣ logAt → buf.length = chunk → logAt + chunk ≤ n →
    G (.writeAt (start + logAt) buf)

lemma Chunked.mono {G : DevOp → Prop} {m n : ℕ} (h : Chunked G start n) (hle : m ≤ n) :
    Chunked G start m := fun logAt buf hdvd hlen hroom => h logAt buf hdvd hlen (hroom.trans hle)

variable {G : DevOp → Prop} {n : ℕ}

lemma LogWriter.drain_safe (hP : E .panic) (w : LogWriter) (hw : w.Given start n)
    (hG : Chunked G start n) : w.drain.Safe G E (Given start n) := by
  induction w using LogWriter.drain.induct with
  | case1 w hlen ih =>
      obtain ⟨rfl, hdvd, htotal⟩ := hw
      rw [drain, dif_pos hlen]
      refine (safe_fit hP _ _).bind fun offset hoff => ?_
      subst hoff
      refine (safe_writeAt (Q := fun _ => True)
        (hG w.logAt _ hdvd (List.length_take_of_le hlen) (by omega)) trivial).bind fun _ _ => ih ?_
      refine ⟨rfl, dvd_add hdvd dvd_rfl, ?_⟩
      dsimp only
      rw [List.length_drop]
      omega
  | case2 w hlen =>
      rw [drain, dif_neg hlen]
      exact hw

lemma LogWriter.push_safe (hP : E .panic) (w : LogWriter) (hw : w.Given start n) (data : Buf)
    (hG : Chunked G start (n + data.length)) :
    (w.push data).Safe G E (Given start (n + data.length)) := by
  refine drain_safe hP _ ⟨hw.start_eq, hw.dvd_logAt, ?_⟩ hG
  have htotal := hw.total
  dsimp only
  rw [List.length_append]
  omega

lemma LogWriter.pushZeroes_safe (hP : E .panic) (rest : ℕ) : ∀ (w : LogWriter) (n : ℕ),
    w.Given start n → Chunked G start (n + rest) →
      (w.pushZeroes rest).Safe G E (Given start (n + rest)) := by
  induction rest using Nat.strong_induction_on with
  | _ rest ih =>
      intro w n hw hG
      rw [pushZeroes]
      split
      · have hpush : (w.push (List.replicate (min rest chunk) 0)).Safe G E
            (Given start (n + min rest chunk)) := by
          have hlen : (List.replicate (min rest chunk) (0 : UInt8)).length = min rest chunk :=
            List.length_replicate
          have hpushed := push_safe hP w hw (List.replicate (min rest chunk) 0)
            (hG.mono (by rw [hlen]; omega))
          rwa [hlen] at hpushed
        refine hpush.bind fun w' hw' => ?_
        have hsum : n + min rest chunk + (rest - min rest chunk) = n + rest := by omega
        have hrest := ih (rest - min rest chunk) (by rw [chunk_eq]; omega) w' _ hw'
        rw [hsum] at hrest
        exact hrest hG
      · obtain rfl : rest = 0 := by omega
        exact hw

lemma LogWriter.finish_safe (hP : E .panic) (w : LogWriter) (hstart : w.start = start)
    (hG : G (.writeAt (start + w.logAt) w.buf)) : w.finish.Safe G E (fun _ => True) := by
  subst hstart
  rw [finish]
  split
  · refine (safe_fit hP _ _).bind fun offset hoff => ?_
    subst hoff
    exact safe_writeAt hG trivial
  · trivial

lemma clearRecords_safe (hP : E .panic) (hS : ∀ n, E (.error (shortRecord n)))
    (uuid : Uuid) (c bbs blk rlen : ℕ) : ∀ (w : LogWriter) (n : ℕ), rlen ≤ bbs - blk →
    w.Given start n → Chunked G start (n + (bbs - blk) * bbsize) →
    (Fs.clearRecords uuid c bbs blk rlen w).Safe G E
      (LogWriter.Given start (n + (bbs - blk) * bbsize)) := by
  induction hk : bbs - blk using Nat.strong_induction_on generalizing blk rlen with
  | _ k ih =>
      intro w n hrlen hw hG
      rw [Fs.clearRecords]
      split
      · dsimp only
        split
        · exact hS rlen
        · rename_i hblk hlen
          rw [not_not] at hlen
          have hpos : rlen ≠ 0 := fun h0 => by
            have htwo := Log.two_le_recordLen 0
            rw [h0, Nat.zero_mul, Nat.zero_mod, Log.length_record, bbsize] at hlen
            omega
          have hsplit : rlen * bbsize + (k - rlen) * bbsize = k * bbsize := by
            rw [← Nat.add_mul, Nat.add_sub_cancel' hrlen]
          refine (w.push_safe hP hw _ (hG.mono (by rw [hlen]; omega))).bind fun w' hw' => ?_
          rw [sub, if_pos (by omega : blk + rlen ≤ bbs)]
          refine Prog.Safe.bind (Q := (· = bbs - (blk + rlen))) rfl fun left hleft => ?_
          have hrest := ih (k - rlen) (by omega) (blk + rlen) (min left rlen) (by omega) w' _
            (by omega) hw'
          rw [hlen, Nat.add_assoc, hsplit] at hrest
          exact hrest hG
      · obtain rfl : k = 0 := by omega
        rw [Nat.zero_mul]
        exact hw

/-- The length that the log clear expects of its first record is the record's. -/
lemma firstLen_eq (sunit : ℕ) : Fs.firstLen sunit = Log.recordLen sunit := by
  rcases Nat.eq_zero_or_pos sunit with h0 | hpos
  · subst h0
    decide
  · rw [Fs.firstLen, if_pos hpos, Log.recordLen_eq_max hpos]

/-- The bytes that a clear past the first cycle writes. -/
def Fs.clearTotal (sunit bbs : ℕ) : ℕ :=
  firstLen sunit * bbsize + (min (bdstratSize / bbsize) bbs * bbsize - firstLen sunit * bbsize) +
    (bbs - bdstratSize / bbsize) * bbsize

/-- **The log clear writes chunks of the log**, and what is left after them; it refuses nothing
of its own but a short record. -/
theorem clearLog_pieces (hP : E .panic) (hS : ∀ n, E (.error (shortRecord n))) (fs : Fs)
    (uuid : Uuid) (cycle : ℕ) {bbs : ℕ} (hext : fs.geo.logExtent = .ok (start, bbs))
    (hzero : G (.writeZeroes start (bbs * bbsize)))
    (hchunk : Chunked G start (Fs.clearTotal fs.geo.logsunit bbs))
    (hpad : ∀ logAt k (buf : Buf), chunk ∣ logAt →
      logAt + k = Fs.firstLen fs.geo.logsunit * bbsize →
      buf.length = k + (roundup k fs.geo.blocksize - k) → G (.writeAt (start + logAt) buf))
    (hlast : ∀ logAt (buf : Buf), chunk ∣ logAt →
      logAt + buf.length = Fs.clearTotal fs.geo.logsunit bbs → G (.writeAt (start + logAt) buf)) :
    (fs.clearLog uuid cycle).Safe G E (fun _ => True) := by
  have htail : (Prog.ofExcept (Fs.firstTail cycle bbs (Fs.firstLen fs.geo.logsunit)) :
      DevM ℕ).Safe G E (fun _ => True) := by
    refine safe_ofExcept_of (fun e he => ?_) fun _ _ => trivial
    rw [Fs.firstTail] at he
    split at he
    · cases he
    · rw [sub, sub] at he
      split at he
      · split at he
        · cases he
        · cases he
          exact hP
      · cases he
        exact hP
  have hempty : LogWriter.Given start 0 ⟨start, 0, []⟩ := ⟨rfl, dvd_zero _, rfl⟩
  rw [Fs.clearLog, hext]
  refine htail.bind fun tail _ => ?_
  have hlen : (Log.record uuid fs.geo.logsunit (Log.lsn cycle 0) tail).length =
      Fs.firstLen fs.geo.logsunit * bbsize := by
    rw [Log.length_record, firstLen_eq]
  have hfirst := LogWriter.push_safe hP _ hempty
    (Log.record uuid fs.geo.logsunit (Log.lsn cycle 0) tail)
    (hchunk.mono (by rw [hlen, Fs.clearTotal]; omega))
  rw [hlen, Nat.zero_add] at hfirst
  dsimp only
  rw [if_neg (not_not.2 hlen)]
  split
  · refine (safe_writeZeroes (Q := fun _ => True) hzero trivial).bind fun _ _ => ?_
    refine hfirst.bind fun w hw => LogWriter.finish_safe hP _ hw.start_eq ?_
    refine hpad w.logAt w.buf.length _ hw.dvd_logAt hw.total ?_
    rw [LogWriter.padToBlock, List.length_append, List.length_replicate]
  · refine hfirst.bind fun w hw => ?_
    have hsub : (Prog.ofExcept (sub cycle 1) : DevM ℕ).Safe G E (fun _ => True) := by
      rw [sub]
      split
      · trivial
      · exact hP
    refine hsub.bind fun c _ => ?_
    have hzeroes := LogWriter.pushZeroes_safe hP (min (bdstratSize / bbsize) bbs * bbsize -
      Fs.firstLen fs.geo.logsunit * bbsize) w _ hw (hchunk.mono (by rw [Fs.clearTotal]; omega))
    rw [LogWriter.zeroesTo, hw.total]
    refine hzeroes.bind fun w' hw' => ?_
    refine (clearRecords_safe hP hS uuid c bbs _ _ w' _ (by omega) hw' hchunk).bind
      fun w'' hw'' => ?_
    exact LogWriter.finish_safe hP _ hw''.start_eq (hlast w''.logAt w''.buf hw''.dvd_logAt hw''.total)

/-- **The log clear writes from the log's start on**, and refuses nothing of its own but a
short record. -/
theorem clearLog_safe (hP : E .panic) (hS : ∀ n, E (.error (shortRecord n))) (fs : Fs)
    (uuid : Uuid) (cycle : ℕ) {bbs : ℕ} (hext : fs.geo.logExtent = .ok (start, bbs)) :
    (fs.clearLog uuid cycle).Safe (From start) E (fun _ => True) := by
  have hwrite : ∀ logAt (buf : Buf), From start (.writeAt (start + logAt) buf) :=
    fun logAt buf a ha hle => by
      have := hle.1
      omega
  refine clearLog_pieces hP hS fs uuid cycle hext (fun a ha hle => ?_)
    (fun logAt buf _ _ _ => hwrite logAt buf) (fun logAt _ buf _ _ _ => hwrite logAt buf)
    fun logAt buf _ _ => hwrite logAt buf
  have := hle.1
  omega

end Clear

end MkfsXfs
