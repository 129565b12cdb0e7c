import MkfsXfs.Admin.Edits
import MkfsXfs.Inspect.Usable

/-!
The operations on a filesystem that opens, as changes of the disk.

* `Opened.again`: a filesystem opens again with a superblock made of its own; `Opened.edited`
  after its superblock was edited.
* `run_clearLog_eq_ok`: the log clear is one write, of bytes that depend on the geometry, the UUID
  and the cycle alone.
* `run_setLabel_eq_ok`, `run_setUuidTo_eq_ok`, `run_setUuid_eq_ok`: when the operations succeed,
  and what they leave.
* `Fs.Alike`: one filesystem as it is opened before and after an edit.
-/

namespace MkfsXfs

open Checked Sb

/-! ### Opening again -/

/-- The byte of a superblock may change when it is edited and written back. -/
def Rewritten (i : ℕ) : Prop :=
  NamingByte i ∨ (Off.uquotino ≤ i ∧ i < Off.gquotino + 8) ∨
    (Off.badFeatures2 ≤ i ∧ i < Off.badFeatures2 + 4) ∨ (Off.crc ≤ i ∧ i < Off.crc + 4) ∨
    (Off.pquotino ≤ i ∧ i < Off.pquotino + 8)

instance : DecidablePred NamingByte := fun _ => inferInstanceAs (Decidable (_ ∨ _))

instance : DecidablePred Rewritten := fun _ => inferInstanceAs (Decidable (_ ∨ _))

section Open

variable {dev : Device} {d d' : Disk} {fs : Fs} {g : Geo} {f : Buf → Buf} {b c : Buf} {i o : ℕ}

lemma Rewritten.lt (h : Rewritten i) : i < 512 := by
  simp only [Rewritten, NamingByte, Off.uuid, Off.fname, Off.featuresIncompat, Off.metaUuid,
    Off.uquotino, Off.gquotino, Off.badFeatures2, Off.crc, Off.pquotino] at h
  omega

lemma SbEdit.byteAt_sbToDisk (hf : SbEdit f) (hi : ¬ Rewritten i) :
    byteAt (Fs.sbToDisk g (f b)) i = byteAt b i := by
  simp only [Rewritten, not_or, not_and_or, Nat.not_le, Nat.not_lt] at hi
  obtain ⟨hid, hu, hbad, hcrc, hp⟩ := hi
  rw [(Fs.sbToDisk_same g (f b)).2 i hcrc, Fs.byteAt_sbNormal hu hbad hp, hf.bytes b hid]

/-- The features are written as they are. -/
lemma be32_sbToDisk_features : be32 (Fs.sbToDisk g b) Off.featuresIncompat =
    be32 b Off.featuresIncompat := by
  refine be32_congr fun k hk => ?_
  have hk' : k = 0 ∨ k = 1 ∨ k = 2 ∨ k = 3 := by omega
  rw [(Fs.sbToDisk_same g b).2 _ (by rcases hk' with rfl | rfl | rfl | rfl <;> decide)]
  rcases hk' with rfl | rfl | rfl | rfl <;>
    exact Fs.byteAt_sbNormal (by decide) (by decide) (by decide)

/-- **The parser reads only fields that an edit leaves**, the incompat features apart. -/
lemma Geo.parse_edited (h512 : 512 ≤ b.length) (hlen : 512 ≤ c.length)
    (hbytes : ∀ i < 512, ¬ Rewritten i → byteAt c i = byteAt b i) (h : Geo.parse b = .ok g) :
    Geo.parse c = .ok { g with incompat := be32 c Off.featuresIncompat } := by
  have hbyte : ∀ o, o < 512 ∧ ¬ Rewritten o → byteAt c o = byteAt b o := fun o ho =>
    hbytes o ho.1 ho.2
  have h16 : ∀ o, (∀ k < 2, o + k < 512 ∧ ¬ Rewritten (o + k)) → be16 c o = be16 b o :=
    fun o ho => by
      have h₀ := hbyte _ (ho 0 (by omega))
      rw [Nat.add_zero] at h₀
      rw [be16, be16, h₀, hbyte _ (ho 1 (by omega))]
  have h32 : ∀ o, (∀ k < 4, o + k < 512 ∧ ¬ Rewritten (o + k)) → be32 c o = be32 b o :=
    fun o ho => be32_congr fun k hk => hbyte _ (ho k hk)
  have h64 : ∀ o, (∀ k < 8, o + k < 512 ∧ ¬ Rewritten (o + k)) → be64 c o = be64 b o :=
    fun o ho => be64_congr fun k hk => hbyte _ (ho k hk)
  obtain ⟨hmark, rfl, hsize, hshape, hroom⟩ := (Geo.parse_eq_ok_iff h512).1 h
  have hgeo : Geo.ofBytes c =
      { Geo.ofBytes b with incompat := be32 c Off.featuresIncompat } := by
    rw [Geo.ofBytes, Geo.ofBytes]
    simp (disch := decide) only [h16, h32, h64, hbyte]
  refine (Geo.parse_eq_ok_iff hlen).2 ⟨?_, hgeo.symm, ?_, ?_, ?_⟩
  · rw [Geo.Marked, h32 _ (by decide), h16 _ (by decide)]
    exact hmark
  · rwa [Geo.Sized] at hsize ⊢
  · rwa [Geo.Shaped] at hshape ⊢
  · rwa [Geo.Roomy] at hroom ⊢

/-- The features that make a filesystem one to rewrite. -/
lemma checkFeatures_eq_ok {u : Unit} : checkFeatures g b = .ok u ↔
    be32 b Off.featuresIncompat &&& Version.inNeedsrepair = 0 ∧
    be32 b Off.featuresIncompat &&& (2 ^ 32 - 1 - knownIncompat) = 0 ∧
    be64 b Off.rblocks = 0 ∧ g.logstart ≠ 0 := by
  rw [checkFeatures, refuseIf_bind_eq_ok, refuseIf_bind_eq_ok, refuseIf_bind_eq_ok,
    refuseIf_eq_ok, not_not, not_not, not_not]

/-- Features that agree but for `META_UUID` have the same other bits. -/
lemma and_eq_of_or_eq {x y m : ℕ} (h : x ||| Version.inMetaUuid = y ||| Version.inMetaUuid)
    (hm : Version.inMetaUuid &&& m = 0) : x &&& m = y &&& m := by
  have hkeep : ∀ z, z &&& m = (z ||| Version.inMetaUuid) &&& m := fun z => by
    rw [Nat.and_or_distrib_right, hm, Nat.or_zero]
  rw [hkeep x, hkeep y, h]

/-- The filesystem with its primary superblock edited. -/
def Fs.edited (fs : Fs) (f : Buf → Buf) : Fs where
  geo := { fs.geo with
    incompat := be32 (Fs.sbToDisk fs.geo (f fs.primary)) Off.featuresIncompat }
  primary := Fs.sbToDisk fs.geo (f fs.primary)
  valid := { fs.valid with }

lemma Opened.primary_eq (h : Opened dev d fs) : fs.primary = d.readBuf 0 fs.geo.blocksize :=
  (checkSb_eq_ok.1 h.sb).2

lemma Opened.length_primary (h : Opened dev d fs) : fs.primary.length = fs.geo.blocksize := by
  rw [h.primary_eq, Disk.length_readBuf]

/-- The filesystem with the block `c` for its primary superblock. -/
def Fs.again (fs : Fs) (c : Buf) : Fs where
  geo := { fs.geo with incompat := be32 c Off.featuresIncompat }
  primary := c
  valid := { fs.valid with }

/-- **A filesystem opens again** with a superblock that checks, is its own but where edits write,
and has its features, `META_UUID` apart. -/
lemma Opened.again (h : Opened dev d fs) (hread : d'.readBuf 0 fs.geo.blocksize = c)
    (hok : SbOk fs.geo c) (hsame : ∀ i, ¬ Rewritten i → byteAt c i = byteAt fs.primary i)
    (hfeatures : be32 c Off.featuresIncompat ||| Version.inMetaUuid =
      be32 fs.primary Off.featuresIncompat ||| Version.inMetaUuid) :
    Opened dev d' (fs.again c) := by
  have hblock := fs.valid.blocksize_ge
  have hroom := h.block_le
  have hp := h.primary_eq
  have hsector : 512 ≤ min (max dev.logicalSectorSize 512) dev.size := by omega
  have hbyte : ∀ i < 512, d'.bytes (0 + i) = byteAt c i :=
    fun i hi => by rw [← hread, Disk.byteAt_readBuf (by omega)]
  have hold : ∀ i < 512, d.bytes (0 + i) = byteAt fs.primary i := fun i hi => by
    rw [hp, Disk.byteAt_readBuf (by omega)]
  obtain ⟨hrepair, hknown, hrt, hlog⟩ := checkFeatures_eq_ok.1 h.features
  refine {
    parsed := ?_
    block_le := h.block_le
    sb := checkSb_eq_ok.2 ⟨?_, hread.symm⟩
    features := checkFeatures_eq_ok.2 ⟨?_, ?_, ?_, hlog⟩ }
  · have hparse := Geo.parse_edited
      (c := d'.readBuf 0 (min (max dev.logicalSectorSize 512) dev.size))
      (by rwa [Disk.length_readBuf]) (by rwa [Disk.length_readBuf]) (fun i hi hr => by
        rw [Disk.byteAt_readBuf (by omega), Disk.byteAt_readBuf (by omega), hbyte i hi, hold i hi]
        exact hsame i hr) h.parsed
    have hfield : be32 (d'.readBuf 0 (min (max dev.logicalSectorSize 512) dev.size))
        Off.featuresIncompat = be32 c Off.featuresIncompat :=
      be32_congr fun k hk => by
        rw [Disk.byteAt_readBuf (by rw [Off.featuresIncompat]; omega),
          hbyte _ (by rw [Off.featuresIncompat]; omega)]
    rw [hfield] at hparse
    exact hparse
  · change SbOk fs.geo (d'.readBuf 0 fs.geo.blocksize)
    rwa [hread]
  · change be32 c Off.featuresIncompat &&& _ = 0
    rw [and_eq_of_or_eq hfeatures (by decide), hrepair]
  · change be32 c Off.featuresIncompat &&& _ = 0
    rw [and_eq_of_or_eq hfeatures (by decide), hknown]
  · change be64 c Off.rblocks = 0
    rw [← hrt]
    refine be64_congr fun k hk => hsame _ ?_
    have : ∀ k < 8, ¬ Rewritten (Off.rblocks + k) := by decide
    exact this k hk

/-- **A filesystem opens again after an edit.** -/
lemma Opened.edited (h : Opened dev d fs) (hf : SbEdit f)
    (hread : d'.readBuf 0 fs.geo.blocksize = Fs.sbToDisk fs.geo (f fs.primary)) :
    Opened dev d' (fs.edited f) := by
  have hblock := fs.valid.blocksize_ge
  have hok : SbOk fs.geo fs.primary := by
    rw [h.primary_eq]
    exact (checkSb_eq_ok.1 h.sb).1
  have hfeatures := hf.features (b := fs.primary) (by
    rw [h.length_primary, Off.featuresIncompat]
    omega)
  exact h.again hread (hok.sbToDisk_edit fs.valid hf h.length_primary)
    (fun i hi => hf.byteAt_sbToDisk hi) (by rw [be32_sbToDisk_features, hfeatures])

end Open

/-! ### The log clear as one write -/

namespace Fs

/-- What the clear of a log of `bbs` blocks leaves from the log's start on. -/
def cleared (fs : Fs) (uuid : Uuid) (cycle bbs : ℕ) : Buf :=
  if cycle = initCycle then
    fs.firstStream uuid ++ List.replicate (bbs * bbsize - (fs.firstStream uuid).length) 0
  else fs.clearStream uuid cycle bbs

/-- How many bytes that are. -/
def clearedLen (g : Geo) (bbs cycle : ℕ) : ℕ :=
  let n := firstLen g.logsunit * bbsize
  if cycle = initCycle then
    max (n + (roundup (n - whole n) g.blocksize - (n - whole n))) (bbs * bbsize)
  else max n (512 * bbsize) + (bbs - 512) * bbsize

/-- The clear at `cycle` goes through: the device holds what it writes, and past the first cycle
no single block is left over for the chain. -/
def Clears (fs : Fs) (dev : Device) (start bbs cycle : ℕ) : Prop :=
  start + clearedLen fs.geo bbs cycle ≤ dev.size ∧
    (cycle = initCycle ∨ firstLen fs.geo.logsunit ≤ bbs ∧ bbs % 512 ≠ 1)

end Fs

section Clear

variable {dev : Device} {d d' : Disk} {fs : Fs} {uuid : Uuid} {start bbs cycle : ℕ}

/-- A write over the front of another. -/
lemma Disk.put_put_over {off : ℕ} {b c : Buf} :
    (d.put off b).put off c = d.put off (c ++ b.drop c.length) := by
  have hlen : (c ++ b.drop c.length).length = max c.length b.length := by
    rw [List.length_append, List.length_drop]
    omega
  ext1
  · funext a
    by_cases hc : off ≤ a ∧ a < off + c.length
    · rw [Disk.bytes_put_of_mem hc.1 hc.2, Disk.bytes_put_of_mem hc.1 (by omega),
        byteAt_append_left (by omega)]
    · rw [Disk.bytes_put_of_not_mem (by omega)]
      by_cases hb : off ≤ a ∧ a < off + b.length
      · rw [Disk.bytes_put_of_mem hb.1 hb.2, Disk.bytes_put_of_mem hb.1 (by omega),
          byteAt_append_right (by omega), byteAt_drop]
        congr 1
        omega
      · rw [Disk.bytes_put_of_not_mem (by omega), Disk.bytes_put_of_not_mem (by omega)]
  · funext a
    rw [Disk.written_put, Disk.written_put, Disk.written_put, Bool.or_assoc, ← Bool.decide_or,
      hlen]
    congr 1
    exact decide_eq_decide.2 (by omega)
  · rfl

lemma length_firstStream : (fs.firstStream uuid).length =
    Fs.firstLen fs.geo.logsunit * bbsize + (roundup (Fs.firstLen fs.geo.logsunit * bbsize -
      whole (Fs.firstLen fs.geo.logsunit * bbsize)) fs.geo.blocksize -
        (Fs.firstLen fs.geo.logsunit * bbsize - whole (Fs.firstLen fs.geo.logsunit * bbsize))) := by
  rw [Fs.firstStream, List.length_append, List.length_replicate, length_firstRecord]

/-- The bytes a clear leaves, counted. -/
lemma length_cleared (h : cycle = initCycle ∨ (bbs - 512) % 512 ≠ 1) :
    (fs.cleared uuid cycle bbs).length = Fs.clearedLen fs.geo bbs cycle := by
  rw [Fs.cleared, Fs.clearedLen]
  by_cases hc : cycle = initCycle
  · rw [if_pos hc]
    rw [if_pos hc, List.length_append, List.length_replicate, length_firstStream]
    omega
  · rw [if_neg hc]
    rw [if_neg hc, length_clearStream_eq, if_neg (h.resolve_left hc)]

lemma Written.eq_ok_iff {S : Buf} {r : Except (Fault Error) Unit × Disk}
    (h : Written dev d start S r) :
    r = (.ok (), d') ↔ S.length ≤ dev.size - start ∧ d' = d.put start S := by
  rw [Written] at h
  split_ifs at h with hroom
  · rw [h, Prod.mk.injEq]
    exact ⟨fun hr => ⟨hroom, hr.2.symm⟩, fun hr => ⟨rfl, hr.2.symm⟩⟩
  · obtain ⟨e, rfl⟩ := h
    exact ⟨fun hr => (by cases hr), fun hr => absurd hr.1 hroom⟩

/-- **The log clear is one write**: it goes through or not whatever is on the disk, and what it
leaves does not depend on that either. -/
theorem run_clearLog_eq_ok (hd : d.Healthy) (hext : fs.geo.logExtent = .ok (start, bbs))
    (hn : totalRecBbs ≤ bbs) (hc : 1 ≤ cycle) :
    dev.run (fs.clearLog uuid cycle) d = (.ok (), d') ↔
      fs.Clears dev start bbs cycle ∧ d' = d.put start (fs.cleared uuid cycle bbs) := by
  have ht := totalRecBbs_eq
  have hbytes : 0 < bbs * bbsize := Nat.mul_pos (by omega) (by decide)
  rw [Fs.Clears]
  by_cases hinit : cycle = initCycle
  · have hlen : (fs.cleared uuid cycle bbs).length = Fs.clearedLen fs.geo bbs cycle :=
      length_cleared (.inl hinit)
    have hcleared : fs.cleared uuid cycle bbs = fs.firstStream uuid ++
        List.replicate (bbs * bbsize - (fs.firstStream uuid).length) 0 := if_pos hinit
    have hput : (d.put start (List.replicate (bbs * bbsize) 0)).put start (fs.firstStream uuid) =
        d.put start (fs.cleared uuid cycle bbs) := by
      rw [Disk.put_put_over, List.drop_replicate, hcleared]
    rw [← hlen, hcleared, List.length_append, List.length_replicate, ← hcleared, ← hput, hinit]
    rcases Nat.lt_or_ge dev.size (start + bbs * bbsize) with hout | hfits
    · obtain ⟨e, he⟩ := run_clearLog_outOfBounds dev uuid hd hext hout
      rw [he]
      exact ⟨fun h => (by cases h), fun h => absurd h.1.1 (by omega)⟩
    · rw [(run_clearLog_first dev uuid hd hext hfits).eq_ok_iff]
      exact ⟨fun h => ⟨⟨by omega, .inl rfl⟩, h.2⟩, fun h => ⟨by have := h.1.1; omega, h.2⟩⟩
  · have hnext : 1 < cycle := lt_of_le_of_ne hc (Ne.symm hinit)
    have hcleared : fs.cleared uuid cycle bbs = fs.clearStream uuid cycle bbs := if_neg hinit
    rcases Nat.lt_or_ge bbs (Fs.firstLen fs.geo.logsunit) with hshort | hfirst
    · rw [run_clearLog_short hext hnext hshort]
      exact ⟨fun h => (by cases h), fun h => absurd (h.1.2.resolve_left hinit).1 (by omega)⟩
    have hrun := run_clearLog_next dev uuid hd hext hnext hfirst (by omega)
    by_cases hodd : bbs % 512 = 1
    · obtain ⟨e, he⟩ := hrun.1 hodd
      rw [he]
      exact ⟨fun h => (by cases h), fun h => absurd hodd (h.1.2.resolve_left hinit).2⟩
    · have hlen : (fs.cleared uuid cycle bbs).length = Fs.clearedLen fs.geo bbs cycle :=
        length_cleared (.inr (by omega))
      have hpos : 0 < (fs.cleared uuid cycle bbs).length := by
        rw [hlen, Fs.clearedLen]
        rw [if_neg hinit, bbsize]
        omega
      rw [(hrun.2 hodd).eq_ok_iff, ← hlen, ← hcleared]
      exact ⟨fun h => ⟨⟨by omega, .inr ⟨hfirst, hodd⟩⟩, h.2⟩,
        fun h => ⟨by have := h.1.1; omega, h.2⟩⟩

end Clear

/-! ### The operations -/

/-- `setUuid` up to the point where the log is rewritten and flushed and the superblocks of `k`
AGs are written: what a run that is interrupted there has done. -/
def setUuidTo (dev : Device) (uuid : Uuid) (k : ℕ) : DevM Fs := do
  let fs ← openFs dev
  let reader ← Prog.ofExcept (LogReader.new fs.geo)
  let state ← reader.findTail
  if state.dirty then Prog.fail (.error (dirtyLog state))
  else do
    let cycle ← Prog.ofExcept (fit 32 (state.cycle + 1))
    fs.clearLog uuid cycle
    flush
    eachAg (rewriteSb fs (withUuid uuid fs.metaUuid)) 0 (min k fs.geo.agcount)
    return fs

lemma eachAg_add (f : ℕ → DevM Unit) (agno m n : ℕ) :
    eachAg f agno (m + n) = eachAg f agno m >>= fun _ => eachAg f (agno + m) n := by
  induction m generalizing agno with
  | zero => rw [Nat.zero_add]; rfl
  | succ m ih =>
      rw [Nat.add_right_comm, eachAg, eachAg, bind_assoc, ih (agno + 1), Nat.add_right_comm agno,
        Nat.add_assoc agno]

/-- **A UUID change goes on from any such point.** -/
lemma setUuid_eq_to (dev : Device) (uuid : Uuid) (k : ℕ) : setUuid dev uuid = (do
    let fs ← setUuidTo dev uuid k
    eachAg (rewriteSb fs (withUuid uuid fs.metaUuid)) (min k fs.geo.agcount)
      (fs.geo.agcount - min k fs.geo.agcount)
    flush) := by
  rw [setUuid, setUuidTo, bind_assoc]
  refine congrArg _ (funext fun fs => ?_)
  rw [bind_assoc]
  refine congrArg _ (funext fun reader => ?_)
  rw [bind_assoc]
  refine congrArg _ (funext fun state => ?_)
  split
  · rfl
  · have hloop : eachAg (rewriteSb fs (withUuid uuid fs.metaUuid)) 0 fs.geo.agcount =
        eachAg (rewriteSb fs (withUuid uuid fs.metaUuid)) 0 (min k fs.geo.agcount) >>= fun _ =>
          eachAg (rewriteSb fs (withUuid uuid fs.metaUuid)) (min k fs.geo.agcount)
            (fs.geo.agcount - min k fs.geo.agcount) := by
      have hsum : fs.geo.agcount =
          min k fs.geo.agcount + (fs.geo.agcount - min k fs.geo.agcount) := by omega
      have hadd := eachAg_add (rewriteSb fs (withUuid uuid fs.metaUuid)) 0 (min k fs.geo.agcount)
        (fs.geo.agcount - min k fs.geo.agcount)
      rwa [← hsum, Nat.zero_add] at hadd
    rw [hloop]
    simp only [bind_assoc, pure_bind]

section Runs

variable {dev : Device} {d d' : Disk} {fs fs' : Fs} {uuid : Uuid} {start bbs cycle k : ℕ}

/-- Whether the log is found clean, on a healthy disk that opens. -/
lemma cleanAt_iff (hd : d.Healthy) (hopen : Opened dev d fs) {r : LogReader}
    (hr : LogReader.new fs.geo = .ok r) : CleanAt dev d cycle ↔
      ∃ s, dev.run r.findTail d = (.ok s, d) ∧ s.dirty = false ∧ s.cycle + 1 = cycle ∧
        cycle < 2 ^ 32 := by
  have hsame := run_quiet_healthy dev (findTail_quiet r) hd
  rw [CleanAt, hd.heal_eq, run_logState hd hopen hr]
  refine exists_congr fun s => and_congr_left fun _ => ⟨fun h => Prod.ext h hsame, fun h => ?_⟩
  rw [h]

/-- When the log is rewritten and flushed and the first superblocks are written, and what that
leaves. -/
lemma run_clearSome_eq_ok {n : ℕ} (hd : d.Healthy) (hext : fs.geo.logExtent = .ok (start, bbs))
    (hn : totalRecBbs ≤ bbs) (hc : 1 ≤ cycle) :
    dev.run (do
      fs.clearLog uuid cycle
      flush
      eachAg (rewriteSb fs (withUuid uuid fs.metaUuid)) 0 n
      return fs) d = (.ok fs', d') ↔ fs' = fs ∧ fs.Clears dev start bbs cycle ∧
        (∀ i < n, Readable dev (d.put start (fs.cleared uuid cycle bbs)) fs.geo i) ∧
        d' = editAgs fs.geo (withUuid uuid fs.metaUuid) 0 n
          (d.put start (fs.cleared uuid cycle bbs)) := by
  have hlen : ∀ b, (withUuid uuid fs.metaUuid b).length = b.length := fun _ => length_withUuid
  have hput : (d.put start (fs.cleared uuid cycle bbs)).Healthy := Disk.put_healthy.2 hd
  rw [Device.run_bind_eq_ok]
  constructor
  · rintro ⟨_, t, hclear, h⟩
    obtain ⟨hclears, rfl⟩ := (run_clearLog_eq_ok hd hext hn hc).1 hclear
    rw [Device.run_bind_ok (Device.run_flush hput), Device.run_bind_eq_ok] at h
    obtain ⟨_, t, hloop, h⟩ := h
    obtain ⟨hall, rfl⟩ := (run_eachAg_eq_ok hput hlen).1 hloop
    obtain ⟨hfs, hd'⟩ := Prod.mk.inj h
    exact ⟨(Except.ok.inj hfs).symm, hclears, fun i hi => hall i (Nat.zero_le i) (by omega),
      hd'.symm⟩
  · rintro ⟨rfl, hclears, hall, rfl⟩
    refine ⟨(), _, (run_clearLog_eq_ok hd hext hn hc).2 ⟨hclears, rfl⟩, ?_⟩
    rw [Device.run_bind_ok (Device.run_flush hput)]
    exact Device.run_bind_ok ((run_eachAg_eq_ok hput hlen).2 ⟨fun i _ hi => hall i (by omega), rfl⟩)

/-- **When a UUID change comes to the `k`-th superblock**, and what it has done by then. -/
theorem run_setUuidTo_eq_ok (hd : d.Healthy) (hopen : Opened dev d fs) :
    dev.run (setUuidTo dev uuid k) d = (.ok fs', d') ↔ fs' = fs ∧
      ∃ start bbs cycle, fs.geo.logExtent = .ok (start, bbs) ∧ CleanAt dev d cycle ∧
        fs.Clears dev start bbs cycle ∧
        (∀ i < min k fs.geo.agcount,
          Readable dev (d.put start (fs.cleared uuid cycle bbs)) fs.geo i) ∧
        d' = editAgs fs.geo (withUuid uuid fs.metaUuid) 0 (min k fs.geo.agcount)
          (d.put start (fs.cleared uuid cycle bbs)) := by
  have hwhen : setUuidTo dev uuid k = whenClean dev fun fs cycle => (do
      fs.clearLog uuid cycle
      flush
      eachAg (rewriteSb fs (withUuid uuid fs.metaUuid)) 0 (min k fs.geo.agcount)
      return fs) := rfl
  rw [hwhen]
  rcases run_whenClean hd hopen _ with ⟨cycle, hc, hrun⟩ | ⟨hnone, e, hrun⟩
  · obtain ⟨start, bbs, hext, hn⟩ := hc.extent hopen
    rw [hrun, run_clearSome_eq_ok hd hext hn hc.pos]
    refine and_congr_right fun _ => ⟨fun h => ⟨start, bbs, cycle, hext, hc, h⟩, ?_⟩
    rintro ⟨_, _, _, hext', hc', h⟩
    rw [hext] at hext'
    cases hext'
    rwa [hc.unique hc']
  · rw [hrun]
    refine ⟨fun h => (by cases h), ?_⟩
    rintro ⟨_, _, _, cycle, _, hc, _⟩
    exact absurd hc (hnone cycle)

/-- **When a UUID change succeeds**, and what it leaves. -/
theorem run_setUuid_eq_ok (hd : d.Healthy) (hopen : Opened dev d fs) :
    dev.run (setUuid dev uuid) d = (.ok (), d') ↔
      ∃ start bbs cycle, fs.geo.logExtent = .ok (start, bbs) ∧ CleanAt dev d cycle ∧
        fs.Clears dev start bbs cycle ∧
        (∀ i < fs.geo.agcount,
          Readable dev (d.put start (fs.cleared uuid cycle bbs)) fs.geo i) ∧
        d' = editAgs fs.geo (withUuid uuid fs.metaUuid) 0 fs.geo.agcount
          (d.put start (fs.cleared uuid cycle bbs)) := by
  have hto : ∀ t, dev.run (setUuidTo dev uuid fs.geo.agcount) d = (.ok fs, t) ↔ _ := fun t =>
    run_setUuidTo_eq_ok hd hopen
  simp only [min_self, true_and] at hto
  rw [setUuid_eq_to dev uuid fs.geo.agcount, Device.run_bind_eq_ok]
  constructor
  · rintro ⟨fs₁, t, hrun, h⟩
    obtain ⟨rfl, _⟩ := (run_setUuidTo_eq_ok hd hopen).1 hrun
    obtain ⟨start, bbs, cycle, hext, hclean, hclears, hall, rfl⟩ := (hto t).1 hrun
    have ht : (editAgs fs₁.geo (withUuid uuid fs₁.metaUuid) 0 fs₁.geo.agcount
        (d.put start (fs₁.cleared uuid cycle bbs))).Healthy :=
      editAgs_healthy.2 (Disk.put_healthy.2 hd)
    rw [min_self, Nat.sub_self, eachAg, pure_bind, Device.run_flush ht] at h
    exact ⟨start, bbs, cycle, hext, hclean, hclears, hall, (congrArg Prod.snd h).symm⟩
  · rintro ⟨start, bbs, cycle, hext, hclean, hclears, hall, rfl⟩
    refine ⟨fs, _, (hto _).2 ⟨start, bbs, cycle, hext, hclean, hclears, hall, rfl⟩, ?_⟩
    rw [min_self, Nat.sub_self, eachAg, pure_bind]
    exact Device.run_flush (editAgs_healthy.2 (Disk.put_healthy.2 hd))

/-- The superblock with the label `label`. -/
def withLabel (label : String) (b : Buf) : Buf :=
  splice b Off.fname (padLabel label.toUTF8.toList)

/-- A label that can be set. -/
def LabelOk (label : String) : Prop := label.utf8ByteSize ≤ labelMax ∧ '\x00' ∉ label.toList

lemma LabelOk.length_pad {label : String} (h : LabelOk label) :
    (padLabel label.toUTF8.toList).length = 12 :=
  length_padLabel ((length_toUTF8 label).trans_le h.1)

lemma sbEdit_withLabel {label : String} (h : LabelOk label) : SbEdit (withLabel label) :=
  sbEdit_label h.length_pad

/-- **When a label is set**, and what that leaves. -/
theorem run_setLabel_eq_ok {label : String} (hd : d.Healthy) (hopen : Opened dev d fs) :
    dev.run (setLabel dev label) d = (.ok (), d') ↔ LabelOk label ∧
      (∀ i < fs.geo.agcount, Readable dev d fs.geo i) ∧
      d' = editAgs fs.geo (withLabel label) 0 fs.geo.agcount d := by
  have hlen : ∀ b, (withLabel label b).length = b.length := fun _ => length_splice
  by_cases hlabel : LabelOk label
  · have hcheck : refuseIf (label.utf8ByteSize > labelMax ∨ '\x00' ∈ label.toList)
        (badLabel label) = .ok () := refuseIf_of_not (by
      rintro (h | h)
      · exact absurd hlabel.1 (by omega)
      · exact hlabel.2 h)
    rw [setLabel, hcheck, ofExcept_ok_bind, Device.run_bind_ok (run_openFs hd hopen)]
    dsimp only
    rw [Device.run_bind_eq_ok]
    constructor
    · rintro ⟨_, t, hloop, h⟩
      obtain ⟨hall, rfl⟩ := (run_eachAg_eq_ok (f := withLabel label) hd hlen).1 hloop
      rw [Device.run_flush (editAgs_healthy.2 hd)] at h
      exact ⟨hlabel, fun i hi => hall i (Nat.zero_le i) (by omega), (congrArg Prod.snd h).symm⟩
    · rintro ⟨_, hall, rfl⟩
      refine ⟨(), _, (run_eachAg_eq_ok (f := withLabel label) hd hlen).2
        ⟨fun i _ hi => hall i (by omega), rfl⟩, ?_⟩
      exact Device.run_flush (editAgs_healthy.2 hd)
  · have hcheck : refuseIf (label.utf8ByteSize > labelMax ∨ '\x00' ∈ label.toList)
        (badLabel label) = .error (.error (badLabel label)) := if_pos (by
      by_contra h
      rw [not_or, not_lt] at h
      exact hlabel h)
    rw [setLabel, hcheck]
    exact ⟨fun h => (by cases h), fun h => absurd h.1 hlabel⟩

end Runs

/-! ### One filesystem, opened twice -/

/-- The filesystems have one geometry, the incompat features apart. -/
def Fs.Alike (fs₁ fs : Fs) : Prop := ∃ x, fs₁.geo = { fs.geo with incompat := x }

section Alike

variable {dev : Device} {d d' : Disk} {fs fs₁ : Fs} {g : Geo} {f : Buf → Buf} {uuid : Uuid}
  {agno n x : ℕ}

lemma editAgs_incompat :
    editAgs { g with incompat := x } f agno n d = editAgs g f agno n d := by
  induction n generalizing agno d with
  | zero => rfl
  | succ n ih =>
      rw [editAgs, editAgs, ih, Geo.headAt, Geo.headAt, Fs.sbToDisk_eq, Fs.sbToDisk_eq]

lemma readable_incompat :
    Readable dev d { g with incompat := x } agno ↔ Readable dev d g agno := by
  rw [Readable, Readable, SbOk, SbOk, Geo.headAt, Geo.headAt]

lemma Fs.Alike.refl (fs : Fs) : fs.Alike fs := ⟨fs.geo.incompat, rfl⟩

/-- An edited filesystem is like the one before. -/
lemma Fs.edited_alike (fs : Fs) (f : Buf → Buf) : (fs.edited f).Alike fs := ⟨_, rfl⟩

/-- **A UUID change of a filesystem opened again**, in the terms of its first opening. -/
theorem run_setUuid_alike (hd : d.Healthy) (hopen : Opened dev d fs₁) (h : fs₁.Alike fs) :
    dev.run (setUuid dev uuid) d = (.ok (), d') ↔
      ∃ start bbs cycle, fs.geo.logExtent = .ok (start, bbs) ∧ CleanAt dev d cycle ∧
        fs.Clears dev start bbs cycle ∧
        (∀ i < fs.geo.agcount,
          Readable dev (d.put start (fs.cleared uuid cycle bbs)) fs.geo i) ∧
        d' = editAgs fs.geo (withUuid uuid fs₁.metaUuid) 0 fs.geo.agcount
          (d.put start (fs.cleared uuid cycle bbs)) := by
  rw [run_setUuid_eq_ok hd hopen]
  obtain ⟨geo, primary, valid⟩ := fs₁
  obtain ⟨x, hx⟩ := h
  dsimp only at hx
  subst hx
  refine exists_congr fun start => exists_congr fun bbs => exists_congr fun cycle => ?_
  have hext : Geo.logExtent { fs.geo with incompat := x } = fs.geo.logExtent := by
    rw [Geo.logExtent, Geo.logExtent]
  have hcleared : Fs.cleared ⟨{ fs.geo with incompat := x }, primary, valid⟩ uuid cycle bbs =
      fs.cleared uuid cycle bbs := by
    rw [Fs.cleared, Fs.cleared, Fs.firstStream, Fs.firstStream, Fs.clearStream, Fs.clearStream,
      Fs.firstRecord, Fs.firstRecord, Fs.firstRecord, Fs.firstRecord]
  have hclears : Fs.Clears ⟨{ fs.geo with incompat := x }, primary, valid⟩ dev start bbs cycle ↔
      fs.Clears dev start bbs cycle := by
    rw [Fs.Clears, Fs.Clears, Fs.clearedLen, Fs.clearedLen]
  dsimp only
  rw [hext, hcleared, hclears, editAgs_incompat]
  simp only [readable_incompat]

/-- A label set on a filesystem opened again. -/
theorem run_setLabel_alike {label : String} (hd : d.Healthy) (hopen : Opened dev d fs₁)
    (h : fs₁.Alike fs) : dev.run (setLabel dev label) d = (.ok (), d') ↔ LabelOk label ∧
      (∀ i < fs.geo.agcount, Readable dev d fs.geo i) ∧
      d' = editAgs fs.geo (withLabel label) 0 fs.geo.agcount d := by
  rw [run_setLabel_eq_ok hd hopen]
  obtain ⟨geo, primary, valid⟩ := fs₁
  obtain ⟨x, hx⟩ := h
  dsimp only at hx
  subst hx
  dsimp only
  rw [editAgs_incompat]
  simp only [readable_incompat]

/-- A filesystem opens as before where its first block is as it was. -/
lemma Opened.of_head (h : Opened dev d fs)
    (hread : d'.readBuf 0 fs.geo.blocksize = d.readBuf 0 fs.geo.blocksize) : Opened dev d' fs := by
  have hblock := fs.valid.blocksize_ge
  have hroom := h.block_le
  have hbyte : ∀ i < 512, d'.bytes (0 + i) = d.bytes (0 + i) := fun i hi => by
    have hi' := congrArg (byteAt · i) hread
    rwa [Disk.byteAt_readBuf (by omega), Disk.byteAt_readBuf (by omega)] at hi'
  have hsector : 512 ≤ min (max dev.logicalSectorSize 512) dev.size := by omega
  have hparse := Geo.parse_edited
    (c := d'.readBuf 0 (min (max dev.logicalSectorSize 512) dev.size))
    (by rwa [Disk.length_readBuf]) (by rwa [Disk.length_readBuf]) (fun i hi _ => by
      rw [Disk.byteAt_readBuf (by omega), Disk.byteAt_readBuf (by omega), hbyte i hi]) h.parsed
  have hfield : be32 (d'.readBuf 0 (min (max dev.logicalSectorSize 512) dev.size))
      Off.featuresIncompat = fs.geo.incompat := by
    have hgeo := ((Geo.parse_eq_ok_iff (by rwa [Disk.length_readBuf])).1 h.parsed).2.1
    rw [hgeo, Geo.ofBytes]
    refine be32_congr fun k hk => ?_
    rw [Disk.byteAt_readBuf (by rw [Off.featuresIncompat]; omega),
      Disk.byteAt_readBuf (by rw [Off.featuresIncompat]; omega),
      hbyte _ (by rw [Off.featuresIncompat]; omega)]
  rw [hfield] at hparse
  exact {
    parsed := hparse
    block_le := h.block_le
    sb := by rw [hread]; exact h.sb
    features := h.features }

end Alike

/-! ### The log found clean -/

section Clean

variable {dev : Device} {d d' : Disk} {fs fs₁ : Fs} {uuid : Uuid} {start bbs cycle cycle' : ℕ}

/-- With a stripe unit of at most a full record the clear writes the log. -/
lemma clearedLen_eq {g : Geo} (hg : g.Valid) (hsunit : g.logsunit ≤ 262144) (hbbs : 512 ≤ bbs) :
    Fs.clearedLen g bbs cycle = bbs * bbsize := by
  have hle := Log.recordLen_le hsunit
  have hpos := hg.blocksize_ge
  have hshort : Fs.firstLen g.logsunit * bbsize ≤ 512 * bbsize := by
    rw [firstLen_eq]
    exact Nat.mul_le_mul_right _ hle
  have hfull : 512 * bbsize ≤ bbs * bbsize := Nat.mul_le_mul_right _ hbbs
  have hwhole : whole (Fs.firstLen g.logsunit * bbsize) = 0 :=
    whole_eq_of_lt (by decide) (Nat.zero_le _) (hshort.trans_lt (by decide))
  have hround := roundup_le (by omega) (hg.blocksize_dvd.trans ⟨4, rfl⟩ :
    g.blocksize ∣ 512 * bbsize) hshort
  rw [Fs.clearedLen]
  split_ifs
  · rw [hwhole, Nat.sub_zero]
    omega
  · rw [max_eq_right hshort, ← Nat.add_mul, Nat.add_sub_cancel' hbbs]

lemma Fs.Alike.logExtent_eq (h : fs₁.Alike fs) : fs₁.geo.logExtent = fs.geo.logExtent := by
  obtain ⟨x, hx⟩ := h
  rw [hx, Geo.logExtent, Geo.logExtent]

/-- Whether the log is found clean is told by its blocks. -/
lemma cleanAt_iff_eval {log : ℕ → Buf} (hd : d.Healthy) (hopen : Opened dev d fs₁)
    (h : fs₁.Alike fs) (hext : fs.geo.logExtent = .ok (start, bbs)) (hn : totalRecBbs ≤ bbs)
    (hfits : start + bbs * bbsize ≤ dev.size)
    (hlog : ∀ p < bbs, d.readBuf (start + p * bbsize) bbsize = log p) :
    CleanAt dev d cycle ↔ ∃ s, (Log.findTail bbs).eval log = .ok s ∧ s.dirty = false ∧
      s.cycle + 1 = cycle ∧ cycle < 2 ^ 32 := by
  have hnew : LogReader.new fs₁.geo = .ok ⟨start, bbs, hn⟩ :=
    LogReader.new_eq_ok.2 (h.logExtent_eq.trans hext)
  rw [cleanAt_iff hd hopen hnew, LogReader.run_findTail hn hd hfits hlog]
  refine exists_congr fun s => and_congr_left fun _ => ?_
  rw [Prod.mk.injEq, and_iff_left rfl]

/-- A change elsewhere leaves the log clean. -/
lemma cleanAt_congr {fs₂ : Fs} (hd : d.Healthy) (hd' : d'.Healthy) (hopen : Opened dev d fs₁)
    (hopen' : Opened dev d' fs₂) (h : fs₁.Alike fs) (h' : fs₂.Alike fs)
    (hext : fs.geo.logExtent = .ok (start, bbs)) (hn : totalRecBbs ≤ bbs)
    (hfits : start + bbs * bbsize ≤ dev.size)
    (hbytes : ∀ a, start ≤ a → a < start + bbs * bbsize → d'.bytes a = d.bytes a) :
    CleanAt dev d' cycle ↔ CleanAt dev d cycle := by
  have hblock : ∀ p < bbs, d'.readBuf (start + p * bbsize) bbsize =
      d.readBuf (start + p * bbsize) bbsize := fun p hp => by
    have hle : (p + 1) * bbsize ≤ bbs * bbsize := Nat.mul_le_mul_right _ hp
    rw [Nat.succ_mul] at hle
    exact Disk.readBuf_congr fun a hl hr => hbytes a (by omega) (by omega)
  rw [cleanAt_iff_eval hd' hopen' h' hext hn hfits hblock,
    cleanAt_iff_eval hd hopen h hext hn hfits fun _ _ => rfl]

/-- A log of zeroes is clean, in no cycle yet. -/
lemma cleanAt_zeroed (hd : d.Healthy) (hopen : Opened dev d fs)
    (hext : fs.geo.logExtent = .ok (start, bbs)) (hn : totalRecBbs ≤ bbs)
    (hfits : start + bbs * bbsize ≤ dev.size)
    (hzero : ∀ a, start ≤ a → a < start + bbs * bbsize → d.bytes a = 0) : CleanAt dev d 1 := by
  have hblock : ∀ p < bbs, d.readBuf (start + p * bbsize) bbsize = Log.zeroBlock := fun p hp => by
    have hle : (p + 1) * bbsize ≤ bbs * bbsize := Nat.mul_le_mul_right _ hp
    rw [Nat.succ_mul] at hle
    refine List.eq_replicate_iff.2 ⟨by rw [Disk.length_readBuf], fun x hx => ?_⟩
    obtain ⟨i, hi, rfl⟩ := List.mem_map.1 hx
    have := List.mem_range.1 hi
    exact hzero _ (by omega) (by omega)
  have hcycle : Log.cycleOf Log.zeroBlock = 0 := by decide
  rw [cleanAt_iff_eval hd hopen (.refl fs) hext hn hfits hblock]
  refine ⟨⟨0, 0, 0⟩, ?_, rfl, rfl, by decide⟩
  have hhead : (Log.findHead bbs).eval (fun _ => Log.zeroBlock) = .ok 0 := by
    rw [Log.findHead, Log.findZeroed, Prog.eval_bind, Prog.eval_bind, Log.eval_cycle, ok_bind,
      hcycle]
    rfl
  rw [Log.findTail, Prog.eval_bind, hhead, ok_bind, Log.zeroedAt, if_pos rfl, Prog.eval_bind,
    Prog.eval_bind, Log.eval_cycle, ok_bind, hcycle]
  rfl

/-- A filesystem opens as before when its log is cleared. -/
lemma Opened.put_log (h : Opened dev d fs) (hext : fs.geo.logExtent = .ok (start, bbs)) {b : Buf} :
    Opened dev (d.put start b) fs := by
  have hstart := start_ge fs.valid h.logstart_ne hext
  exact h.of_head (Disk.readBuf_put_of_disjoint (.inl (by omega)))

/-- **A log cleared at `cycle` is found clean there**, and is next cleared one cycle on. -/
lemma cleanAt_cleared (hd : d.Healthy) (hopen : Opened dev d fs)
    (hext : fs.geo.logExtent = .ok (start, bbs)) (hn : totalRecBbs ≤ bbs)
    (hsunit : fs.geo.logsunit ≤ 262144) (hclears : fs.Clears dev start bbs cycle)
    (hc : 1 ≤ cycle) (hmagic : cycle < Log.headerMagic) :
    CleanAt dev (d.put start (fs.cleared uuid cycle bbs)) (cycle + 1) := by
  have hd' : (d.put start (fs.cleared uuid cycle bbs)).Healthy := Disk.put_healthy.2 hd
  obtain ⟨s, hfind, -, hdirty, hcycle⟩ := clearLog_findTail hext hn hsunit uuid hc hmagic
    ((run_clearLog_eq_ok hd hext hn hc).2 ⟨hclears, rfl⟩) hd'
  have hmax : Log.headerMagic < 2 ^ 32 := by decide
  exact (cleanAt_iff hd' (hopen.put_log hext) (LogReader.new_eq_ok.2 hext)).2
    ⟨s, hfind, hdirty, by rw [hcycle], by omega⟩

end Clean

end MkfsXfs
