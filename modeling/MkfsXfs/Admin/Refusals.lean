import MkfsXfs.Admin.Open

/-!
Refusals: an operation that refuses has changed nothing, except that a secondary superblock
is only checked when its turn comes.

* `Error.Late`: the refusals that can come after a write, a secondary superblock without its
  magic or with a bad CRC, and a log record too short to be written.
* `RefusesAtomically`: on every disk, an operation that ends in a refusal of the other kinds
  leaves the bytes as they were.
* `setUuid_refusal`, `restoreUuid_refusal`, `setLabel_refusal`: each operation ends unchanged,
  or after a failed device operation, a panic or a late refusal.
* `refusals_atomic`: so every refusal but the late ones is atomic; `setLabel_not_atomic` is a
  late one.
-/

namespace MkfsXfs

open Checked Sb

/-! ### The late refusals -/

/-- The error of a superblock without its magic. -/
def noMagic (agno : ℕ) : Error := .corrupt s!"AG {agno} superblock: no XFSB magic"

/-- The error of a superblock whose checksum is wrong. -/
def badCrc (agno : ℕ) : Error := .corrupt s!"AG {agno} superblock: bad CRC"

/-- The refusal names the superblock of a secondary AG, or a record too short for what is
left of the log: it can come after a write. -/
def Error.Late (e : Error) : Prop :=
  (∃ agno, 0 < agno ∧ (e = noMagic agno ∨ e = badCrc agno)) ∨ ∃ n, e = shortRecord n

/-- Whenever the program ends in a refusal that is not `late`, the disk's bytes are as they
were before. -/
def RefusesAtomically {α : Type} (dev : Device) (p : DevM α) (late : Error → Prop) : Prop :=
  ∀ d e, (dev.run p d).1 = .error (.error e) → e.Refusal → ¬ late e →
    (dev.run p d).2.bytes = d.bytes

/-- How a run can end after its first write: in a failed operation, a panic, or a late
refusal. -/
def AfterWrite (f : Fault Error) : Prop := ∀ e, f = .error e → e.Refusal → e.Late

lemma AfterWrite.panic : AfterWrite .panic := fun _ h => by cases h

lemma AfterWrite.late {e : Error} (h : e.Late) : AfterWrite (.error e) := fun e' he _ => by
  cases he
  exact h

lemma AfterWrite.device {f : Fault Error} (h : DeviceFault f) : AfterWrite f := by
  obtain ⟨e, rfl, hne⟩ := h
  intro e' he hr
  cases he
  exact absurd hr hne

lemma AfterWrite.shortRecord (n : ℕ) : AfterWrite (.error (shortRecord n)) :=
  .late (.inr ⟨n, rfl⟩)

lemma checkSb_error {g : Geo} {agno : ℕ} {b : Buf} {f : Fault Error}
    (h : checkSb g agno b = .error f) : f = .error (noMagic agno) ∨ f = .error (badCrc agno) := by
  simp only [checkSb, refuseIf] at h
  split at h
  · cases h
    exact .inl rfl
  · rw [ok_bind] at h
    split at h
    · cases h
      exact .inr rfl
    · cases h

lemma sbOffset_error {g : Geo} {agno : ℕ} {f : Fault Error} (h : g.sbOffset agno = .error f) :
    f = .panic := by
  rw [Geo.sbOffset, fit] at h
  split at h
  · cases h
  · exact (Except.error.inj h).symm

/-! ### The loop over the superblocks -/

section Loop

variable {dev : Device} {d : Disk} {fs : Fs} {f : Buf → Buf}

lemma writeSb_late (fs : Fs) (agno : ℕ) (b : Buf) :
    (fs.writeSb agno b).Safe (fun _ => True) AfterWrite (fun _ => True) :=
  (safe_ofExcept_of (Q := fun _ => True) (fun e he => by
    rw [sbOffset_error he]
    exact .panic) fun _ _ => trivial).bind fun _ _ => safe_writeAt trivial trivial

/-- From the first secondary AG on the loop's own errors are late ones. -/
lemma eachAg_late {agno n : ℕ} (h : 0 < agno) :
    (eachAg (rewriteSb fs f) agno n).Safe (fun _ => True) AfterWrite (fun _ => True) := by
  induction n generalizing agno with
  | zero => trivial
  | succ n ih =>
      have hread : (readSb fs.geo agno).Safe (fun _ => True) AfterWrite (fun _ => True) :=
        (readSb_quiet (fun e he => by
          rw [sbOffset_error he]
          exact .panic) fun b e he => by
            rcases checkSb_error he with rfl | rfl
            · exact .late (.inl ⟨agno, h, .inl rfl⟩)
            · exact .late (.inl ⟨agno, h, .inr rfl⟩)).mono
          (fun _ _ => trivial) (fun _ he => he) fun _ _ => trivial
      have hag : (rewriteSb fs f agno).Safe (fun _ => True) AfterWrite (fun _ => True) :=
        hread.bind fun b _ => writeSb_late fs agno _
      exact hag.bind fun _ _ => ih (Nat.succ_pos agno)

/-- The primary superblock, once read and checked, is read again without a refusal. -/
lemma rewriteSb_zero {e : Fault Error} {p : Buf}
    (hsb : checkSb fs.geo 0 (d.readBuf 0 fs.geo.blocksize) = .ok p)
    (h : (dev.run (rewriteSb fs f 0) d).1 = .error e) : AfterWrite e := by
  rw [rewriteSb] at h
  rcases Device.run_bind_eq_error.1 (Prod.ext h rfl : _ = (Except.error e, _)) with
    hread | ⟨b, t, _, hwrite⟩
  · rcases readSb_eq_error hread with hoff | hf | ⟨offset, hoff, hcheck⟩
    · rw [sbOffset_error hoff]
      exact .panic
    · exact .device hf
    · rw [sbOffset_zero] at hoff
      cases hoff
      rw [hsb] at hcheck
      cases hcheck
  · rcases Device.run_fault (writeSb_late fs 0 (f b)) (congrArg Prod.fst hwrite) with hf | hf
    · exact hf
    · exact .device hf

/-- **A refusal in the loop is a late one**: the primary superblock was checked before. -/
lemma eachAg_refusal {e : Fault Error} {p : Buf} (hpos : 0 < fs.geo.agcount)
    (hsb : checkSb fs.geo 0 (d.readBuf 0 fs.geo.blocksize) = .ok p)
    (h : (dev.run (eachAg (rewriteSb fs f) 0 fs.geo.agcount) d).1 = .error e) :
    AfterWrite e := by
  obtain ⟨n, hn⟩ : ∃ n, fs.geo.agcount = n + 1 := ⟨_, (Nat.succ_pred_eq_of_pos hpos).symm⟩
  rw [hn, eachAg] at h
  rcases Device.run_bind_eq_error.1 (Prod.ext h rfl : _ = (Except.error e, _)) with
    hfirst | ⟨_, t, _, hrest⟩
  · exact rewriteSb_zero hsb (congrArg Prod.fst hfirst)
  · rcases Device.run_fault (eachAg_late Nat.one_pos) (congrArg Prod.fst hrest) with hf | hf
    · exact hf
    · exact .device hf

/-- The flush at the end only fails on the device. -/
lemma flush_refusal {e : Fault Error} (h : (dev.run flush d).1 = .error e) : AfterWrite e := by
  have hsafe : flush.Safe (fun _ => True) (fun _ => False) (fun _ => True) :=
    safe_flush trivial trivial
  rcases Device.run_fault hsafe h with hf | hf
  · exact hf.elim
  · exact .device hf

end Loop

/-! ### The operations -/

section Operations

variable {dev : Device} {d d' : Disk} {f : Fault Error}

/-- The blocks below the log are as they were after the log clear. -/
lemma clearLog_sb {fs : Fs} (uuid : Uuid) (cycle : ℕ) (h : Opened dev d fs) {t : Disk}
    (ht : t.bytes = d.bytes) {start bbs : ℕ} (hext : fs.geo.logExtent = .ok (start, bbs)) :
    (dev.run (fs.clearLog uuid cycle) t).2.readBuf 0 fs.geo.blocksize =
      d.readBuf 0 fs.geo.blocksize := by
  have hstart := start_ge fs.valid h.logstart_ne hext
  have hsafe := clearLog_safe (E := fun _ => True) trivial (fun _ => trivial) fs uuid cycle hext
  refine Disk.readBuf_congr fun a _ ha => ?_
  have hmiss := hsafe.mono (fun op hop => hop a (by omega)) (fun _ he => he) fun _ hq => hq
  rw [(Device.run_untouched hmiss).1, ht]

/-- A UUID change ends with the bytes as they were, or as a run ends after a write. -/
theorem setUuid_refusal (uuid : Uuid) (h : dev.run (setUuid dev uuid) d = (.error f, d')) :
    d'.bytes = d.bytes ∨ AfterWrite f := by
  have hquiet := run_quiet dev d (openFs_quiet dev)
  rw [setUuid] at h
  rcases Device.run_bind_eq_error.1 h with hfail | ⟨fs, t, hopen, h⟩
  · rw [hfail] at hquiet
    exact .inl hquiet.1
  have hopened := openFs_eq_ok hopen
  rw [hopen] at hquiet
  rcases Device.run_bind_eq_error.1 h with hfail | ⟨r, t₁, hnew, h⟩
  · rw [Device.run_monadLift] at hfail
    obtain ⟨_, rfl⟩ := Prod.mk.inj hfail
    exact .inl hquiet.1
  rw [Device.run_monadLift] at hnew
  obtain ⟨hreader, rfl⟩ := Prod.mk.inj hnew
  have hext := LogReader.new_eq_ok.1 hreader
  have hquiet₂ := run_quiet dev t (findTail_quiet r)
  rcases Device.run_bind_eq_error.1 h with hfail | ⟨state, t₂, htail, h⟩
  · rw [hfail] at hquiet₂
    exact .inl (hquiet₂.1.trans hquiet.1)
  rw [htail] at hquiet₂
  have hbytes : t₂.bytes = d.bytes := hquiet₂.1.trans hquiet.1
  split at h
  · cases h
    exact .inl hbytes
  rcases Device.run_bind_eq_error.1 h with hfail | ⟨cycle, t₃, hfit, h⟩
  · rw [Device.run_monadLift] at hfail
    obtain ⟨_, rfl⟩ := Prod.mk.inj hfail
    exact .inl hbytes
  rw [Device.run_monadLift] at hfit
  obtain ⟨_, rfl⟩ := Prod.mk.inj hfit
  right
  rcases Device.run_bind_eq_error.1 h with hfail | ⟨_, t₄, hclear, h⟩
  · rcases Device.run_fault (clearLog_safe AfterWrite.panic AfterWrite.shortRecord fs uuid cycle
      hext) (congrArg Prod.fst hfail) with hf | hf
    · exact hf
    · exact .device hf
  have hsb := clearLog_sb uuid cycle hopened hbytes hext
  rw [hclear] at hsb
  rcases Device.run_bind_eq_error.1 h with hfail | ⟨_, t₅, hflush, h⟩
  · exact flush_refusal (congrArg Prod.fst hfail)
  have hflush₂ := run_quiet dev t₄ (safe_flush (E := fun _ => True) (Q := fun _ => True)
    (G := Quiet) (fun _ => id) trivial)
  rw [hflush] at hflush₂
  have hsb₅ : checkSb fs.geo 0 (t₅.readBuf 0 fs.geo.blocksize) = .ok fs.primary := by
    rw [Disk.readBuf_congr fun a _ _ => congrFun hflush₂.1 a, hsb]
    exact hopened.sb
  rcases Device.run_bind_eq_error.1 h with hfail | ⟨_, t₆, _, h⟩
  · exact eachAg_refusal fs.valid.agcount_pos hsb₅ (congrArg Prod.fst hfail)
  · exact flush_refusal (congrArg Prod.fst h)

/-- So does the UUID given back. -/
theorem restoreUuid_refusal (h : dev.run (restoreUuid dev) d = (.error f, d')) :
    d'.bytes = d.bytes ∨ AfterWrite f := by
  have hquiet := run_quiet dev d (openFs_quiet dev)
  rw [restoreUuid] at h
  rcases Device.run_bind_eq_error.1 h with hfail | ⟨fs, t, hopen, h⟩
  · rw [hfail] at hquiet
    exact .inl hquiet.1
  rw [hopen] at hquiet
  split at h
  · cases h
  rcases Device.run_bind_eq_error.1 h with hfail | ⟨_, t₁, _, h⟩
  · rcases setUuid_refusal fs.metaUuid hfail with hb | hf
    · exact .inl (hb.trans hquiet.1)
    · exact .inr hf
  · cases h

/-- So does a new label. -/
theorem setLabel_refusal (label : String) (h : dev.run (setLabel dev label) d = (.error f, d')) :
    d'.bytes = d.bytes ∨ AfterWrite f := by
  have hquiet := run_quiet dev d (openFs_quiet dev)
  rw [setLabel] at h
  rcases Device.run_bind_eq_error.1 h with hfail | ⟨_, t, hcheck, h⟩
  · rw [Device.run_monadLift] at hfail
    obtain ⟨_, rfl⟩ := Prod.mk.inj hfail
    exact .inl rfl
  rw [Device.run_monadLift] at hcheck
  obtain ⟨_, rfl⟩ := Prod.mk.inj hcheck
  rcases Device.run_bind_eq_error.1 h with hfail | ⟨fs, t, hopen, h⟩
  · rw [hfail] at hquiet
    exact .inl hquiet.1
  have hopened := openFs_eq_ok hopen
  rw [hopen] at hquiet
  right
  have hsb : checkSb fs.geo 0 (t.readBuf 0 fs.geo.blocksize) = .ok fs.primary := by
    rw [Disk.readBuf_congr fun a _ _ => congrFun hquiet.1 a]
    exact hopened.sb
  rcases Device.run_bind_eq_error.1 h with hfail | ⟨_, t₁, _, h⟩
  · exact eachAg_refusal fs.valid.agcount_pos hsb (congrArg Prod.fst hfail)
  · exact flush_refusal (congrArg Prod.fst h)

end Operations

/-- A program that ends unchanged or as after a write refuses atomically but for the late
refusals. -/
lemma RefusesAtomically.of_refusal {α : Type} {dev : Device} {p : DevM α}
    (h : ∀ d d' f, dev.run p d = (.error f, d') → d'.bytes = d.bytes ∨ AfterWrite f) :
    RefusesAtomically dev p Error.Late := by
  intro d e he hr hl
  rcases h d _ _ (Prod.ext he rfl) with hb | hf
  · exact hb
  · exact absurd (hf e rfl hr) hl

/-- **Refusals are atomic but for the late ones**: on every disk, whatever its device
operations do, an operation that ends in a refusal other than that of a secondary superblock
or a short record leaves every byte as it was. -/
theorem refusals_atomic (dev : Device) :
    (∀ uuid, RefusesAtomically dev (setUuid dev uuid) Error.Late) ∧
    RefusesAtomically dev (restoreUuid dev) Error.Late ∧
    ∀ label, RefusesAtomically dev (setLabel dev label) Error.Late :=
  ⟨fun uuid => .of_refusal fun _ _ _ h => setUuid_refusal uuid h,
    .of_refusal fun _ _ _ h => restoreUuid_refusal h,
    fun label => .of_refusal fun _ _ _ h => setLabel_refusal label h⟩

/-! ### A late refusal -/

/-- The second AG's superblock is only found to be missing when the first has the label. -/
theorem setLabel_not_atomic :
    ¬ RefusesAtomically devTwoAgs (setLabel devTwoAgs "x") (fun _ => False) := by
  have hhealthy : diskTwoAgs.Healthy := rfl
  let f : Buf → Buf := fun b => splice b Off.fname (padLabel "x".toUTF8.toList)
  have hlen : (f fsTwoAgs.primary).length = 512 := by simp [f, fsTwoAgs]
  let d₁ : Disk := diskTwoAgs.put 0 (Fs.sbToDisk geoTwoAgs (f fsTwoAgs.primary))
  have hlabel : refuseIf ("x".utf8ByteSize > labelMax ∨ '\x00' ∈ "x".toList) (badLabel "x") =
      .ok () := refuseIf_of_not (by decide +kernel)
  have hfirst : devTwoAgs.run (rewriteSb fsTwoAgs f 0) diskTwoAgs = (.ok (), d₁) :=
    run_rewriteSb hhealthy (sbOffset_zero _) (by decide) fsTwoAgs_opened.sb hlen
  have hsecond : devTwoAgs.run (rewriteSb fsTwoAgs f 1) d₁ =
      (.error (.error (noMagic 1)), d₁) := by
    have hzero : d₁.readBuf 4194304 512 = List.replicate 512 0 := by
      rw [Disk.readBuf_put_of_disjoint (.inr (by rw [length_sbToDisk, hlen]; decide)), diskTwoAgs,
        Disk.readBuf_put_of_disjoint (.inr (by rw [Crc.length_stamp, length_bareSb]; decide)),
        Disk.readBuf_blank]
    have hoff : fsTwoAgs.geo.sbOffset 1 = .ok 4194304 := by decide +kernel
    refine run_rewriteSb_error (Disk.put_healthy.2 hhealthy) hoff (by decide) ?_
    change checkSb geoTwoAgs 1 (d₁.readBuf 4194304 512) = _
    rw [hzero, checkSb, refuseIf, if_pos (by decide +kernel)]
    rfl
  have hrun : devTwoAgs.run (setLabel devTwoAgs "x") diskTwoAgs =
      (.error (.error (noMagic 1)), d₁) := by
    rw [setLabel, hlabel]
    refine (Device.run_bind_ok (run_openFs hhealthy fsTwoAgs_opened)).trans ?_
    refine Device.run_bind_error ?_
    refine (Device.run_bind_ok hfirst).trans ?_
    exact Device.run_bind_error hsecond
  intro h
  have hsame := h diskTwoAgs (noMagic 1) (by rw [hrun]) trivial id
  rw [hrun] at hsame
  have hnew : d₁.bytes 108 = 0x78 := by
    rw [Disk.bytes_put_of_mem (Nat.zero_le _) (by rw [length_sbToDisk, hlen]; decide),
      byteAt_sbToDisk (by decide) (by decide) (by decide) (by decide) (by decide),
      byteAt_splice_of_mem (by decide) (by decide +kernel) (by simp [fsTwoAgs])]
    decide +kernel
  have hold : diskTwoAgs.bytes 108 = 0 := by
    rw [diskTwoAgs, Disk.bytes_put_of_mem (Nat.zero_le _) (by simp), Crc.stamp_eq_splice,
      byteAt_splice_of_not_mem (.inl (by decide))]
    decide +kernel
  have hbyte := congrFun hsame 108
  rw [hnew, hold] at hbyte
  exact absurd hbyte (by decide)

end MkfsXfs
