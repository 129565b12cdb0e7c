import MkfsXfs.Admin.Overrun

/-!
The label and the UUID, set in either order (`set_label` and `set_uuid` in `src/admin.rs`).

* `editAgs_put`: superblocks are edited as before after a write elsewhere.
* `editAgs_editAgs`: of two edits in a row the superblocks are written as of one.
* `withUuid_withLabel`, `withLabel_withLabel`: the two edits commute, and a label is set once.
* `setLabel_setUuid_comm`: so do the operations, where the log clear leaves the superblocks alone.
-/

namespace MkfsXfs

open Checked Sb

/-! ### Writes that commute -/

section Commute

variable {dev : Device} {d : Disk} {g : Geo} {f f' : Buf → Buf} {b c : Buf} {o off agno n : ℕ}

/-- Writes to disjoint ranges commute. -/
lemma Disk.put_comm (h : off + b.length ≤ o ∨ o + c.length ≤ off) :
    (d.put off b).put o c = (d.put o c).put off b := by
  ext1
  · funext a
    by_cases hb : off ≤ a ∧ a < off + b.length
    · rw [Disk.bytes_put_of_not_mem (by omega), Disk.bytes_put_of_mem hb.1 hb.2,
        Disk.bytes_put_of_mem hb.1 hb.2]
    rw [Disk.bytes_put_of_not_mem (d := d.put o c) (by omega)]
    by_cases hc : o ≤ a ∧ a < o + c.length
    · rw [Disk.bytes_put_of_mem hc.1 hc.2, Disk.bytes_put_of_mem hc.1 hc.2]
    · rw [Disk.bytes_put_of_not_mem (by omega), Disk.bytes_put_of_not_mem (by omega),
        Disk.bytes_put_of_not_mem (by omega)]
  · funext a
    rw [Disk.written_put, Disk.written_put, Disk.written_put, Disk.written_put, Bool.or_right_comm]
  · rfl

/-- **After a write elsewhere the superblocks are edited as before.** -/
lemma editAgs_put (hf : ∀ b, (f b).length = b.length)
    (h : ∀ i, agno ≤ i → i < agno + n →
      off + b.length ≤ g.headAt i ∨ g.headAt i + g.blocksize ≤ off) :
    editAgs g f agno n (d.put off b) = (editAgs g f agno n d).put off b := by
  induction n generalizing agno d with
  | zero => rfl
  | succ n ih =>
      have hhead := h agno le_rfl (by omega)
      have hread : (d.put off b).readBuf (g.headAt agno) g.blocksize =
          d.readBuf (g.headAt agno) g.blocksize := Disk.readBuf_put_of_disjoint (by omega)
      have hlen : (Fs.sbToDisk g (f (d.readBuf (g.headAt agno) g.blocksize))).length =
          g.blocksize := by rw [length_sbToDisk, hf, Disk.length_readBuf]
      rw [editAgs, hread, Disk.put_comm (by omega), ih fun i hl hr => h i (by omega) (by omega)]
      rfl

/-- **Two edits in a row are one.** -/
lemma editAgs_editAgs (hg : g.Valid) (hf : SbEdit f) (hf' : SbEdit f') :
    editAgs g f agno n (editAgs g f' agno n d) = editAgs g (fun b => f (f' b)) agno n d := by
  have hs : Off.crc + 4 ≤ g.sectsize := (by decide : Off.crc + 4 ≤ 512).trans hg.sectsize_ge
  induction n generalizing agno d with
  | zero => rfl
  | succ n ih =>
      generalize hb : d.readBuf (g.headAt agno) g.blocksize = b
      have hblen : b.length = g.blocksize := by rw [← hb, Disk.length_readBuf]
      have hlen : (Fs.sbToDisk g (f' b)).length = g.blocksize := by
        rw [length_sbToDisk, hf'.length, hblen]
      have hapart : ∀ i, agno + 1 ≤ i → i < agno + 1 + n →
          g.headAt agno + g.blocksize ≤ g.headAt i ∨ g.headAt i + g.blocksize ≤ g.headAt agno :=
        fun i hl _ => .inl (Geo.headAt_add_le hg (by omega))
      have hfirst : editAgs g f' agno (n + 1) d =
          (editAgs g f' (agno + 1) n d).put (g.headAt agno) (Fs.sbToDisk g (f' b)) := by
        rw [editAgs, hb, editAgs_put hf'.length (by rwa [hlen])]
      have hback : ((editAgs g f' (agno + 1) n d).put (g.headAt agno)
          (Fs.sbToDisk g (f' b))).readBuf (g.headAt agno) g.blocksize = Fs.sbToDisk g (f' b) := by
        have hwhole := @Disk.readBuf_put (editAgs g f' (agno + 1) n d) (g.headAt agno)
          (Fs.sbToDisk g (f' b)) 0 g.blocksize ((Nat.zero_add _).trans_le hlen.ge)
        rwa [Nat.add_zero, List.drop_zero, List.take_of_length_le hlen.le] at hwhole
      have hlast : (Fs.sbToDisk g (f (f' b))).length = g.blocksize := by
        rw [length_sbToDisk, hf.length, hf'.length, hblen]
      have hover : (Fs.sbToDisk g (f' b)).drop (Fs.sbToDisk g (f (f' b))).length = [] :=
        List.drop_of_length_le (by rw [hlen, hlast])
      rw [hfirst, editAgs, hback, hf.sbToDisk_edit hs, Disk.put_put_over, hover, List.append_nil,
        editAgs_put hf.length (by rwa [hlast]), ih, editAgs, hb,
        editAgs_put (fun b => by rw [hf.length, hf'.length]) (by rwa [hlast])]

end Commute

/-! ### The two edits -/

section Edits

variable {label : String} {uuid m : Uuid} {b : Buf}

/-- The label lies apart from what a change of the UUID touches. -/
lemma splice_label_comm (hl : LabelOk label) {o : ℕ} {data : Buf}
    (h : o + data.length ≤ Off.fname ∨ Off.fname + 12 ≤ o) :
    splice (withLabel label b) o data = withLabel label (splice b o data) := by
  refine splice_comm ?_
  rw [hl.length_pad]
  omega

lemma be32_withLabel (hl : LabelOk label) :
    be32 (withLabel label b) Off.featuresIncompat = be32 b Off.featuresIncompat :=
  be32_splice_of_disjoint (.inr (by rw [hl.length_pad]; decide))

lemma uuidAt_withLabel (hl : LabelOk label) {o : ℕ} (h : o + 16 ≤ Off.fname ∨ Off.fname + 12 ≤ o) :
    uuidAt (withLabel label b) o = uuidAt b o := by
  refine uuidAt_splice_of_disjoint ?_
  rw [hl.length_pad]
  omega

/-- **The two edits commute.** -/
lemma withUuid_withLabel (hl : LabelOk label) :
    withUuid uuid m (withLabel label b) = withLabel label (withUuid uuid m b) := by
  have hmeta : ∀ (b data : Buf), splice (withLabel label b) Off.metaUuid data =
      withLabel label (splice b Off.metaUuid data) := fun b data =>
    splice_label_comm hl (.inr (by decide))
  have hfeat : ∀ (b : Buf) (v : ℕ), put32 (withLabel label b) Off.featuresIncompat v =
      withLabel label (put32 b Off.featuresIncompat v) := fun b v =>
    splice_label_comm hl (.inr (by decide))
  have huuid : ∀ b : Buf, splice (withLabel label b) Off.uuid uuid.1 =
      withLabel label (splice b Off.uuid uuid.1) := fun b =>
    splice_label_comm hl (.inl (by rw [uuid.2]; decide))
  have hold : uuidAt (withLabel label b) Off.uuid = uuidAt b Off.uuid :=
    uuidAt_withLabel hl (.inl (by decide))
  rw [withUuid_eq, withUuid_eq, be32_withLabel hl, hold, uuidEdit, uuidEdit]
  split_ifs <;> simp only [hmeta, hfeat, huuid]

/-- A label set twice is set once. -/
lemma withLabel_withLabel : withLabel label (withLabel label b) = withLabel label b :=
  splice_splice rfl

/-- The metadata's UUID does not change with the label. -/
lemma Fs.metaUuid_edited_label (hl : LabelOk label) (fs : Fs) :
    (fs.edited (withLabel label)).metaUuid = fs.metaUuid := by
  have hp : (fs.edited (withLabel label)).primary =
      Fs.sbToDisk fs.geo (withLabel label fs.primary) := rfl
  have hmeta : HasMeta (withLabel label fs.primary) ↔ HasMeta fs.primary := by
    rw [HasMeta, HasMeta, be32_withLabel hl]
  have huuid : uuidAt (withLabel label fs.primary) Off.uuid = uuidAt fs.primary Off.uuid :=
    uuidAt_withLabel hl (.inl (by decide))
  have hmetaUuid : uuidAt (withLabel label fs.primary) Off.metaUuid =
      uuidAt fs.primary Off.metaUuid := uuidAt_withLabel hl (.inr (by decide))
  rw [Fs.metaUuid_eq, Fs.metaUuid_eq, hp, metaOf, metaOf, uuidAt_sbToDisk_uuid,
    uuidAt_sbToDisk_metaUuid, huuid, hmetaUuid]
  simp only [hasMeta_sbToDisk, hmeta]

end Edits

/-! ### The two operations -/

section Operations

variable {dev : Device} {d d₁ d₂ d₁₂ d₂₁ : Disk} {fs : Fs} {label : String} {uuid : Uuid}
  {start bbs cycle : ℕ}

/-- No superblock lies in what the next change of the UUID writes over the log. -/
def ClearApart (dev : Device) (d : Disk) : Prop :=
  ∀ fs start bbs cycle, Opened dev d fs → fs.geo.logExtent = .ok (start, bbs) →
    CleanAt dev d cycle → ∀ i < fs.geo.agcount, fs.geo.headAt i + fs.geo.blocksize ≤ start ∨
      start + Fs.clearedLen fs.geo bbs cycle ≤ fs.geo.headAt i

/-- What is cleared covers the log. -/
lemma le_clearedLen {g : Geo} (h : totalRecBbs ≤ bbs) : bbs * bbsize ≤ Fs.clearedLen g bbs cycle := by
  have ht := totalRecBbs_eq
  rw [Fs.clearedLen]
  split_ifs
  · exact le_max_right _ _
  · rw [bbsize]
    omega

lemma Opened.unique {fs₁ : Fs} (hd : d.Healthy) (h : Opened dev d fs) (h₁ : Opened dev d fs₁) :
    fs₁ = fs := by
  have hrun := run_openFs hd h
  rw [run_openFs hd h₁, Prod.mk.injEq, Except.ok.injEq] at hrun
  exact hrun.1

lemma Holds.clearApart (hd : d.Healthy) (h : Holds dev d fs) : ClearApart dev d := by
  intro fs₁ start bbs cycle hopen hext _ i hi
  obtain rfl := h.opened.unique hd hopen
  exact h.apart hext i hi

/-- A filesystem whose log is cleared stays one. -/
lemma Holds.cleared (h : Holds dev d fs) (hext : fs.geo.logExtent = .ok (start, bbs))
    (hclears : fs.Clears dev start bbs cycle) :
    Holds dev (d.put start (fs.cleared uuid cycle bbs)) fs where
  opened := h.opened.put_log hext
  readable i hi := h.readable_cleared hext hclears hi (h.readable i hi)
  apart := h.apart

/-- A label can be set. -/
lemma Holds.run_setLabel (hd : d.Healthy) (h : Holds dev d fs) (hlabel : LabelOk label) :
    dev.run (setLabel dev label) d =
      (.ok (), editAgs fs.geo (withLabel label) 0 fs.geo.agcount d) :=
  (run_setLabel_eq_ok hd h.opened).2 ⟨hlabel, h.readable, rfl⟩

/-- The UUID can be changed where the log is clean. -/
lemma Holds.run_setUuid (hd : d.Healthy) (h : Holds dev d fs)
    (hext : fs.geo.logExtent = .ok (start, bbs)) (hclean : CleanAt dev d cycle)
    (hclears : fs.Clears dev start bbs cycle) : dev.run (setUuid dev uuid) d =
      (.ok (), editAgs fs.geo (withUuid uuid fs.metaUuid) 0 fs.geo.agcount
        (d.put start (fs.cleared uuid cycle bbs))) :=
  (run_setUuid_eq_ok hd h.opened).2
    ⟨start, bbs, cycle, hext, hclean, hclears, (h.cleared hext hclears).readable, rfl⟩

/-- **A label that is set stays set**: setting it again changes nothing. -/
lemma run_setLabel_again {fs₁ : Fs} (hd : d.Healthy) (hopen : Opened dev d fs₁)
    (h : fs₁.Alike fs) (hlabel : LabelOk label)
    (hall : ∀ i < fs.geo.agcount, Readable dev d fs.geo i) :
    dev.run (setLabel dev label) (editAgs fs.geo (withLabel label) 0 fs.geo.agcount d) =
      (.ok (), editAgs fs.geo (withLabel label) 0 fs.geo.agcount d) := by
  have hedit := sbEdit_withLabel hlabel
  have hopen' := hopen.editAgs hedit
  have hsame : editAgs fs₁.geo (withLabel label) 0 fs₁.geo.agcount d =
      editAgs fs.geo (withLabel label) 0 fs.geo.agcount d := by
    obtain ⟨x, hx⟩ := h
    rw [hx, editAgs_incompat]
  have halike : (fs₁.edited (withLabel label)).Alike fs := by
    obtain ⟨x, hx⟩ := h
    obtain ⟨y, hy⟩ := fs₁.edited_alike (withLabel label)
    exact ⟨y, by rw [hy, hx]⟩
  rw [hsame] at hopen'
  refine (run_setLabel_alike (editAgs_healthy.2 hd) hopen' halike).2
    ⟨hlabel, fun i hi => (hall i hi).editAgs fs.valid hedit, ?_⟩
  rw [editAgs_editAgs fs.valid hedit hedit, funext fun b => @withLabel_withLabel label b]

/-- **Setting the label and changing the UUID commute** where the log clear leaves the superblocks
alone, and a label that is set stays set. -/
theorem setLabel_setUuid_comm (hd : d.Healthy) (hapart : ClearApart dev d)
    (hl : dev.run (setLabel dev label) d = (.ok (), d₁))
    (hlu : dev.run (setUuid dev uuid) d₁ = (.ok (), d₁₂))
    (hu : dev.run (setUuid dev uuid) d = (.ok (), d₂))
    (hul : dev.run (setLabel dev label) d₂ = (.ok (), d₂₁)) :
    d₁₂ = d₂₁ ∧ dev.run (setLabel dev label) d₁ = (.ok (), d₁) ∧
      dev.run (setLabel dev label) d₁₂ = (.ok (), d₁₂) ∧
      dev.run (setLabel dev label) d₂₁ = (.ok (), d₂₁) := by
  obtain ⟨fs, hopen⟩ : ∃ fs, Opened dev d fs := by
    have hrun := hu
    rw [setUuid, Device.run_bind_eq_ok] at hrun
    obtain ⟨fs, _, hfs, -⟩ := hrun
    exact ⟨fs, openFs_eq_ok hfs⟩
  obtain ⟨hlabel, hall, rfl⟩ := (run_setLabel_eq_ok hd hopen).1 hl
  obtain ⟨start, bbs, cycle, hext, hclean, hclears, -, rfl⟩ := (run_setUuid_eq_ok hd hopen).1 hu
  have hL := sbEdit_withLabel hlabel
  have hU := sbEdit_withUuid uuid fs.metaUuid
  have hdisj := hapart fs start bbs cycle hopen hext hclean
  have hn := hclean.total_le hopen hext
  have hcover := @le_clearedLen bbs cycle fs.geo hn
  have hlen : (fs.cleared uuid cycle bbs).length = Fs.clearedLen fs.geo bbs cycle :=
    hclears.length_cleared
  -- The label first: the log is as clean as before, and is cleared at the same cycle.
  have hopen₁ := hopen.editAgs hL
  have hclean₁ : CleanAt dev (editAgs fs.geo (withLabel label) 0 fs.geo.agcount d) cycle := by
    refine (cleanAt_congr hd (editAgs_healthy.2 hd) hopen hopen₁ (.refl fs)
      (fs.edited_alike _) hext hn (by have := hclears.1; omega) fun a hl hr => ?_).2 hclean
    exact bytes_editAgs hL.length fun i _ hi => by
      have := hdisj i (by omega)
      omega
  obtain ⟨start', bbs', cycle', hext', hclean', -, -, rfl⟩ :=
    (run_setUuid_alike (editAgs_healthy.2 hd) hopen₁ (fs.edited_alike _)).1 hlu
  obtain ⟨rfl, rfl⟩ : start = start' ∧ bbs = bbs' := by
    rw [hext] at hext'
    cases hext'
    exact ⟨rfl, rfl⟩
  obtain rfl := hclean'.unique hclean₁
  -- The UUID first: the label is set on the superblocks it leaves.
  have hput : (d.put start (fs.cleared uuid cycle' bbs)).Healthy := Disk.put_healthy.2 hd
  have hopen₂ : Opened dev (editAgs fs.geo (withUuid uuid fs.metaUuid) 0 fs.geo.agcount
      (d.put start (fs.cleared uuid cycle' bbs))) (fs.edited (withUuid uuid fs.metaUuid)) :=
    (hopen.put_log hext).editAgs hU
  obtain ⟨-, hall₂, rfl⟩ :=
    (run_setLabel_alike (editAgs_healthy.2 hput) hopen₂ (fs.edited_alike _)).1 hul
  have hsame : editAgs fs.geo (withUuid uuid (fs.edited (withLabel label)).metaUuid) 0
      fs.geo.agcount ((editAgs fs.geo (withLabel label) 0 fs.geo.agcount d).put start
        (fs.cleared uuid cycle' bbs)) =
      editAgs fs.geo (withLabel label) 0 fs.geo.agcount (editAgs fs.geo
        (withUuid uuid fs.metaUuid) 0 fs.geo.agcount
          (d.put start (fs.cleared uuid cycle' bbs))) := by
    rw [Fs.metaUuid_edited_label hlabel, ← editAgs_put hL.length fun i _ hi => by
      rw [hlen]
      exact (hdisj i (by omega)).symm, editAgs_editAgs fs.valid hU hL,
      editAgs_editAgs fs.valid hL hU]
    simp only [withUuid_withLabel hlabel]
  have hagain := run_setLabel_again (editAgs_healthy.2 hput) hopen₂ (fs.edited_alike _) hlabel hall₂
  rw [hsame]
  exact ⟨rfl, run_setLabel_again hd hopen (.refl fs) hlabel hall, hagain, hagain⟩

/-- Two AGs and a log that was never written: a label and a UUID. -/
theorem setLabel_setUuid_pair : ∃ d₁ d₁₂ d₂ d₂₁,
    devTwoAgs.run (setLabel devTwoAgs "x") (diskNamed 4096) = (.ok (), d₁) ∧
    devTwoAgs.run (setUuid devTwoAgs uuidTwos) d₁ = (.ok (), d₁₂) ∧
    devTwoAgs.run (setUuid devTwoAgs uuidTwos) (diskNamed 4096) = (.ok (), d₂) ∧
    devTwoAgs.run (setLabel devTwoAgs "x") d₂ = (.ok (), d₂₁) ∧
    d₁₂ = d₂₁ ∧ devTwoAgs.run (setLabel devTwoAgs "x") d₁ = (.ok (), d₁) ∧
      devTwoAgs.run (setLabel devTwoAgs "x") d₁₂ = (.ok (), d₁₂) ∧
      devTwoAgs.run (setLabel devTwoAgs "x") d₂₁ = (.ok (), d₂₁) := by
  have h := pairOk_4096
  have hd : (diskNamed 4096).Healthy := editAgs_healthy.2 rfl
  have hlabel : LabelOk "x" := ⟨by decide, by decide⟩
  have hL := sbEdit_withLabel hlabel
  have hclears := h.clears.2 (.inl rfl : 1 = 1 ∨ _)
  have hsunit : (fsNamed h).geo.logsunit ≤ 262144 := (by decide : 1 ≤ 262144)
  have hsize : devTwoAgs.size = 8388608 := rfl
  have halike := (fsNamed h).edited_alike (withLabel "x")
  have h₁ := h.holds_named.edited hL
  have hclean₁ : CleanAt devTwoAgs
      (editAgs (fsNamed h).geo (withLabel "x") 0 (fsNamed h).geo.agcount (diskNamed 4096)) 1 :=
    (h.holds_named.cleanAt_edited hd hL h.extent_named (by decide) hsunit
      (by rw [hsize, bbsize]; norm_num)).2 h.cleanAt_named
  have hl := h.holds_named.run_setLabel hd hlabel
  have hlu := @Holds.run_setUuid _ _ _ uuidTwos _ _ _ (editAgs_healthy.2 hd) h₁
    (halike.logExtent_eq.trans h.extent_named) hclean₁ (halike.clears.2 hclears)
  have hu := @Holds.run_setUuid _ _ _ uuidTwos _ _ _ hd h.holds_named h.extent_named
    h.cleanAt_named hclears
  have h₂ : Holds devTwoAgs ((diskNamed 4096).put 4096 ((fsNamed h).cleared uuidTwos 1 4096))
      (fsNamed h) := h.holds_named.cleared h.extent_named hclears
  have hul := (h₂.edited (sbEdit_withUuid uuidTwos (fsNamed h).metaUuid)).run_setLabel
    (editAgs_healthy.2 (Disk.put_healthy.2 hd)) hlabel
  exact ⟨_, _, _, _, hl, hlu, hu, hul,
    setLabel_setUuid_comm hd (h.holds_named.clearApart hd) hl hlu hu hul⟩

/-- **Where the log clear runs over a superblock, the order is seen**: a label that is set before
the clear is lost there. -/
theorem setLabel_setUuid_not_comm : ¬ ∀ (dev : Device) (d d₁ d₁₂ d₂ d₂₁ : Disk) (label : String)
    (uuid : Uuid), d.Healthy → dev.run (setLabel dev label) d = (.ok (), d₁) →
    dev.run (setUuid dev uuid) d₁ = (.ok (), d₁₂) → dev.run (setUuid dev uuid) d = (.ok (), d₂) →
    dev.run (setLabel dev label) d₂ = (.ok (), d₂₁) → d₁₂.bytes = d₂₁.bytes := by
  intro hall
  have hd := diskOver_healthy
  have hlabel : LabelOk "x" := ⟨by decide, by decide⟩
  have hL := sbEdit_withLabel hlabel
  have hU := sbEdit_withUuid uuidOver fsOver.metaUuid
  have hopen₁ := diskOver_opened.editAgs hL
  have hclean₁ : CleanAt devOver (editAgs geoOver (withLabel "x") 0 2 diskOver) 0x58465343 := by
    refine (cleanAt_congr hd (editAgs_healthy.2 hd) diskOver_opened hopen₁ (.refl fsOver)
      (fsOver.edited_alike _) extent_over (by decide) (by decide) fun a hl hr => ?_).2 cleanAt_over
    refine bytes_editAgs hL.length fun i _ hi => ?_
    have hcount : fsOver.geo.agcount = 2 := rfl
    have hplace : i = 0 ∨ i = 1 := by omega
    have hlast : fsOver.geo.headAt 1 = 2098176 := headAt_over
    have hsize : fsOver.geo.blocksize = 1024 := rfl
    rw [bbsize] at hr
    rw [hsize]
    rcases hplace with rfl | rfl
    · rw [Geo.headAt_zero]
      exact .inr hl
    · rw [hlast]
      exact .inl hr
  have hreadable₁ : ∀ i < 2, Readable devOver
      ((editAgs geoOver (withLabel "x") 0 2 diskOver).put 1024 clearOver) geoOver i :=
    fun i hi => readable_cleared_over hi ((readable_over (by norm_num)).editAgs fsOver.valid hL)
  have hreadable₂ : ∀ i < 2, Readable devOver (diskOver.put 1024 clearOver) geoOver i :=
    fun i hi => readable_cleared_over hi (readable_over (by norm_num))
  have hl := (run_setLabel_eq_ok hd diskOver_opened).2 ⟨hlabel, fun i hi => readable_over hi, rfl⟩
  have hlu := (run_setUuid_alike (editAgs_healthy.2 hd) hopen₁ (fsOver.edited_alike _)).2
    ⟨1024, 4096, _, extent_over, hclean₁, clears_over, hreadable₁, rfl⟩
  have hu := (run_setUuid_eq_ok hd diskOver_opened).2
    ⟨1024, 4096, _, extent_over, cleanAt_over, clears_over, hreadable₂, rfl⟩
  have hput : (diskOver.put 1024 clearOver).Healthy := Disk.put_healthy.2 hd
  have hul := (run_setLabel_alike (editAgs_healthy.2 hput)
    ((diskOver_opened.put_log extent_over).editAgs hU) (fsOver.edited_alike _)).2
    ⟨hlabel, fun i hi => (hreadable₂ i hi).editAgs fsOver.valid hU, rfl⟩
  have hbytes := hall devOver diskOver _ _ _ _ "x" uuidOver hd hl hlu hu hul
  have hread : ∀ (f : Buf → Buf) (t : Disk), (∀ b, (f b).length = b.length) →
      (editAgs fsOver.geo f 0 fsOver.geo.agcount t).readBuf (fsOver.geo.headAt 1)
        fsOver.geo.blocksize =
      Fs.sbToDisk fsOver.geo (f (t.readBuf (fsOver.geo.headAt 1) fsOver.geo.blocksize)) :=
    fun f t hf => readBuf_editAgs fsOver.valid hf (Nat.zero_le 1) (by decide)
  have hsector : ∀ t : Disk, (t.put 1024 (fsOver.cleared uuidOver 0x58465343 4096)).readBuf
      (fsOver.geo.headAt 1) fsOver.geo.blocksize = sectorOver := fun t => readBuf_cleared_over
  have hcongr : ∀ t t' : Disk, t.bytes = t'.bytes →
      t.readBuf (fsOver.geo.headAt 1) fsOver.geo.blocksize =
        t'.readBuf (fsOver.geo.headAt 1) fsOver.geo.blocksize := fun t t' h =>
    Disk.readBuf_congr fun a _ _ => congrFun h a
  have hblock := hcongr _ _ hbytes
  rw [hread _ _ fun _ => length_withUuid, hread _ _ hL.length, hsector] at hblock
  -- The first byte of the label in the second superblock.
  have hname : ∀ b, byteAt (Fs.sbToDisk fsOver.geo b) Off.fname = byteAt b Off.fname := fun b => by
    rw [(Fs.sbToDisk_same fsOver.geo b).2 _ (.inl (by decide)),
      Fs.byteAt_sbNormal (.inl (by decide)) (.inl (by decide)) (.inl (by decide))]
  have hbyte := congrArg (byteAt · Off.fname) hblock
  have hlabelled : ∀ b : Buf, Off.fname < b.length → byteAt (withLabel "x" b) Off.fname = 120 :=
    fun b hb => by
      rw [withLabel, byteAt_splice_of_mem le_rfl (by rw [hlabel.length_pad]; decide) hb]
      decide +kernel
  rw [hname, hname, byteAt_withUuid (.inr (by decide)) (.inl (by decide)) (.inl (by decide)),
    hlabelled _ (by rw [Disk.length_readBuf]; decide)] at hbyte
  revert hbyte
  decide +kernel

end Operations

end MkfsXfs
