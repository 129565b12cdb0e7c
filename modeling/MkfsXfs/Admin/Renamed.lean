import MkfsXfs.Admin.LabelUuid
import MkfsXfs.Format.Left

/-!
A filesystem under any sequence of UUID changes, restores and labels (`set_uuid`, `restore_uuid`
and `set_label` in `src/admin.rs`).

* `Rename`, `renames`: one call, and calls one after the other.
* `Names`, `Names.after`: what a filesystem is called, and what a call makes of that.
* `Goes`: the disk holds the filesystem under its names; `Goes.run_rename` a call keeps that,
  `Goes.run_renames` all calls of a sequence do.
* `format_renames`: what any sequence of calls makes of a filesystem after its format.
-/

namespace MkfsXfs

open Checked Sb

/-! ### Calls -/

/-- A call that renames a filesystem. -/
inductive Rename where
  | setUuid (uuid : Uuid)
  | restoreUuid
  | setLabel (label : String)

/-- The call can be made: a label is one that can be set. -/
def Rename.Valid : Rename → Prop
  | setLabel label => LabelOk label
  | _ => True

/-- The call on a device. -/
def Rename.run (dev : Device) : Rename → DevM Unit
  | setUuid uuid => MkfsXfs.setUuid dev uuid
  | restoreUuid => do
      let _ ← MkfsXfs.restoreUuid dev
      return ()
  | setLabel label => MkfsXfs.setLabel dev label

/-- The calls, one after the other. -/
def renames (dev : Device) : List Rename → DevM Unit
  | [] => return ()
  | call :: calls => do
      call.run dev
      renames dev calls

/-- What a filesystem is called, and how often its log was rewritten. -/
structure Names where
  uuid : Uuid
  label : Buf
  rewrites : ℕ

/-- What a call makes of the names, `m` being the UUID of the metadata: giving it back is only
done when it is not the UUID already. -/
def Names.after (m : Uuid) (n : Names) : Rename → Names
  | .setUuid uuid => { n with uuid := uuid, rewrites := n.rewrites + 1 }
  | .restoreUuid => if n.uuid = m then n else { n with uuid := m, rewrites := n.rewrites + 1 }
  | .setLabel label => { n with label := padLabel label.toUTF8.toList }

lemma Names.rewrites_after (m : Uuid) (n : Names) (call : Rename) :
    (n.after m call).rewrites ≤ n.rewrites + 1 := by
  cases call with
  | setUuid uuid => exact le_rfl
  | restoreUuid =>
      rw [Names.after]
      split_ifs
      · exact Nat.le_succ _
      · exact le_rfl
  | setLabel label => exact Nat.le_succ _

/-! ### A superblock under its names -/

/-- The superblock in `b` has the names `n`: `META_UUID` is on, with the metadata's UUID `m` in
`sb_meta_uuid`, exactly when `m` is not its UUID. -/
structure Named (m : Uuid) (n : Names) (b : Buf) : Prop where
  uuid : uuidAt b Off.uuid = n.uuid
  hasMeta : HasMeta b ↔ n.uuid ≠ m
  metaUuid : uuidAt b Off.metaUuid = if n.uuid = m then zeroUuid else m
  label : ∀ k < 12, byteAt b (Off.fname + k) = byteAt n.label k

namespace Named

variable {m uuid : Uuid} {n : Names} {b : Buf} {g : Geo} {label : String}

/-- The count of log rewrites is not in it. -/
lemma recount (h : Named m n b) {r : ℕ} : Named m { n with rewrites := r } b :=
  ⟨h.uuid, h.hasMeta, h.metaUuid, h.label⟩

/-- Its metadata has the UUID `m`. -/
lemma carries (h : Named m n b) : Carries m b where
  of_meta hm := by rw [h.metaUuid, if_neg (h.hasMeta.1 hm)]
  of_none hm := by
    have hu : n.uuid = m := not_not.1 fun hne => hm (h.hasMeta.2 hne)
    rw [h.uuid, h.metaUuid, if_pos hu]
    exact ⟨hu, rfl⟩

/-- It keeps them when it is written back. -/
lemma sbToDisk (h : Named m n b) : Named m n (Fs.sbToDisk g b) where
  uuid := uuidAt_sbToDisk_uuid.trans h.uuid
  hasMeta := hasMeta_sbToDisk.trans h.hasMeta
  metaUuid := uuidAt_sbToDisk_metaUuid.trans h.metaUuid
  label k hk := by
    have hlo : Off.fname + 12 ≤ Off.uquotino := by decide
    have hcrc : Off.fname + 12 ≤ Off.crc := by decide
    have hbad : Off.fname + 12 ≤ Off.badFeatures2 := by decide
    have hp : Off.fname + 12 ≤ Off.pquotino := by decide
    rw [(Fs.sbToDisk_same g b).2 _ (by omega),
      Fs.byteAt_sbNormal (.inl (by omega)) (.inl (by omega)) (.inl (by omega))]
    exact h.label k hk

/-- A change of the UUID. -/
lemma withUuid (h : Named m n b) (hlen : Off.past ≤ b.length) :
    Named m (n.after m (.setUuid uuid)) (MkfsXfs.withUuid uuid m b) where
  uuid := uuidAt_withUuid hlen
  hasMeta := hasMeta_withUuid hlen
  metaUuid := h.carries.metaUuid_withUuid hlen
  label k hk := by
    have hlo : Off.uuid + 16 ≤ Off.fname := by decide
    have hfeat : Off.fname + 12 ≤ Off.featuresIncompat := by decide
    have hmeta : Off.fname + 12 ≤ Off.metaUuid := by decide
    rw [byteAt_withUuid (by omega) (by omega) (by omega)]
    exact h.label k hk

/-- A label. -/
lemma withLabel (h : Named m n b) (hl : LabelOk label) (hlen : Off.past ≤ b.length) :
    Named m (n.after m (.setLabel label)) (MkfsXfs.withLabel label b) where
  uuid := (uuidAt_withLabel hl (.inl (by decide))).trans h.uuid
  hasMeta := by
    rw [HasMeta, be32_withLabel hl]
    exact h.hasMeta
  metaUuid := (uuidAt_withLabel hl (.inr (by decide))).trans h.metaUuid
  label k hk := by
    have hroom : Off.fname + 12 ≤ Off.past := by decide
    rw [MkfsXfs.withLabel, byteAt_splice_of_mem (by omega) (by rw [hl.length_pad]; omega) (by omega),
      Nat.add_sub_cancel_left]
    rfl

end Named

/-! ### The filesystem under its names -/

section Past

variable {d : Disk} {g : Geo} {f : Buf → Buf} {a n : ℕ}

/-- An edit leaves what is not in a superblock's sector. -/
lemma bytes_editAgs_past (hg : g.Valid) (hf : SbEdit f)
    (ha : ∀ i < n, ¬ (g.headAt i ≤ a ∧ a < g.headAt i + g.sectsize)) :
    (editAgs g f 0 n d).bytes a = d.bytes a := by
  by_cases hin : ∃ i < n, g.headAt i ≤ a ∧ a < g.headAt i + g.blocksize
  · obtain ⟨i, hi, hlo, hhi⟩ := hin
    have hsect := hg.sectsize_ge
    have hpast : ¬ Rewritten (a - g.headAt i) := fun hr => by
      have := hr.lt
      exact ha i hi (by omega)
    have hread := congrArg (byteAt · (a - g.headAt i))
      (readBuf_editAgs (d := d) (n := n) hg hf.length (Nat.zero_le i) (by omega))
    rwa [Disk.byteAt_readBuf (by omega), hf.byteAt_sbToDisk hpast, Disk.byteAt_readBuf (by omega),
      Nat.add_sub_cancel' hlo] at hread
  · refine bytes_editAgs hf.length fun i _ hi => ?_
    by_contra hnot
    exact hin ⟨i, by omega, by omega⟩

end Past

/-- The log of a filesystem: where it is, that it is long enough, and that it can be cleared. -/
structure LogClears (dev : Device) (fs : Fs) (start bbs : ℕ) : Prop where
  extent : fs.geo.logExtent = .ok (start, bbs)
  total_le : totalRecBbs ≤ bbs
  sunit_le : fs.geo.logsunit ≤ 262144
  fits : start + bbs * bbsize ≤ dev.size
  whole : bbs % 512 ≠ 1

/-- The disk `d` holds the filesystem `fs` under the names `n`, its metadata under `m`: every
superblock has them, the log is clean in the cycle after its rewrites, and everything else is as
on `d₀`. -/
structure Goes (dev : Device) (d₀ : Disk) (start bbs : ℕ) (m : Uuid) (n : Names) (fs : Fs)
    (d : Disk) : Prop where
  healthy : d.Healthy
  holds : Holds dev d fs
  log : LogClears dev fs start bbs
  named : ∀ i < fs.geo.agcount, Named m n (d.readBuf (fs.geo.headAt i) fs.geo.blocksize)
  clean : CleanAt dev d (n.rewrites + 2)
  rest : ∀ a, ¬ (start ≤ a ∧ a < start + bbs * bbsize) →
    (∀ i < fs.geo.agcount, ¬ (fs.geo.headAt i ≤ a ∧ a < fs.geo.headAt i + fs.geo.sectsize)) →
    d.bytes a = d₀.bytes a

namespace Goes

variable {dev : Device} {d d₀ : Disk} {start bbs : ℕ} {m uuid : Uuid} {n : Names} {fs : Fs}
  {label : String} {f : Buf → Buf} {call : Rename} {calls : List Rename}

/-- The primary superblock. -/
lemma primary (h : Goes dev d₀ start bbs m n fs d) : Named m n fs.primary := by
  have hzero := h.named 0 fs.valid.agcount_pos
  rwa [Geo.headAt_zero, ← h.holds.opened.primary_eq] at hzero

lemma metaUuid_eq (h : Goes dev d₀ start bbs m n fs d) : fs.metaUuid = m := by
  rw [Fs.metaUuid_eq, h.primary.carries.metaOf_eq]

/-- The superblocks are edited: the filesystem goes by the names that the edit gives. -/
lemma edited (h : Goes dev d₀ start bbs m n fs d) (hf : SbEdit f) {n' : Names}
    (hnamed : ∀ b, Off.past ≤ b.length → Named m n b → Named m n' (f b))
    (hcycle : CleanAt dev d (n'.rewrites + 2)) :
    Goes dev d₀ start bbs m n' (fs.edited f) (editAgs fs.geo f 0 fs.geo.agcount d) where
  healthy := editAgs_healthy.2 h.healthy
  holds := h.holds.edited hf
  log := { h.log with extent := ((fs.edited_alike f).logExtent_eq).trans h.log.extent }
  named i hi := by
    have hread : (editAgs fs.geo f 0 fs.geo.agcount d).readBuf (fs.geo.headAt i)
        fs.geo.blocksize = _ :=
      readBuf_editAgs fs.valid hf.length (Nat.zero_le i) (by rw [Nat.zero_add]; exact hi)
    change Named m n' ((editAgs fs.geo f 0 fs.geo.agcount d).readBuf (fs.geo.headAt i)
      fs.geo.blocksize)
    have hlen : Off.past ≤ (d.readBuf (fs.geo.headAt i) fs.geo.blocksize).length := by
      have := fs.valid.blocksize_ge
      rw [Disk.length_readBuf, Off.past]
      omega
    rw [hread]
    exact (hnamed _ hlen (h.named i hi)).sbToDisk
  clean := (h.holds.cleanAt_edited h.healthy hf h.log.extent h.log.total_le h.log.sunit_le
    h.log.fits).2 hcycle
  rest a hlog hsb := by
    have hpast : ∀ i < fs.geo.agcount,
        ¬ (fs.geo.headAt i ≤ a ∧ a < fs.geo.headAt i + fs.geo.sectsize) := hsb
    rw [bytes_editAgs_past fs.valid hf hpast]
    exact h.rest a hlog hpast

/-- A label. -/
lemma run_setLabel (h : Goes dev d₀ start bbs m n fs d) (hl : LabelOk label) :
    ∃ fs' d', dev.run (setLabel dev label) d = (.ok (), d') ∧ fs'.Alike fs ∧
      Goes dev d₀ start bbs m (n.after m (.setLabel label)) fs' d' :=
  ⟨_, _, h.holds.run_setLabel h.healthy hl, fs.edited_alike _,
    h.edited (sbEdit_withLabel hl) (fun _ hlen hb => hb.withLabel hl hlen) h.clean⟩

/-- A change of the UUID, the log being cleared at its next cycle. -/
lemma run_setUuid (h : Goes dev d₀ start bbs m n fs d) (hc : n.rewrites + 2 < Log.headerMagic) :
    ∃ fs' d', dev.run (setUuid dev uuid) d = (.ok (), d') ∧ fs'.Alike fs ∧
      Goes dev d₀ start bbs m (n.after m (.setUuid uuid)) fs' d' := by
  have ht := totalRecBbs_eq
  have hn := h.log.total_le
  have hlen : Fs.clearedLen fs.geo bbs (n.rewrites + 2) = bbs * bbsize :=
    clearedLen_eq fs.valid h.log.sunit_le (by omega)
  have hclears : fs.Clears dev start bbs (n.rewrites + 2) := by
    have hle := Log.recordLen_le h.log.sunit_le
    refine ⟨by rw [hlen]; exact h.log.fits, .inr ⟨?_, h.log.whole⟩⟩
    rw [firstLen_eq]
    omega
  have hrun : dev.run (setUuid dev uuid) d = _ :=
    h.holds.run_setUuid h.healthy h.log.extent h.clean hclears
  rw [h.metaUuid_eq] at hrun
  -- Between the two, the log is clean one cycle on and the superblocks are as they were.
  have hcleared : Goes dev d₀ start bbs m { n with rewrites := n.rewrites + 1 } fs
      (d.put start (fs.cleared uuid (n.rewrites + 2) bbs)) := {
    healthy := Disk.put_healthy.2 h.healthy
    holds := h.holds.cleared h.log.extent hclears
    log := h.log
    named := fun i hi => by
      rw [h.holds.readBuf_cleared h.log.extent hclears hi]
      exact (h.named i hi).recount
    clean := cleanAt_cleared h.healthy h.holds.opened h.log.extent hn h.log.sunit_le hclears
      (by omega) hc
    rest := fun a hlog hsb => by
      rw [Disk.bytes_put_of_not_mem]
      · exact h.rest a hlog hsb
      · rw [hclears.length_cleared, hlen]
        omega }
  exact ⟨_, _, hrun, fs.edited_alike _, hcleared.edited (sbEdit_withUuid uuid m)
    (fun _ hlen hb => (hb.withUuid hlen).recount) hcleared.clean⟩

/-- **A call succeeds**, and the filesystem goes by the names it gives. -/
theorem run_rename (h : Goes dev d₀ start bbs m n fs d) (hcall : call.Valid)
    (hc : n.rewrites + 2 < Log.headerMagic) :
    ∃ fs' d', dev.run (call.run dev) d = (.ok (), d') ∧ fs'.Alike fs ∧
      Goes dev d₀ start bbs m (n.after m call) fs' d' := by
  cases call with
  | setUuid uuid => exact h.run_setUuid hc
  | setLabel label => exact h.run_setLabel hcall
  | restoreUuid =>
      rw [Names.after]
      split_ifs with hu
      · -- Nothing to give back.
        have hnone : ¬ HasMeta fs.primary := fun hm => h.primary.hasMeta.1 hm hu
        refine ⟨fs, d, ?_, .refl fs, h⟩
        rw [Rename.run, Device.run_bind_ok
          (run_restoreUuid_of_none h.healthy h.holds.opened hnone)]
        rfl
      · obtain ⟨fs', d', hrun, halike, hgoes⟩ := h.run_setUuid hc
        refine ⟨fs', d', ?_, halike, hgoes⟩
        have hmeta : HasMeta fs.primary := h.primary.hasMeta.2 hu
        have hrestore : dev.run (restoreUuid dev) d = (.ok true, d') := by
          rw [run_restoreUuid_of_meta h.healthy h.holds.opened hmeta, h.metaUuid_eq,
            Device.run_bind_ok hrun]
          rfl
        rw [Rename.run, Device.run_bind_ok hrestore]
        rfl

/-- **So do all calls of a sequence**, as long as the cycle stays below the header magic. -/
theorem run_renames (h : Goes dev d₀ start bbs m n fs d) (hcalls : ∀ call ∈ calls, call.Valid)
    (hc : n.rewrites + calls.length + 2 ≤ Log.headerMagic) :
    ∃ fs' d', dev.run (renames dev calls) d = (.ok (), d') ∧ fs'.Alike fs ∧
      Goes dev d₀ start bbs m (calls.foldl (Names.after m) n) fs' d' := by
  induction calls generalizing n fs d with
  | nil => exact ⟨fs, d, rfl, .refl fs, h⟩
  | cons call calls ih =>
      rw [List.length_cons] at hc
      have hle := n.rewrites_after m call
      obtain ⟨fs₁, d₁, hrun₁, ⟨x, hx⟩, hgoes₁⟩ :=
        h.run_rename (hcalls call List.mem_cons_self) (by omega)
      obtain ⟨fs', d', hrun, ⟨y, hy⟩, hgoes⟩ :=
        ih hgoes₁ (fun c hmem => hcalls c (List.mem_cons_of_mem call hmem)) (by omega)
      refine ⟨fs', d', ?_, ⟨y, by rw [hy, hx]⟩, hgoes⟩
      rw [renames, Device.run_bind_ok hrun₁, hrun]

end Goes

/-! ### From a format on -/

/-- Reading the log's state writes nothing. -/
lemma logState_quiet (dev : Device) :
    (logState dev).Safe Quiet (fun _ => True) (fun _ => True) :=
  (openFs_quiet dev).bind fun _ _ =>
    (safe_ofExcept_of (Q := fun _ => True) (fun _ _ => trivial) fun _ _ => trivial).bind
      fun r _ => (findTail_quiet r).mono (fun _ h => h) (fun _ h => h) fun _ _ => trivial

/-- A superblock that a format leaves has the UUID of the format, and its label. -/
lemma Formatted.SbRead.named {g : Geometry} {sbs : SbState} {b : Buf}
    (h : Formatted.SbRead g sbs b) : Named sbs.uuid ⟨sbs.uuid, g.label, 0⟩ b where
  uuid := h.uuid
  hasMeta := by
    have hnone : Sb.incompat g &&& Version.inMetaUuid = 0 := by
      rw [Sb.incompat]
      cases g.features.bigtime <;> cases g.features.sparse <;> cases g.features.nrext64 <;> decide
    rw [HasMeta, h.incompat, hnone]
    exact ⟨fun hne => absurd rfl hne, fun hne => absurd rfl hne⟩
  metaUuid := by rw [h.metaUuid, if_pos rfl]
  label := h.label

/-- A filesystem goes by its names when it is formatted. -/
lemma Formatted.goes {params : Params} {size : UInt64} {logical physical : UInt32}
    {id : Identity} {order : List ℕ} {s : Setup} {d : Disk}
    (f : Formatted params size logical physical id order s) (hd : d.Healthy) :
    Goes (Device.ofSize size logical) (d.apply (s.ops size.toNat order)) s.logAt
      (s.g.logblocks * s.g.bs / bbsize) s.id.uuid ⟨s.id.uuid, s.g.label, 0⟩ (f.fs d)
      (d.apply (s.ops size.toNat order)) where
  healthy := Disk.apply_healthy hd
  holds := f.holds
  log := {
    extent := f.logExtent
    total_le := f.total_le
    sunit_le := f.logsunit_le.trans (by decide)
    fits := by
      rw [f.bbs_eq.1]
      exact f.log_le
    whole := by
      have := f.bbs_eq.2
      omega }
  named i hi := by
    obtain ⟨sbs, huuid, hread⟩ := f.left_sbRead (d := d) hi
    rw [← huuid]
    exact hread.named
  clean := f.cleanAt hd
  rest _ _ _ := rfl

/-- What is on the device once the filesystem `s`, formatted on `d₀`, has the names `n`: in all
its superblocks, in its log and in the UUIDs of its other metadata. -/
structure Setup.Renamed (s : Setup) (dev : Device) (d₀ : Disk) (n : Names) (d : Disk) : Prop where
  superblock : ∀ i < s.g.agcount, SbOk s.g.geo (d.readBuf (s.g.geo.headAt i) s.g.bs) ∧
    Named s.id.uuid n (d.readBuf (s.g.geo.headAt i) s.g.bs)
  log : ∃ state, dev.run (logState dev) d = (.ok state, d) ∧ state.dirty = false ∧
    state.cycle = 1 + n.rewrites
  rest : ∀ a, ¬ s.logRange.Holds a →
    (∀ i < s.g.agcount, ¬ (s.g.geo.headAt i ≤ a ∧ a < s.g.geo.headAt i + s.g.sectsize)) →
    d.bytes a = d₀.bytes a
  metadata : ∀ o, s.HoldsUuid o → ∀ i < s.g.agcount,
    d.readBuf o 16 = (metaOf (d.readBuf (s.g.geo.headAt i) s.g.bs)).1

lemma Formatted.renamed {params : Params} {size : UInt64} {logical physical : UInt32}
    {id : Identity} {order : List ℕ} {s : Setup} {d d' : Disk} {fs' : Fs} {n : Names}
    (f : Formatted params size logical physical id order s)
    (h : Goes (Device.ofSize size logical) (d.apply (s.ops size.toNat order)) s.logAt
      (s.g.logblocks * s.g.bs / bbsize) s.id.uuid n fs' d') (halike : fs'.Alike (f.fs d)) :
    s.Renamed (Device.ofSize size logical) (d.apply (s.ops size.toNat order)) n d' := by
  obtain ⟨x, hx⟩ := halike
  have hcount : fs'.geo.agcount = s.g.agcount := congrArg Geo.agcount hx
  have hhead : ∀ i, fs'.geo.headAt i = s.g.geo.headAt i := fun i => by rw [hx]; rfl
  have hbs : fs'.geo.blocksize = s.g.bs := congrArg Geo.blocksize hx
  have hsect : fs'.geo.sectsize = s.g.sectsize := congrArg Geo.sectsize hx
  have hnamed : ∀ i < s.g.agcount,
      Named s.id.uuid n (d'.readBuf (s.g.geo.headAt i) s.g.bs) := fun i hi => by
    have hi' := h.named i (by rwa [hcount])
    rwa [hhead, hbs] at hi'
  have hrest : ∀ a, ¬ s.logRange.Holds a →
      (∀ i < s.g.agcount, ¬ (s.g.geo.headAt i ≤ a ∧ a < s.g.geo.headAt i + s.g.sectsize)) →
      d'.bytes a = (d.apply (s.ops size.toNat order)).bytes a := fun a hlog hsb => by
    refine h.rest a (fun hin => hlog ?_) fun i hi => ?_
    · rwa [f.bbs_eq.1] at hin
    · rw [hhead, hsect]
      exact hsb i (by rwa [← hcount])
  refine ⟨fun i hi => ⟨?_, hnamed i hi⟩, ?_, hrest, fun o ho i hi => ?_⟩
  · have hok := (h.holds.readable i (by rwa [hcount])).2
    rw [hhead, hbs] at hok
    rw [hx] at hok
    exact hok
  · obtain ⟨state, hrun, hdirty, hcycle, -⟩ := h.clean
    rw [h.healthy.heal_eq] at hrun
    exact ⟨state, Prod.ext hrun (run_quiet_healthy _ (logState_quiet _) h.healthy), hdirty,
      by omega⟩
  · rw [(hnamed i hi).carries.metaOf_eq, ← f.left_uuid (d := d) ho]
    refine Buf.ext (by rw [Disk.length_readBuf, Disk.length_readBuf]) fun k hk => ?_
    rw [Disk.length_readBuf] at hk
    obtain ⟨hlog, hsb⟩ := f.uuid_apart ho hk
    rw [Disk.byteAt_readBuf hk, Disk.byteAt_readBuf hk]
    exact hrest _ hlog hsb

/-- **Any sequence of UUID changes, restores and labels succeeds after a format**, and leaves the
filesystem under the names it gives; an initial part of the sequence is one too. -/
theorem format_renames (params : Params) (size : UInt64) (logical physical : UInt32)
    (id : Identity) (s : Setup) (hs : setup params size logical physical id = .ok s)
    (hmin : s.g.AgsMin) (hlog : s.g.LogFits) (order : List ℕ)
    (horder : Unordered agConcurrency (List.range s.g.agcount) order) (d d₀ : Disk)
    (hd : d.Healthy) (report : Report) (hrun : (Device.ofSize size logical).run
      (format params size logical physical id order) d = (.ok report, d₀))
    (calls : List Rename) (hcalls : ∀ call ∈ calls, call.Valid) (hlen : calls.length < 2 ^ 31) :
    ∃ d', (Device.ofSize size logical).run (renames (Device.ofSize size logical) calls) d₀ =
      (.ok (), d') ∧ s.Renamed (Device.ofSize size logical) d₀
        (calls.foldl (Names.after s.id.uuid) ⟨s.id.uuid, s.g.label, 0⟩) d' := by
  have hmem : ∀ i, i ∈ order ↔ i < s.g.agcount := fun i => by
    rw [horder.perm.mem_iff, List.mem_range]
  obtain ⟨hresult, rfl⟩ := Prod.mk.inj
    ((run_format hs hmin hlog (fun i hi => (hmem i).mp hi) hd).symm.trans hrun)
  obtain ⟨r, hchunk, -⟩ := bind_eq_ok.mp (show (s.chunk >>= fun _ => .ok s.report) = _ from hresult)
  have f : Formatted params size logical physical id order s := ⟨hs, hmin, hmem, r, hchunk⟩
  obtain ⟨fs', d', hren, halike, hgoes⟩ := (f.goes hd).run_renames hcalls (by
    have hmagic : 2 ^ 31 + 2 ≤ Log.headerMagic := by decide
    change 0 + calls.length + 2 ≤ Log.headerMagic
    omega)
  exact ⟨d', hren, f.renamed hgoes halike⟩

/-- The filesystem of 512 MiB gets another UUID, a label and its UUID back. -/
theorem format_renames_512m : ∃ d₀ d', (Device.ofSize 536870912 512).run
      (format {} 536870912 512 512 setup512m.id [0, 1, 2, 3]) Disk.blank =
        (.ok setup512m.report, d₀) ∧
    (Device.ofSize 536870912 512).run (renames (Device.ofSize 536870912 512)
      [.setUuid zeroUuid, .setLabel "data", .restoreUuid]) d₀ = (.ok (), d') ∧
    setup512m.Renamed (Device.ofSize 536870912 512) d₀
      ([.setUuid zeroUuid, .setLabel "data", .restoreUuid].foldl
        (Names.after setup512m.id.uuid) ⟨setup512m.id.uuid, setup512m.g.label, 0⟩) d' := by
  obtain ⟨d₀, hrun⟩ : ∃ d₀, (Device.ofSize 536870912 512).run
      (format {} 536870912 512 512 setup512m.id [0, 1, 2, 3]) Disk.blank =
        (.ok setup512m.report, d₀) := by
    rw [← run_512m]
    exact ⟨_, Prod.mk.eta.symm⟩
  have hlabel : LabelOk "data" := ⟨by decide, by decide⟩
  have hcalls : ∀ call ∈ [Rename.setUuid zeroUuid, .setLabel "data", .restoreUuid],
      call.Valid := by
    simp [Rename.Valid, hlabel]
  have hcount : setup512m.g.agcount = 4 := rfl
  have horder : Unordered agConcurrency (List.range setup512m.g.agcount) [0, 1, 2, 3] := by
    rw [hcount]
    exact .self (by decide) _
  have hblank : Disk.blank.Healthy := rfl
  obtain ⟨d', hd', hrenamed⟩ := format_renames {} 536870912 512 512 setup512m.id setup512m
    setup_512m agsMin_geo512m logFits_geo512m [0, 1, 2, 3] horder Disk.blank d₀ hblank
    setup512m.report hrun _ hcalls (by decide)
  exact ⟨d₀, d', hrun, hd', hrenamed⟩

end MkfsXfs
