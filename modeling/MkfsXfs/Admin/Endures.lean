import MkfsXfs.Admin.Contract
import MkfsXfs.Admin.Calls
import MkfsXfs.Admin.Renamed
import MkfsXfs.Kept

/-!
What a formatted filesystem keeps, whatever fails on its device and whenever it loses its power.

* `Descends`: a superblock that edits made of another, under one UUID of the metadata.
* `Endures`: all superblocks of a disk are such, and what is neither in a superblock nor in the
  log is as it was.  `Formatted.endures_opens` such a disk opens.
* `Formatted.lasting`: the contract of operations that keep it.
* `Boots`: the disks that a machine starts on, after sessions of calls that power losses ended.
* `format_endures`: on all of them, and all through a session, the filesystem is there.
* `format_endures_renamed`: a label can then be set, and a UUID that is set is set everywhere.
-/

namespace MkfsXfs

open Checked Sb Inspect

/-! ### Superblocks that edits made -/

/-- The superblock in `b` is made of `b₀` by edits: it checks, it has names, its metadata has the
UUID `m`, and it differs from `b₀` only where edits write. -/
structure Descends (g : Geo) (m : Uuid) (b₀ b : Buf) : Prop where
  length : b.length = g.blocksize
  ok : SbOk g b
  named : ∃ n, Named m n b
  same : ∀ i, ¬ Rewritten i → byteAt b i = byteAt b₀ i
  features : be32 b Off.featuresIncompat ||| Version.inMetaUuid =
    be32 b₀ Off.featuresIncompat ||| Version.inMetaUuid

lemma Descends.metaOf_eq {g : Geo} {m : Uuid} {b₀ b : Buf} (h : Descends g m b₀ b) :
    metaOf b = m := by
  obtain ⟨n, hn⟩ := h.named
  exact hn.carries.metaOf_eq

/-- An edit gives names, under the UUID of the metadata that the primary superblock gives. -/
lemma Renames.named {m : Uuid} {n : Names} {p b : Buf} {e : Buf → Buf} (he : Renames p e)
    (hp : metaOf p = m) (hlen : Off.past ≤ b.length) (hb : Named m n b) :
    ∃ n, Named m n (e b) := by
  cases he with
  | uuid uuid =>
      rw [hp]
      exact ⟨_, hb.withUuid hlen⟩
  | label hl => exact ⟨_, hb.withLabel hl hlen⟩

/-- **An edit that is written back descends.** -/
lemma Descends.edit {g : Geo} {m : Uuid} {b₀ b p : Buf} {e : Buf → Buf} (hg : g.Valid)
    (he : Renames p e) (hp : metaOf p = m) (h : Descends g m b₀ b) :
    Descends g m b₀ (Fs.sbToDisk g (e b)) := by
  have hblock := hg.blocksize_ge
  have hlen : Off.past ≤ b.length := by
    rw [h.length, Off.past]
    omega
  obtain ⟨n, hn⟩ := h.named
  obtain ⟨n', hn'⟩ := he.named hp hlen hn
  refine ⟨?_, h.ok.sbToDisk_edit hg he.sbEdit h.length, ⟨n', hn'.sbToDisk⟩,
    fun i hi => (he.sbEdit.byteAt_sbToDisk hi).trans (h.same i hi), ?_⟩
  · rw [length_sbToDisk, he.sbEdit.length, h.length]
  · rw [be32_sbToDisk_features,
      he.sbEdit.features (by rw [h.length, Off.featuresIncompat]; omega), h.features]

/-! ### Disks that endure -/

/-- What lives on of the filesystem `s`, formatted as on `d₀`: every superblock is made of its
own by edits, under the UUID of the format, and what is not in a superblock or in the log is as
it was. -/
structure Endures (s : Setup) (d₀ d : Disk) : Prop where
  superblock : ∀ i < s.g.agcount, Descends s.g.geo s.id.uuid
    (d₀.readBuf (s.g.geo.headAt i) s.g.bs) (d.readBuf (s.g.geo.headAt i) s.g.bs)
  rest : ∀ a, ¬ s.logRange.Holds a →
    (∀ i < s.g.agcount, ¬ (s.g.geo.headAt i ≤ a ∧ a < s.g.geo.headAt i + s.g.sectsize)) →
    d.bytes a = d₀.bytes a

namespace Endures

variable {s : Setup} {d₀ d d' : Disk} {op : DevOp}

/-- All that counts are the bytes. -/
lemma congr (hbytes : d'.bytes = d.bytes) (h : Endures s d₀ d) : Endures s d₀ d' where
  superblock i hi := by
    have hread : d'.readBuf (s.g.geo.headAt i) s.g.bs = d.readBuf (s.g.geo.headAt i) s.g.bs :=
      Disk.readBuf_congr fun a _ _ => congrFun hbytes a
    rw [hread]
    exact h.superblock i hi
  rest a hlog hsb := (congrFun hbytes a).trans (h.rest a hlog hsb)

/-- What does not write keeps it. -/
lemma gentle_quiet (hop : Quiet op) : op.Gentle (Endures s d₀) := fun _ hd =>
  hd.congr (funext fun a => Disk.bytes_effect_of_not_touches (hop a))

/-- The first sector shows what it showed. -/
lemma shown (hpos : 0 < s.g.agcount) (hblock : 512 ≤ s.g.bs) (h₀ : s.Shown d₀.bytes)
    (h : Endures s d₀ d) : s.Shown d.bytes := fun i hi hr => by
  have hsame := (h.superblock 0 hpos).same i hr
  rw [Geo.headAt_zero, Disk.byteAt_readBuf (by omega), Disk.byteAt_readBuf (by omega),
    Nat.zero_add] at hsame
  rw [hsame]
  exact h₀ i hi hr

end Endures

namespace Formatted

variable {params : Params} {size : UInt64} {logical physical : UInt32} {id : Identity}
  {order : List ℕ} {s : Setup} {d₀ d : Disk} {agno : ℕ} {op : DevOp}

section Keeps

variable (f : Formatted params size logical physical id order s)

include f

lemma valid : s.g.geo.Valid := Geo.parse_valid (f.parse_image s.finished)

lemma block_ge : 512 ≤ s.g.bs := (le_max_right _ _).trans f.sector_le.1

/-- **What is written in the log keeps everything else.** -/
lemma gentle_log (hop : s.OnLog size.toNat op) : op.Gentle (Endures s d₀) := fun d hd => by
  refine ⟨fun i hi => ?_, fun a hlog hsb => ?_⟩
  · have hread : (op.effect d).readBuf (s.g.geo.headAt i) s.g.bs =
        d.readBuf (s.g.geo.headAt i) s.g.bs := Disk.readBuf_congr fun a hlo hhi =>
      Disk.bytes_effect_of_not_touches fun htouch => by
        have hin := hop.inside htouch
        have hapart := f.head_apart hi
        have hbs : s.g.geo.blocksize = s.g.bs := rfl
        omega
    rw [hread]
    exact hd.superblock i hi
  · rw [Disk.bytes_effect_of_not_touches fun htouch => hlog (hop.inside htouch)]
    exact hd.rest a hlog hsb

/-- **So does a superblock that is written back.** -/
lemma put_superblock (hag : agno < s.g.agcount) {b : Buf}
    (hb : Descends s.g.geo s.id.uuid (d₀.readBuf (s.g.geo.headAt agno) s.g.bs) b)
    (hd : Endures s d₀ d) : Endures s d₀ (d.put (s.g.geo.headAt agno) b) := by
  have hlen : b.length = s.g.bs := hb.length
  have hbs : s.g.geo.blocksize = s.g.bs := rfl
  refine ⟨fun i hi => ?_, fun a hlog hsb => ?_⟩
  · by_cases heq : i = agno
    · subst heq
      have hread : (d.put (s.g.geo.headAt i) b).readBuf (s.g.geo.headAt i) s.g.bs = b := by
        have hput : (d.put (s.g.geo.headAt i) b).readBuf (s.g.geo.headAt i + 0) s.g.bs =
            (b.drop 0).take s.g.bs := Disk.readBuf_put (by omega)
        rwa [Nat.add_zero, List.drop_zero, List.take_of_length_le hlen.le] at hput
      rw [hread]
      exact hb
    · have hapart := Geo.headAt_disjoint f.valid heq
      rw [Disk.readBuf_put_of_disjoint (by omega)]
      exact hd.superblock i hi
  · by_cases hin : s.g.geo.headAt agno ≤ a ∧ a < s.g.geo.headAt agno + s.g.bs
    · -- Past the sector, nothing of the block is edited.
      have hsect : 512 ≤ s.g.sectsize := (f.accepted.narrow size.toNat_lt).sectsize.1
      have hpast : ¬ Rewritten (a - s.g.geo.headAt agno) := fun hr => by
        have := hr.lt
        exact hsb agno hag (by omega)
      rw [Disk.bytes_put_of_mem hin.1 (by omega), hb.same _ hpast,
        Disk.byteAt_readBuf (by omega), Nat.add_sub_cancel' hin.1]
    · rw [Disk.bytes_put_of_not_mem (by omega)]
      exact hd.rest a hlog hsb

end Keeps

/-- **The contract of operations that keep the filesystem.** -/
def lasting (f : Formatted params size logical physical id order s) (h₀ : s.Shown d₀.bytes) :
    s.Contract size logical where
  Answer := DevOp.Told (Endures s d₀)
  Op := DevOp.Gentle (Endures s d₀)
  Super agno b := Descends s.g.geo s.id.uuid (d₀.readBuf (s.g.geo.headAt agno) s.g.bs) b
  first := Endures.gentle_quiet fun _ => fun h => h
  shows a ha i hi hr := by
    obtain ⟨d, hd, rfl⟩ := ha
    have hread : byteAt (d.readBuf 0 (max logical.toNat 512)) i = d.bytes (0 + i) :=
      Disk.byteAt_readBuf (hi.trans_le (le_max_right _ _))
    rw [Nat.zero_add] at hread
    exact hread.trans (hd.shown f.agcount_pos f.block_ge h₀ i hi hr)
  super agno hag a ha := by
    obtain ⟨d, hd, rfl⟩ := ha
    exact hd.superblock agno hag
  look _ h := Endures.gentle_quiet h.quiet
  log _ h := f.gentle_log h
  edit agno hag b p e _ _ hb hp he := fun _ hd =>
    f.put_superblock hag (hb.edit f.valid he hp.metaOf_eq) hd

section Opens

variable (f : Formatted params size logical physical id order s)

include f

/-- The disk of the format endures itself. -/
lemma endures_left : Endures s (d.apply (s.ops size.toNat order))
    (d.apply (s.ops size.toNat order)) where
  superblock i hi := by
    obtain ⟨sbs, huuid, hread⟩ := f.left_sbRead (d := d) hi
    rw [← huuid]
    exact ⟨Disk.length_readBuf _ _ _, hread.ok, ⟨_, hread.named⟩, fun _ _ => rfl, rfl⟩
  rest _ _ _ := rfl

/-- The filesystem as an enduring disk opens it. -/
def lastFs (d d' : Disk) : Fs := (f.fs d).again (d'.readBuf 0 s.g.bs)

variable {d' : Disk} (h : Endures s (d.apply (s.ops size.toNat order)) d')

include h

/-- The primary superblock of an enduring disk. -/
lemma endures_primary : Descends s.g.geo s.id.uuid (f.fs d).primary (d'.readBuf 0 s.g.bs) := by
  have hzero := h.superblock 0 f.agcount_pos
  rwa [Geo.headAt_zero] at hzero

/-- **An enduring disk holds the filesystem**: it opens, and all superblocks can be read. -/
lemma endures_holds : Holds (Device.ofSize size logical) d' (f.lastFs d d') where
  opened := by
    have hp := f.endures_primary h
    exact f.opened.again rfl hp.ok hp.same hp.features
  readable i hi := ⟨((f.holds (d := d)).readable i hi).1, (h.superblock i hi).ok⟩
  apart {start bbs cycle} hext i hi := (f.holds (d := d)).apart hext i hi

lemma lastFs_metaUuid : (f.lastFs d d').metaUuid = s.id.uuid :=
  (f.endures_primary h).metaOf_eq

end Opens

end Formatted

/-! ### Sessions and power losses -/

/-- The operations that calls complete, one after the other, each whether it succeeds or fails. -/
def Call.done (dev : Device) : List Call → Disk → List DevOp
  | [], _ => []
  | call :: calls, d =>
      dev.trace (call.prog dev) d ++ Call.done dev calls (dev.run (call.prog dev) d).2

/-- The disks on which a machine starts after the format of `d₀`: at first it is the disk of the
format; later it is what a power loss left, at any point of a session of calls.  What is to fail
on it is new each time. -/
inductive Boots (dev : Device) (d₀ : Disk) : Disk → Prop where
  | formatted {d : Disk} (hbytes : d.bytes = d₀.bytes) : Boots dev d₀ d
  | powerLoss {d d' : Disk} {calls : List Call} {done kept : List DevOp} (h : Boots dev d₀ d)
      (hdone : done <+: Call.done dev calls d) (hkept : Survives (· = .flush) done kept)
      (hbytes : d'.bytes = (d.apply kept).bytes) : Boots dev d₀ d'

/-- The filesystem `s` is there on the disk `d`, which was formatted as on `d₀`: it opens, every
superblock checks and has names with the UUID of the format for that of the metadata, the other
metadata has it, and what is not in a superblock or in the log is as it was. -/
structure Setup.Intact (s : Setup) (dev : Device) (d₀ d : Disk) : Prop where
  opens : ∃ fs, (dev.run (openFs dev) d.heal).1 = .ok fs ∧ fs.metaUuid = s.id.uuid
  superblock : ∀ i < s.g.agcount, SbOk s.g.geo (d.readBuf (s.g.geo.headAt i) s.g.bs) ∧
    ∃ n, Named s.id.uuid n (d.readBuf (s.g.geo.headAt i) s.g.bs)
  metadata : ∀ o, s.HoldsUuid o → d.readBuf o 16 = s.id.uuid.1
  rest : ∀ a, ¬ s.logRange.Holds a →
    (∀ i < s.g.agcount, ¬ (s.g.geo.headAt i ≤ a ∧ a < s.g.geo.headAt i + s.g.sectsize)) →
    d.bytes a = d₀.bytes a

namespace Formatted

variable {params : Params} {size : UInt64} {logical physical : UInt32} {id : Identity}
  {order : List ℕ} {s : Setup} {d d' d₀ : Disk}

section Sessions

variable (f : Formatted params size logical physical id order s)

include f

/-- **A session keeps the filesystem**, and so does each operation that it completes. -/
lemma endures_leave (h₀ : s.Shown d₀.bytes) (h : Endures s d₀ d) (calls : List Call) :
    Endures s d₀ (Call.leave (Device.ofSize size logical).step (Device.ofSize size logical)
      calls d) ∧
    ∀ op ∈ Call.done (Device.ofSize size logical) calls d, op.Gentle (Endures s d₀) := by
  induction calls generalizing d with
  | nil => exact ⟨h, fun op hop => by cases hop⟩
  | cons call calls ih =>
      have hcall : Keeps (Endures s d₀) (call.prog (Device.ofSize size logical))
          (fun _ => True) :=
        Prog.SafeUnder.mono (f.call_under (f.lasting h₀) call) (fun _ h => h)
          (fun _ _ => trivial) fun _ h => h
      obtain ⟨hkept, -, htrace⟩ := hcall.run Endures.congr h
      obtain ⟨hrest, hdone⟩ := ih hkept
      refine ⟨hrest, fun op hop => ?_⟩
      rcases List.mem_append.mp hop with hfirst | hlater
      · exact htrace op hfirst
      · exact hdone op hlater

/-- **So does a power loss.** -/
lemma endures_boots (h₀ : s.Shown d₀.bytes) (hself : Endures s d₀ d₀)
    (hboots : Boots (Device.ofSize size logical) d₀ d) : Endures s d₀ d := by
  induction hboots with
  | formatted hbytes => exact hself.congr hbytes
  | @powerLoss d d' calls done kept _ hdone hkept hbytes ih =>
      have hgentle := (f.endures_leave h₀ ih calls).2
      refine Endures.congr hbytes (Disk.apply_of_keeps (fun op hop d hd => ?_) ih)
      exact hgentle op (hdone.subset (hkept.sublist.subset hop)) d hd

/-- What endures is there. -/
lemma intact (h : Endures s (d.apply (s.ops size.toNat order)) d') :
    s.Intact (Device.ofSize size logical) (d.apply (s.ops size.toNat order)) d' where
  opens := by
    have hopen : Opened (Device.ofSize size logical) d'.heal (f.lastFs d d') :=
      (f.endures_holds h).opened.of_bytes rfl
    refine ⟨_, ?_, f.lastFs_metaUuid h⟩
    rw [run_openFs d'.heal_healthy hopen]
  superblock i hi := ⟨(h.superblock i hi).ok, (h.superblock i hi).named⟩
  metadata o ho := by
    rw [← f.left_uuid (d := d) ho]
    refine Buf.ext (by rw [Disk.length_readBuf, Disk.length_readBuf]) fun k hk => ?_
    rw [Disk.length_readBuf] at hk
    obtain ⟨hlog, hsb⟩ := f.uuid_apart ho hk
    rw [Disk.byteAt_readBuf hk, Disk.byteAt_readBuf hk]
    exact h.rest _ hlog hsb
  rest := h.rest

/-- The superblocks of what endures, edited. -/
lemma endures_edited (h : Endures s (d.apply (s.ops size.toNat order)) d') {t : Disk}
    (hsame : ∀ i < s.g.agcount,
      t.readBuf (s.g.geo.headAt i) s.g.bs = d'.readBuf (s.g.geo.headAt i) s.g.bs)
    {e : Buf → Buf} (he : SbEdit e) {P : Names → Prop} (hnames : ∀ n b, Off.past ≤ b.length →
      Named s.id.uuid n b → ∃ n, P n ∧ Named s.id.uuid n (e b)) : ∀ i < s.g.agcount, ∃ n, P n ∧
    Named s.id.uuid n ((editAgs (f.lastFs d d').geo e 0 (f.lastFs d d').geo.agcount t).readBuf
      (s.g.geo.headAt i) s.g.bs) := fun i hi => by
  have hread : (editAgs (f.lastFs d d').geo e 0 (f.lastFs d d').geo.agcount t).readBuf
      (s.g.geo.headAt i) s.g.bs = Fs.sbToDisk (f.lastFs d d').geo
        (e (t.readBuf (s.g.geo.headAt i) s.g.bs)) :=
    readBuf_editAgs (f.lastFs d d').valid he.length (Nat.zero_le i)
      (by rw [Nat.zero_add]; exact hi)
  have hlen : Off.past ≤ (d'.readBuf (s.g.geo.headAt i) s.g.bs).length := by
    have hblock : 512 ≤ s.g.bs := f.block_ge
    rw [Disk.length_readBuf, Off.past]
    omega
  obtain ⟨n, hn⟩ := (h.superblock i hi).named
  obtain ⟨n', hP, hn'⟩ := hnames n _ hlen hn
  rw [hread, hsame i hi]
  exact ⟨n', hP, hn'.sbToDisk⟩

/-- **A label can be set on what endures**, and all superblocks have it then. -/
lemma endures_setLabel (h : Endures s (d.apply (s.ops size.toNat order)) d') (hd' : d'.Healthy)
    {label : String} (hl : LabelOk label) : ∃ d₁, (Device.ofSize size logical).run
      (setLabel (Device.ofSize size logical) label) d' = (.ok (), d₁) ∧
    ∀ i < s.g.agcount, ∃ n, n.label = padLabel label.toUTF8.toList ∧
      Named s.id.uuid n (d₁.readBuf (s.g.geo.headAt i) s.g.bs) :=
  ⟨_, (f.endures_holds h).run_setLabel hd' hl, f.endures_edited h (fun _ _ => rfl)
    (sbEdit_withLabel hl) fun _ _ hlen hn => ⟨_, rfl, hn.withLabel hl hlen⟩⟩

/-- **A UUID that is set on it is in all superblocks.** -/
lemma endures_setUuid (h : Endures s (d.apply (s.ops size.toNat order)) d') (hd' : d'.Healthy)
    {uuid : Uuid} {d₁ : Disk} (hrun : (Device.ofSize size logical).run
      (setUuid (Device.ofSize size logical) uuid) d' = (.ok (), d₁)) :
    ∀ i < s.g.agcount, ∃ n, n.uuid = uuid ∧
      Named s.id.uuid n (d₁.readBuf (s.g.geo.headAt i) s.g.bs) := by
  have hholds := f.endures_holds h
  obtain ⟨start, bbs, cycle, hext, -, hclears, -, rfl⟩ :=
    (run_setUuid_eq_ok hd' hholds.opened).1 hrun
  rw [f.lastFs_metaUuid h]
  exact f.endures_edited h (fun i hi => hholds.readBuf_cleared hext hclears hi d')
    (sbEdit_withUuid uuid _) fun _ _ hlen hn => ⟨_, rfl, hn.withUuid hlen⟩

end Sessions

/-- A format that succeeded, whatever failed before: what it left is the disk of its plan. -/
lemma of_run (hs : setup params size logical physical id = .ok s)
    (horder : Unordered agConcurrency (List.range s.g.agcount) order) {report : Report}
    (hrun : (Device.ofSize size logical).run (format params size logical physical id order) d =
      (.ok report, d₀)) : Formatted params size logical physical id order s ∧
    d₀.heal = d.heal.apply (s.ops size.toNat order) ∧ s.Shown d₀.bytes := by
  have hmem : ∀ i, i ∈ order ↔ i < s.g.agcount := fun i => by
    rw [horder.perm.mem_iff, List.mem_range]
  have hacc := compute_eq_ok.mp (setup_eq_ok.mp hs).1
  have hlog := hacc.logFits size.toNat_lt (setup_eq_ok.mp hs).2.1
  have hmin := setup_agsMin hs
  obtain ⟨hshown, r, hchunk⟩ := format_shown hs hmin (Device.serves _) hrun
  refine ⟨⟨hs, hmin, hmem, r, hchunk⟩, ?_, hshown⟩
  have hheal := (run_format hs hmin hlog (fun i hi => (hmem i).mp hi)
    d.heal_healthy).symm.trans (Device.run_heal hrun)
  exact (congrArg Prod.snd hheal).symm

/-- What endures from the format on, through power losses and sessions. -/
lemma endures (f : Formatted params size logical physical id order s)
    (hd₀ : d₀.heal = d.apply (s.ops size.toNat order)) (hshown : s.Shown d₀.bytes)
    (hboots : Boots (Device.ofSize size logical) d₀ d') (calls : List Call) :
    Endures s (d.apply (s.ops size.toNat order)) (Call.leave (Device.ofSize size logical).step
      (Device.ofSize size logical) calls d') := by
  have hself : Endures s d₀ d₀ := by
    have hleft := f.endures_left (d := d)
    rw [← hd₀] at hleft
    exact ⟨hleft.superblock, hleft.rest⟩
  have hall := (f.endures_leave hshown (f.endures_boots hshown hself hboots) calls).1
  rw [← hd₀]
  exact ⟨hall.superblock, hall.rest⟩

end Formatted

/-! ### From a format on -/

/-- What a change of the UUID of 512 MiB completes but for its last operation, the flush of the
superblocks. -/
def done512m (d₀ : Disk) : List DevOp :=
  (Call.done (Device.ofSize 536870912 512) [.setUuid zeroUuid] d₀.heal).dropLast

/-- The disk after a power loss that left `kept`, on which the fortieth operation is to fail. -/
def rebooted (d₀ : Disk) (kept : List DevOp) : Disk :=
  ⟨(d₀.heal.apply kept).bytes, fun _ => false, (· = 40)⟩

/-- The power is lost before that flush, with all that was not flushed. -/
lemma boots_512m (d₀ : Disk) : ∃ kept lost, done512m d₀ = kept ++ lost ∧
    (∀ op ∈ lost, op ≠ .flush) ∧ Boots (Device.ofSize 536870912 512) d₀ (rebooted d₀ kept) := by
  obtain ⟨kept, lost, hsplit, hlost, hkept⟩ := Survives.exists_least (· = .flush) (done512m d₀)
  have hstart : Boots (Device.ofSize 536870912 512) d₀ d₀.heal := .formatted rfl
  exact ⟨kept, lost, hsplit, hlost, hstart.powerLoss (List.dropLast_prefix _) hkept rfl⟩

/-- **A filesystem outlives failures and power losses.**  Whenever a power loss ends a session of
calls, whatever of what was not flushed it takes, and whatever fails in between: on the disk that
is left, and all through the next session, the filesystem is there. -/
theorem format_endures (params : Params) (size : UInt64) (logical physical : UInt32)
    (id : Identity) (s : Setup) (hs : setup params size logical physical id = .ok s)
    (order : List ℕ) (horder : Unordered agConcurrency (List.range s.g.agcount) order) (d d₀ : Disk)
    (report : Report) (hrun : (Device.ofSize size logical).run
      (format params size logical physical id order) d = (.ok report, d₀)) (boot : Disk)
    (hboots : Boots (Device.ofSize size logical) d₀ boot) (calls : List Call) :
    s.Intact (Device.ofSize size logical) d₀
      (Call.leave (Device.ofSize size logical).step (Device.ofSize size logical) calls boot) := by
  obtain ⟨f, hd₀, hshown⟩ := Formatted.of_run hs horder hrun
  have hintact := f.intact (f.endures hd₀ hshown hboots calls)
  exact ⟨hintact.opens, hintact.superblock, hintact.metadata, fun a hlog hsb => by
    rw [hintact.rest a hlog hsb, ← hd₀]
    rfl⟩

/-- The filesystem of 512 MiB, when the power is lost in a UUID change and the fortieth operation
of the next one fails. -/
theorem format_endures_512m : ∃ d₀ kept lost, (Device.ofSize 536870912 512).run
      (format {} 536870912 512 512 setup512m.id [0, 1, 2, 3]) Disk.blank =
        (.ok setup512m.report, d₀) ∧
    done512m d₀ = kept ++ lost ∧ (∀ op ∈ lost, op ≠ .flush) ∧
    setup512m.Intact (Device.ofSize 536870912 512) d₀
      (Call.leave (Device.ofSize 536870912 512).step (Device.ofSize 536870912 512)
        [.setUuid zeroUuid, .dump] (rebooted d₀ kept)) := by
  obtain ⟨d₀, hrun⟩ := exists_run_512m
  obtain ⟨kept, lost, hsplit, hlost, hboots⟩ := boots_512m d₀
  have hintact := format_endures {} 536870912 512 512 setup512m.id setup512m setup_512m
    [0, 1, 2, 3] unordered_512m Disk.blank d₀ setup512m.report hrun (rebooted d₀ kept) hboots
    [.setUuid zeroUuid, .dump]
  exact ⟨d₀, kept, lost, hrun, hsplit, hlost, hintact⟩

/-- **Its names can be put right.**  Once nothing fails any more, a label can be set, and all
superblocks have it then; and a UUID that is set is in all of them. -/
theorem format_endures_renamed (params : Params) (size : UInt64) (logical physical : UInt32)
    (id : Identity) (s : Setup) (hs : setup params size logical physical id = .ok s)
    (order : List ℕ) (horder : Unordered agConcurrency (List.range s.g.agcount) order) (d d₀ : Disk)
    (report : Report) (hrun : (Device.ofSize size logical).run
      (format params size logical physical id order) d = (.ok report, d₀)) (boot : Disk)
    (hboots : Boots (Device.ofSize size logical) d₀ boot) (calls : List Call) :
    (∀ label, LabelOk label → ∃ d₁, (Device.ofSize size logical).run
        (setLabel (Device.ofSize size logical) label) (Call.leave
          (Device.ofSize size logical).step (Device.ofSize size logical) calls boot).heal =
          (.ok (), d₁) ∧
      ∀ i < s.g.agcount, ∃ n, n.label = padLabel label.toUTF8.toList ∧
        Named s.id.uuid n (d₁.readBuf (s.g.geo.headAt i) s.g.bs)) ∧
    ∀ uuid d₁, (Device.ofSize size logical).run (setUuid (Device.ofSize size logical) uuid)
        (Call.leave (Device.ofSize size logical).step (Device.ofSize size logical) calls
          boot).heal = (.ok (), d₁) →
      ∀ i < s.g.agcount, ∃ n, n.uuid = uuid ∧
        Named s.id.uuid n (d₁.readBuf (s.g.geo.headAt i) s.g.bs) := by
  obtain ⟨f, hd₀, hshown⟩ := Formatted.of_run hs horder hrun
  have hall := f.endures hd₀ hshown hboots calls
  have hheal : Endures s (d.heal.apply (s.ops size.toNat order)) (Call.leave
      (Device.ofSize size logical).step (Device.ofSize size logical) calls boot).heal :=
    ⟨hall.superblock, hall.rest⟩
  exact ⟨fun label hl => f.endures_setLabel hheal (Disk.heal_healthy _) hl,
    fun uuid d₁ hset => f.endures_setUuid hheal (Disk.heal_healthy _) hset⟩

/-- The filesystem of 512 MiB gets a label after that. -/
theorem format_endures_renamed_512m : ∃ d₀ kept lost d₁, (Device.ofSize 536870912 512).run
      (format {} 536870912 512 512 setup512m.id [0, 1, 2, 3]) Disk.blank =
        (.ok setup512m.report, d₀) ∧
    done512m d₀ = kept ++ lost ∧ (∀ op ∈ lost, op ≠ .flush) ∧
    (Device.ofSize 536870912 512).run (setLabel (Device.ofSize 536870912 512) "data")
      (Call.leave (Device.ofSize 536870912 512).step (Device.ofSize 536870912 512)
        [.setUuid zeroUuid] (rebooted d₀ kept)).heal = (.ok (), d₁) ∧
    ∀ i < setup512m.g.agcount, ∃ n, n.label = padLabel "data".toUTF8.toList ∧
      Named setup512m.id.uuid n (d₁.readBuf (setup512m.g.geo.headAt i) setup512m.g.bs) := by
  obtain ⟨d₀, hrun⟩ := exists_run_512m
  obtain ⟨kept, lost, hsplit, hlost, hboots⟩ := boots_512m d₀
  obtain ⟨hlabel, -⟩ := format_endures_renamed {} 536870912 512 512 setup512m.id setup512m
    setup_512m [0, 1, 2, 3] unordered_512m Disk.blank d₀ setup512m.report hrun
    (rebooted d₀ kept) hboots [.setUuid zeroUuid]
  obtain ⟨d₁, hset, hall⟩ := hlabel "data" ⟨by decide, by decide⟩
  exact ⟨d₀, kept, lost, d₁, hrun, hsplit, hlost, hset, hall⟩

end MkfsXfs
