import MkfsXfs.Admin.Blocks

/-!
The calls on a formatted filesystem, and what can be said of all of them at once.

* `Call`: a call of `src/admin.rs` or `src/inspect.rs` on a formatted filesystem.
* `Renames`: the edits that calls make of superblocks.
* `Setup.Contract`: what the calls rely on in the answers they get, and what they guarantee of the
  operations they issue.
* `Formatted.call_under`: every call keeps every contract.
-/

namespace MkfsXfs

open Checked Sb Inspect

/-- A call on a formatted filesystem. -/
inductive Call where
  | dump
  | logState
  | setLabel (label : String)
  | setUuid (uuid : Uuid)
  | restoreUuid

/-- The call on a device, for what it does to the device. -/
def Call.prog (dev : Device) : Call → DevM Unit
  | dump => do
      let _ ← MkfsXfs.dump dev
      return ()
  | logState => do
      let _ ← MkfsXfs.logState dev
      return ()
  | setLabel label => MkfsXfs.setLabel dev label
  | setUuid uuid => MkfsXfs.setUuid dev uuid
  | restoreUuid => do
      let _ ← MkfsXfs.restoreUuid dev
      return ()

/-- The edits that calls make of superblocks, `p` being the primary one as it was read. -/
inductive Renames (p : Buf) : (Buf → Buf) → Prop where
  | uuid (uuid : Uuid) : Renames p (withUuid uuid (metaOf p))
  | label {label : String} (h : LabelOk label) : Renames p (withLabel label)

lemma Renames.sbEdit {p : Buf} {e : Buf → Buf} (h : Renames p e) : SbEdit e := by
  cases h with
  | uuid uuid => exact sbEdit_withUuid uuid _
  | label h => exact sbEdit_withLabel h

/-! ### The contract -/

/-- What calls on the filesystem `s` rely on and guarantee: `Answer` of what a device answers,
`Op` of the operations, and `Super` of what the superblock of an AG is read as. -/
structure Setup.Contract (s : Setup) (size : UInt64) (logical : UInt32) where
  Answer : (op : DevOp) → op.Ans → Prop
  Op : DevOp → Prop
  Super : ℕ → Buf → Prop
  first : Op (.readAt 0 (max logical.toNat 512))
  shows : ∀ a, Answer (.readAt 0 (max logical.toNat 512)) a →
    ∀ i < 512, ¬ Rewritten i → byteAt a.1 i = byteAt (image s.g s.finished) i
  super : ∀ agno < s.g.agcount, ∀ a, Answer (.readAt (s.g.geo.headAt agno) s.g.bs) a →
    Super agno a.1
  look : ∀ op, Look s.g.bs size.toNat op → Op op
  log : ∀ op, s.OnLog size.toNat op → Op op
  edit : ∀ agno < s.g.agcount, ∀ b p e, b.length = s.g.bs → SbOk s.g.geo b → Super agno b →
    Super 0 p → Renames p e → Op (.writeAt (s.g.geo.headAt agno) (Fs.sbToDisk s.g.geo (e b)))

/-- The program keeps the contract, and comes to results with `Q`; its own faults are not those
of a device. -/
def Setup.Contract.Under {α : Type} {s : Setup} {size : UInt64} {logical : UInt32}
    (c : s.Contract size logical) (p : DevM α) (Q : α → Prop) : Prop :=
  p.SafeUnder c.Answer c.Op Own Q

namespace Setup.Contract.Under

variable {α β : Type} {s : Setup} {size : UInt64} {logical : UInt32}
  {c : s.Contract size logical} {p : DevM α} {f : α → DevM β} {Q : α → Prop} {R : β → Prop}

lemma bind (hp : c.Under p Q) (hf : ∀ a, Q a → c.Under (f a) R) : c.Under (p >>= f) R :=
  Prog.SafeUnder.bind hp hf

/-- What looks at whole blocks, whatever is read. -/
lemma of_look (hp : p.Safe (Look s.g.bs size.toNat) Own Q) : c.Under p Q :=
  Prog.SafeUnder.mono hp.under c.look (fun _ h => h) fun _ h => h

/-- What stays in the log. -/
lemma of_log (hp : p.Safe (s.OnLog size.toNat) Own Q) : c.Under p Q :=
  Prog.SafeUnder.mono hp.under c.log (fun _ h => h) fun _ h => h

/-- What is computed. -/
lemma ofExcept {x : Exec α} (hE : ∀ e, x = .error e → Own e) (hQ : ∀ a, x = .ok a → Q a) :
    c.Under (Prog.ofExcept x) Q := of_look (safe_ofExcept_of hE hQ)

lemma flush : c.Under MkfsXfs.flush (fun _ => True) := of_look (safe_flush (look_flush _ _) trivial)

end Setup.Contract.Under

namespace Formatted

variable {params : Params} {size : UInt64} {logical physical : UInt32} {id : Identity}
  {order : List ℕ} {s : Setup} {agno x : ℕ} {c : s.Contract size logical}

section Superblocks

variable (f : Formatted params size logical physical id order s)

include f

/-- What shows the finished superblock is read as its geometry. -/
lemma parse_shown {b : Buf} (hlen : 512 ≤ b.length) (hshow : ∀ i < 512, ¬ Rewritten i →
    byteAt b i = byteAt (image s.g s.finished) i) :
    ∃ g, Geo.parseValid b = .ok g ∧ g.1 = s.readGeo (be32 b Off.featuresIncompat) := by
  have h512 : 512 ≤ (image s.g s.finished).length := by
    rw [Sb.length_image]
    exact (f.accepted.narrow size.toNat_lt).sectsize.1
  have hparse := Geo.parse_edited h512 hlen hshow (f.parse_image s.finished)
  exact ⟨⟨_, Geo.parse_valid hparse⟩, Geo.parseValid_eq_ok.mpr hparse, rfl⟩

/-- Reading the geometry. -/
lemma geometry_under : c.Under (geometry (Device.ofSize size logical))
    (fun g => ∃ x, g.1 = s.readGeo x) := by
  obtain ⟨hsector, hsize⟩ := f.sector_le
  have hmin : min (max (Device.ofSize size logical).logicalSectorSize 512)
      (Device.ofSize size logical).size = max logical.toNat 512 := by
    change min (max logical.toNat 512) size.toNat = _
    omega
  rw [geometry, hmin]
  refine Setup.Contract.Under.bind (Q := fun b => 512 ≤ b.length ∧ ∀ i < 512, ¬ Rewritten i →
    byteAt b i = byteAt (image s.g s.finished) i) ?_ fun b hb => ?_
  · refine ⟨c.first, fun b hb => ⟨?_, c.shows b hb⟩⟩
    rw [b.2]
    exact le_max_right _ _
  · obtain ⟨g, hok, hg⟩ := f.parse_shown hb.1 hb.2
    rw [hok]
    exact ⟨_, hg⟩

/-- Reading a superblock. -/
lemma readSb_under (hag : agno < s.g.agcount) : c.Under (readSb (s.readGeo x) agno)
    (fun b => b.length = s.g.bs ∧ SbOk s.g.geo b ∧ c.Super agno b) := by
  rw [readSb]
  refine Setup.Contract.Under.bind (Q := (· = s.g.geo.headAt agno)) (.ofExcept (fun e he => ?_)
    fun off hoff => (fit_eq_ok.mp hoff).2) fun off hoff => ?_
  · rw [sbOffset_error he]
    exact .panic
  · subst hoff
    refine Setup.Contract.Under.bind (Q := fun b => b.length = s.g.bs ∧ c.Super agno b) ?_
      fun b hb => ?_
    · exact ⟨c.look _ (look_read (f.whole_superblock hag rfl rfl)),
        fun b hb => ⟨b.2, c.super agno hag b hb⟩⟩
    · refine .ofExcept (fun e he => ?_) fun b' hb' => ?_
      · rcases checkSb_error he with rfl | rfl <;> exact .of_refusal trivial
      · obtain ⟨hok, rfl⟩ := checkSb_eq_ok.mp hb'
        exact ⟨hb.1, hok, hb.2⟩

/-- Editing a superblock. -/
lemma rewriteSb_under (hag : agno < s.g.agcount) {fs : Fs} (hfs : fs.geo = s.readGeo x)
    (hp : c.Super 0 fs.primary) {e : Buf → Buf} (he : Renames fs.primary e) :
    c.Under (rewriteSb fs e agno) (fun _ => True) := by
  rw [rewriteSb, hfs]
  refine (f.readSb_under hag).bind fun b hb => ?_
  obtain ⟨hlen, hok, hsuper⟩ := hb
  rw [Fs.writeSb, hfs]
  refine Setup.Contract.Under.bind (Q := (· = s.g.geo.headAt agno)) (.ofExcept (fun e he => ?_)
    fun off hoff => (fit_eq_ok.mp hoff).2) fun off hoff => ?_
  · rw [sbOffset_error he]
    exact .panic
  · subst hoff
    exact ⟨c.edit agno hag b fs.primary e hlen hok hsuper hp he, fun _ _ => trivial⟩

/-- Editing the superblocks of all AGs. -/
lemma eachAg_under {fs : Fs} (hfs : fs.geo = s.readGeo x) (hp : c.Super 0 fs.primary)
    {e : Buf → Buf} (he : Renames fs.primary e) :
    ∀ n agno, agno + n ≤ s.g.agcount → c.Under (eachAg (rewriteSb fs e) agno n) (fun _ => True)
  | 0, _, _ => trivial
  | n + 1, agno, hn => (f.rewriteSb_under (by omega) hfs hp he).bind fun _ _ =>
      eachAg_under hfs hp he n (agno + 1) (by omega)

/-- Opening the filesystem. -/
lemma openFs_under : c.Under (openFs (Device.ofSize size logical))
    (fun fs => (∃ x, fs.geo = s.readGeo x) ∧ c.Super 0 fs.primary) := by
  rw [openFs]
  refine f.geometry_under.bind fun r hr => ?_
  obtain ⟨g, hg⟩ := r
  obtain ⟨x, hx⟩ := hr
  dsimp only at hx ⊢
  subst hx
  refine (f.readSb_under f.agcount_pos).bind fun p hp => ?_
  refine Setup.Contract.Under.bind (Q := fun _ => True) (.ofExcept (fun e he => ?_)
    fun _ _ => trivial) fun _ _ => ⟨⟨x, rfl⟩, hp.2.2⟩
  simp only [checkFeatures, refuseIf] at he
  split_ifs at he <;> cases he <;> exact .of_refusal trivial

end Superblocks

section Calls

variable (f : Formatted params size logical physical id order s)

include f

lemma dump_under : c.Under (dump (Device.ofSize size logical)) (fun _ => True) := by
  rw [dump]
  refine f.geometry_under.bind fun g hg => ?_
  obtain ⟨x, hx⟩ := hg
  rw [hx]
  refine .of_look ((f.dumpAgs_look _ 0 ?_).bind fun _ _ => f.dumpLog_look.bind fun _ _ => trivial)
  rw [Nat.zero_add]
  exact le_rfl

lemma logState_under : c.Under (logState (Device.ofSize size logical)) (fun _ => True) := by
  rw [logState]
  refine f.openFs_under.bind fun fs hfs => ?_
  obtain ⟨⟨x, hx⟩, -⟩ := hfs
  rw [hx, f.readGeo_reader, ofExcept_ok_bind]
  exact .of_look f.findTail_look

lemma setUuid_under (uuid : Uuid) :
    c.Under (setUuid (Device.ofSize size logical) uuid) (fun _ => True) := by
  rw [setUuid]
  refine f.openFs_under.bind fun fs hfs => ?_
  obtain ⟨⟨x, hx⟩, hp⟩ := hfs
  rw [hx, f.readGeo_reader, ofExcept_ok_bind]
  refine Setup.Contract.Under.bind (.of_look f.findTail_look) fun state _ => ?_
  split
  · exact Own.of_refusal trivial
  · refine Setup.Contract.Under.bind (Q := fun _ => True) (.ofExcept (fun e he => ?_)
      fun _ _ => trivial) fun cycle _ => ?_
    · rw [fit] at he
      split_ifs at he
      cases he
      exact .panic
    · refine Setup.Contract.Under.bind (.of_log (f.clearLog_safe hx uuid cycle)) fun _ _ => ?_
      refine Setup.Contract.Under.flush.bind fun _ _ => ?_
      exact (f.eachAg_under hx hp (.uuid uuid) _ 0 (by
        rw [Nat.zero_add]
        exact le_rfl)).bind fun _ _ => .flush

lemma restoreUuid_under : c.Under (restoreUuid (Device.ofSize size logical)) (fun _ => True) := by
  rw [restoreUuid]
  refine f.openFs_under.bind fun fs _ => ?_
  split
  · trivial
  · exact (f.setUuid_under fs.metaUuid).bind fun _ _ => trivial

lemma setLabel_under (label : String) :
    c.Under (setLabel (Device.ofSize size logical) label) (fun _ => True) := by
  rw [setLabel]
  refine Setup.Contract.Under.bind (Q := fun _ => LabelOk label) (.ofExcept (fun e he => ?_)
    fun _ hok => ?_) fun _ hl => ?_
  · rw [refuseIf] at he
    split_ifs at he
    cases he
    exact .of_refusal trivial
  · have hnot := refuseIf_eq_ok.mp hok
    push Not at hnot
    exact hnot
  · refine f.openFs_under.bind fun fs hfs => ?_
    obtain ⟨⟨x, hx⟩, hp⟩ := hfs
    exact (f.eachAg_under hx hp (.label hl) _ 0 (by
      rw [Nat.zero_add, hx]
      exact le_rfl)).bind fun _ _ => .flush

/-- **Every call keeps every contract.** -/
theorem call_under (c : s.Contract size logical) (call : Call) :
    c.Under (call.prog (Device.ofSize size logical)) (fun _ => True) := by
  cases call with
  | dump => exact f.dump_under.bind fun _ _ => trivial
  | logState => exact f.logState_under.bind fun _ _ => trivial
  | setLabel label => exact f.setLabel_under label
  | setUuid uuid => exact f.setUuid_under uuid
  | restoreUuid => exact f.restoreUuid_under.bind fun _ _ => trivial

end Calls

end Formatted

end MkfsXfs
