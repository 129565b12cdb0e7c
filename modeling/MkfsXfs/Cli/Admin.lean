import MkfsXfs.Admin.Calls
import MkfsXfs.Admin.Renamed

/-!
The command `xfs-admin` (`src/bin/xfs_admin.rs`).

* `Invocation`, `checkLabel`, `Invocation.uuidCall`: its options, the label that `-L` means and the
  call that `-U` means.  `Invocation.run`: what it does to a device that could be opened.
* `Invocation.Taken`, `Invocation.calls`: the options that can be followed, and the calls that are
  made of the others as well.
* `Goes.run_invocation`: an invocation makes its calls; `Goes.run_invocations`: so do all of a
  sequence.
* `format_invocations`: what any sequence of invocations makes of a filesystem after its format.
-/

namespace MkfsXfs

open Checked Sb

/-! ### The command -/

/-- The options of the command. -/
structure AdminCli where
  uuid : Option String := none
  label : Option String := none

/-- An invocation: its options, and the UUID that `Uuid::new_v4` gives it. -/
structure Invocation extends AdminCli where
  newV4 : Uuid

/-- What ends an invocation. -/
inductive AdminError where
  /-- `nothing to do: give -U and/or -L` -/
  | nothingToDo
  /-- `invalid UUID`, with what stands there -/
  | invalidUuid (s : String)
  /-- a call that failed -/
  | failed (e : Fault Error)

/-- `str::to_ascii_lowercase`. -/
def toAsciiLowercase (s : String) : String := String.ofList (s.toList.map Char.toLower)

/-- `check_label`: `--`, or an empty quoted pair, clears the label. -/
def checkLabel (label : String) : String :=
  match label with
  | "--" | "\"\"" | "''" => ""
  | l => l

/-- A call, its error being the command's. -/
def Device.call (dev : Device) (p : DevM Unit) (d : Disk) : Except AdminError Unit × Disk :=
  match dev.run p d with
  | (.ok (), d') => (.ok (), d')
  | (.error e, d') => (.error (.failed e), d')

namespace Invocation

/-- The call that `-U` means; `parseStr` is `Uuid::parse_str`. -/
def uuidCall (parseStr : String → Option Uuid) (inv : Invocation) (u : String) :
    Except AdminError Rename :=
  match toAsciiLowercase u with
  | "generate" => .ok (.setUuid inv.newV4)
  | "nil" => .ok (.setUuid zeroUuid)
  | "restore" => .ok .restoreUuid
  | s =>
      match parseStr s with
      | some uuid => .ok (.setUuid uuid)
      | none => .error (.invalidUuid s)

/-- `-L`. -/
def runLabel (dev : Device) (inv : Invocation) (d : Disk) : Except AdminError Unit × Disk :=
  match inv.label with
  | none => (.ok (), d)
  | some label => dev.call (setLabel dev (checkLabel label)) d

/-- `-U`. -/
def runUuid (parseStr : String → Option Uuid) (dev : Device) (inv : Invocation) (d : Disk) :
    Except AdminError Unit × Disk :=
  match inv.uuid with
  | none => (.ok (), d)
  | some u =>
      match inv.uuidCall parseStr u with
      | .error e => (.error e, d)
      | .ok call => dev.call (call.run dev) d

/-- The invocation, once the device is open: first the label, then the UUID. -/
def run (parseStr : String → Option Uuid) (dev : Device) (inv : Invocation) (d : Disk) :
    Except AdminError Unit × Disk :=
  if inv.uuid = none ∧ inv.label = none then (.error .nothingToDo, d)
  else
    match inv.runLabel dev d with
    | (.error e, d') => (.error e, d')
    | (.ok (), d') => inv.runUuid parseStr dev d'

/-! ### What can be followed -/

instance : DecidablePred LabelOk := fun label =>
  inferInstanceAs (Decidable (label.utf8ByteSize ≤ labelMax ∧ '\x00' ∉ label.toList))

/-- The label can be set, when there is one. -/
def LabelTaken (inv : Invocation) : Prop := ∀ l, inv.label = some l → LabelOk (checkLabel l)

/-- The UUID can be read, when there is one. -/
def UuidTaken (parseStr : String → Option Uuid) (inv : Invocation) : Prop :=
  ∀ u, inv.uuid = some u → ∃ call, inv.uuidCall parseStr u = .ok call

/-- The options can be followed. -/
def Taken (parseStr : String → Option Uuid) (inv : Invocation) : Prop :=
  ¬ (inv.uuid = none ∧ inv.label = none) ∧ inv.LabelTaken ∧ inv.UuidTaken parseStr

/-- The calls of `-U`: none when the UUID cannot be read. -/
def uuidCalls (parseStr : String → Option Uuid) (inv : Invocation) : List Rename :=
  match inv.uuid with
  | none => []
  | some u =>
      match inv.uuidCall parseStr u with
      | .error _ => []
      | .ok call => [call]

/-- The calls it makes of a filesystem: none when the label cannot be set, only the label's when
the UUID cannot be read. -/
def calls (parseStr : String → Option Uuid) (inv : Invocation) : List Rename :=
  match inv.label with
  | none => inv.uuidCalls parseStr
  | some l =>
      if LabelOk (checkLabel l) then .setLabel (checkLabel l) :: inv.uuidCalls parseStr else []

end Invocation

example : ({ uuid := some "x", label := some "--", newV4 := zeroUuid } : Invocation).calls
    (fun _ => none) = [.setLabel ""] := rfl

/-! ### A filesystem under invocations -/

section Calls

variable {parseStr : String → Option Uuid} {inv : Invocation} {call : Rename}

/-- `-U` means a call that can be made. -/
lemma Invocation.valid_of_uuidCall {u : String} (h : inv.uuidCall parseStr u = .ok call) :
    call.Valid := by
  rw [Invocation.uuidCall] at h
  split at h
  · cases h
    trivial
  · cases h
    trivial
  · cases h
    trivial
  · split at h
    · cases h
      trivial
    · cases h

/-- A label that cannot be set is refused, and nothing is done. -/
lemma run_setLabel_refused {dev : Device} {d : Disk} {label : String} (h : ¬ LabelOk label) :
    dev.run (setLabel dev label) d = (.error (.error (badLabel label)), d) := by
  have hcheck : refuseIf (label.utf8ByteSize > labelMax ∨ '\x00' ∈ label.toList)
      (badLabel label) = .error (.error (badLabel label)) := if_pos (by
    by_contra hnot
    rw [not_or, not_lt] at hnot
    exact h hnot)
  rw [setLabel, hcheck]
  rfl

/-- An invocation rewrites the log once at most. -/
lemma Invocation.rewrites_calls (parseStr : String → Option Uuid) (inv : Invocation) (m : Uuid)
    (n : Names) :
    ((inv.calls parseStr).foldl (Names.after m) n).rewrites ≤ n.rewrites + 1 := by
  have huuid : ∀ n : Names,
      ((inv.uuidCalls parseStr).foldl (Names.after m) n).rewrites ≤ n.rewrites + 1 := by
    intro n
    rw [Invocation.uuidCalls]
    split
    · exact Nat.le_succ _
    · split
      · exact Nat.le_succ _
      · exact n.rewrites_after m _
  rw [Invocation.calls]
  split
  · exact huuid n
  · split_ifs
    · exact huuid _
    · exact Nat.le_succ _

/-- Invocations rewrite it once each. -/
lemma Invocation.rewrites_invocations (parseStr : String → Option Uuid) (invs : List Invocation)
    (m : Uuid) (n : Names) :
    ((invs.flatMap (·.calls parseStr)).foldl (Names.after m) n).rewrites ≤
      n.rewrites + invs.length := by
  induction invs generalizing n with
  | nil => exact le_rfl
  | cons inv invs ih =>
      rw [List.flatMap_cons, List.foldl_append, List.length_cons]
      have hfirst := inv.rewrites_calls parseStr m n
      have hrest := ih ((inv.calls parseStr).foldl (Names.after m) n)
      omega

end Calls

/-- What an invocation does, or a part of it, to a filesystem with the names `n`: it ends well
exactly when `p`, and leaves the names that the calls give. -/
structure Makes (dev : Device) (d₀ : Disk) (start bbs : ℕ) (m : Uuid) (n : Names) (fs : Fs)
    (p : Prop) (calls : List Rename) (out : Except AdminError Unit × Disk) : Prop where
  ok_iff : out.1 = .ok () ↔ p
  goes : ∃ fs' : Fs, fs'.Alike fs ∧
    Goes dev d₀ start bbs m (calls.foldl (Names.after m) n) fs' out.2

namespace Goes

variable {dev : Device} {d d₀ : Disk} {start bbs : ℕ} {m : Uuid} {n : Names} {fs : Fs}
  {call : Rename}

/-- Nothing is done. -/
lemma makes_nothing (h : Goes dev d₀ start bbs m n fs d) {p : Prop}
    {r : Except AdminError Unit} (hp : r = .ok () ↔ p) :
    Makes dev d₀ start bbs m n fs p [] (r, d) :=
  ⟨hp, fs, .refl fs, h⟩

/-- A call is made. -/
lemma makes_call (h : Goes dev d₀ start bbs m n fs d) (hcall : call.Valid)
    (hc : n.rewrites + 2 < Log.headerMagic) {p : Prop} (hp : p) :
    Makes dev d₀ start bbs m n fs p [call] (dev.call (call.run dev) d) := by
  obtain ⟨fs', d', hrun, halike, hgoes⟩ := h.run_rename hcall hc
  rw [Device.call, hrun]
  exact ⟨⟨fun _ => hp, fun _ => rfl⟩, fs', halike, hgoes⟩

variable (parseStr : String → Option Uuid) (inv : Invocation)

/-- `-U`. -/
lemma makes_uuid (h : Goes dev d₀ start bbs m n fs d) (hc : n.rewrites + 2 < Log.headerMagic) :
    Makes dev d₀ start bbs m n fs (inv.UuidTaken parseStr) (inv.uuidCalls parseStr)
      (inv.runUuid parseStr dev d) := by
  rw [Invocation.runUuid, Invocation.uuidCalls]
  cases hu : inv.uuid with
  | none =>
      have htaken : inv.UuidTaken parseStr := fun u hsome => by
        rw [hu] at hsome
        cases hsome
      exact h.makes_nothing ⟨fun _ => htaken, fun _ => rfl⟩
  | some u =>
      dsimp only
      cases hcall : inv.uuidCall parseStr u with
      | error e =>
          refine h.makes_nothing ⟨nofun, fun htaken => ?_⟩
          obtain ⟨call, hok⟩ := htaken u hu
          rw [hcall] at hok
          cases hok
      | ok call =>
          refine h.makes_call (Invocation.valid_of_uuidCall hcall) hc fun u' hu' => ⟨call, ?_⟩
          rw [hu] at hu'
          rwa [← Option.some.inj hu']

/-- **An invocation makes its calls**, and it ends well exactly when its options can be
followed. -/
theorem run_invocation (h : Goes dev d₀ start bbs m n fs d)
    (hc : n.rewrites + 2 < Log.headerMagic) :
    Makes dev d₀ start bbs m n fs (inv.Taken parseStr) (inv.calls parseStr)
      (inv.run parseStr dev d) := by
  rw [Invocation.run, Invocation.calls]
  split_ifs with hnone
  · rw [hnone.2, Invocation.uuidCalls, hnone.1]
    exact h.makes_nothing ⟨nofun, fun htaken => absurd hnone htaken.1⟩
  · cases hl : inv.label with
    | none =>
        have hlabel : inv.LabelTaken := fun l hsome => by
          rw [hl] at hsome
          cases hsome
        obtain ⟨hok, hgoes⟩ := h.makes_uuid parseStr inv hc
        rw [Invocation.runLabel, hl]
        exact ⟨hok.trans ⟨fun hu => ⟨hnone, hlabel, hu⟩, fun ht => ht.2.2⟩, hgoes⟩
    | some l =>
        rw [Invocation.runLabel, hl]
        dsimp only
        split_ifs with hlabel
        · have htaken : inv.LabelTaken := fun l' hsome => by
            rw [hl] at hsome
            rwa [← Option.some.inj hsome]
          obtain ⟨fs₁, d₁, hrun, ⟨x, hx⟩, hgoes₁⟩ := h.run_setLabel hlabel
          obtain ⟨hok, fs', ⟨y, hy⟩, hgoes⟩ :=
            hgoes₁.makes_uuid parseStr inv hc
          rw [Device.call, hrun]
          exact ⟨hok.trans ⟨fun hu => ⟨hnone, htaken, hu⟩, fun ht => ht.2.2⟩, fs',
            ⟨y, by rw [hy, hx]⟩, hgoes⟩
        · rw [Device.call, run_setLabel_refused hlabel]
          exact h.makes_nothing ⟨nofun, fun ht => absurd (ht.2.1 l hl) hlabel⟩

/-- **So do all invocations of a sequence**, each one whatever came before it. -/
theorem run_invocations (invs : List Invocation) (h : Goes dev d₀ start bbs m n fs d)
    (hc : n.rewrites + invs.length + 2 ≤ Log.headerMagic) :
    ∃ fs' : Fs, fs'.Alike fs ∧ Goes dev d₀ start bbs m
      ((invs.flatMap (·.calls parseStr)).foldl (Names.after m) n) fs'
      (invs.foldl (fun d inv => (inv.run parseStr dev d).2) d) := by
  induction invs generalizing n fs d with
  | nil => exact ⟨fs, .refl fs, h⟩
  | cons inv invs ih =>
      rw [List.length_cons] at hc
      obtain ⟨-, fs₁, ⟨x, hx⟩, hgoes₁⟩ :=
        h.run_invocation parseStr inv (by omega)
      have hle := inv.rewrites_calls parseStr m n
      obtain ⟨fs', ⟨y, hy⟩, hgoes⟩ := ih hgoes₁ (by omega)
      rw [List.flatMap_cons, List.foldl_append]
      exact ⟨fs', ⟨y, by rw [hy, hx]⟩, hgoes⟩

end Goes

/-! ### From a format on -/

/-- **Whatever the command is given, a filesystem is left under one name.**  After a format and any
sequence of invocations, all superblocks have the names that the calls of the invocations give, and
the rest is as it was; and a further invocation ends well exactly when its options can be
followed. -/
theorem format_invocations (params : Params) (size : UInt64) (logical physical : UInt32)
    (id : Identity) (s : Setup) (hs : setup params size logical physical id = .ok s)
    (order : List ℕ) (horder : Unordered agConcurrency (List.range s.g.agcount) order) (d d₀ : Disk)
    (hd : d.Healthy) (report : Report) (hrun : (Device.ofSize size logical).run
      (format params size logical physical id order) d = (.ok report, d₀))
    (parseStr : String → Option Uuid) (invs : List Invocation) (hlen : invs.length < 2 ^ 31) :
    s.Renamed (Device.ofSize size logical) d₀
      ((invs.flatMap (·.calls parseStr)).foldl (Names.after s.id.uuid)
        ⟨s.id.uuid, s.g.label, 0⟩)
      (invs.foldl (fun d inv => (inv.run parseStr (Device.ofSize size logical) d).2) d₀) ∧
    ∀ inv : Invocation, (inv.run parseStr (Device.ofSize size logical)
      (invs.foldl (fun d inv => (inv.run parseStr (Device.ofSize size logical) d).2) d₀)).1 =
        .ok () ↔ inv.Taken parseStr := by
  have hmem : ∀ i, i ∈ order ↔ i < s.g.agcount := fun i => by
    rw [horder.perm.mem_iff, List.mem_range]
  have hacc := compute_eq_ok.mp (setup_eq_ok.mp hs).1
  have hlog := hacc.logFits size.toNat_lt (setup_eq_ok.mp hs).2.1
  have hmin := setup_agsMin hs
  obtain ⟨hresult, rfl⟩ := Prod.mk.inj
    ((run_format hs hmin hlog (fun i hi => (hmem i).mp hi) hd).symm.trans hrun)
  obtain ⟨r, hchunk, -⟩ := bind_eq_ok.mp (show (s.chunk >>= fun _ => .ok s.report) = _ from hresult)
  have f : Formatted params size logical physical id order s := ⟨hs, hmin, hmem, r, hchunk⟩
  have hmagic : 2 ^ 31 + 3 ≤ Log.headerMagic := by decide
  obtain ⟨fs', halike, hgoes⟩ := (f.goes hd).run_invocations parseStr invs (by
    change 0 + invs.length + 2 ≤ Log.headerMagic
    omega)
  have hle := Invocation.rewrites_invocations parseStr invs s.id.uuid ⟨s.id.uuid, s.g.label, 0⟩
  refine ⟨f.renamed hgoes halike, fun inv => (hgoes.run_invocation parseStr inv ?_).ok_iff⟩
  rw [Nat.zero_add] at hle
  omega

/-- The label is cleared and the UUID set to `nil`, the UUID is misspelt, it is given back, and a
label is too long. -/
def invocations512m : List Invocation := [
  { uuid := some "NIL", label := some "--", newV4 := zeroUuid },
  { uuid := some "x", label := some "data", newV4 := zeroUuid },
  { uuid := some "Restore", newV4 := zeroUuid },
  { uuid := some "nil", label := some "averylonglabel", newV4 := zeroUuid }]

/-- The filesystem of 512 MiB under these invocations. -/
theorem format_invocations_512m : ∃ d₀, (Device.ofSize 536870912 512).run
      (format {} 536870912 512 512 setup512m.id [0, 1, 2, 3]) Disk.blank =
        (.ok setup512m.report, d₀) ∧
    setup512m.Renamed (Device.ofSize 536870912 512) d₀
      ((invocations512m.flatMap (·.calls fun _ => none)).foldl (Names.after setup512m.id.uuid)
        ⟨setup512m.id.uuid, setup512m.g.label, 0⟩)
      (invocations512m.foldl
        (fun d inv => (inv.run (fun _ => none) (Device.ofSize 536870912 512) d).2) d₀) := by
  obtain ⟨d₀, hrun⟩ := exists_run_512m
  have hblank : Disk.blank.Healthy := rfl
  have hlen : invocations512m.length < 2 ^ 31 := by decide
  obtain ⟨hrenamed, -⟩ := format_invocations {} 536870912 512 512 setup512m.id setup512m
    setup_512m [0, 1, 2, 3] unordered_512m Disk.blank d₀ hblank
    setup512m.report hrun (fun _ => none) invocations512m hlen
  exact ⟨d₀, hrun, hrenamed⟩

end MkfsXfs
