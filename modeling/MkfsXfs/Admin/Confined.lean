import MkfsXfs.Admin.Clean

/-!
Where `setUuid` writes.

* `Geo.InLog`, `Geo.InAgHead`, `Confined`: the bytes it may write, and a run that stays there.
* `clearReach`: how far behind the log's start the log clear writes, as arithmetic;
  `clearLog_written` is its proof.
* `eachAg_heads`: the superblocks go to the first blocks of the AGs.
* `run_whenClean`: a UUID change finds the log clean and goes on, or does nothing.
* `setUuid_confined_iff`: when every run stays where it may write.  `clearReach_le`: with a
  stripe unit of at most a full record it always does.
-/

namespace MkfsXfs

open Checked Sb Log

/-! ### The bytes that may be written -/

namespace Geo

/-- The byte lies in the internal log. -/
def InLog (g : Geo) (a : ℕ) : Prop :=
  ∃ start bbs, g.logExtent = .ok (start, bbs) ∧ start ≤ a ∧ a < start + g.logblocks * g.blocksize

/-- The byte lies in the first block of an AG. -/
def InAgHead (g : Geo) (a : ℕ) : Prop :=
  ∃ agno < g.agcount, agno * g.agblocks * g.blocksize ≤ a ∧
    a < agno * g.agblocks * g.blocksize + g.blocksize

end Geo

/-- From `d` to `d'` only bytes of the log and of the AGs' first blocks are written, and
every other byte is as it was. -/
def Confined (g : Geo) (d d' : Disk) : Prop :=
  ∀ a, (d'.written a = true → g.InLog a ∨ g.InAgHead a) ∧
    (¬ (g.InLog a ∨ g.InAgHead a) → d'.bytes a = d.bytes a)

/-- The bytes of the log. -/
lemma logExtent_bytes {g : Geo} (hg : g.Valid) {start bbs : ℕ}
    (h : g.logExtent = .ok (start, bbs)) : g.logblocks * g.blocksize = bbs * bbsize := by
  obtain ⟨_, rfl, _⟩ := logExtent_eq_ok h
  exact (Nat.div_mul_cancel (hg.dvd_blocksize.mul_left g.logblocks)).symm

/-! ### How far the clear writes -/

/-- The bytes of a stream of `n` bytes that go to a device with room for `room`. -/
def streamReach (room n : ℕ) : ℕ := if n ≤ room then n else whole room

/-- How far behind the start of a log of `bbs` basic blocks, the device having `room` bytes
from there on, the clear at `cycle` writes: over a zeroed log the first record, filled up to
a block; in later cycles the first record, at least 512 blocks with the zeroes behind it, and
then the chain for the blocks from 512 on. -/
def clearReach (g : Geo) (room bbs cycle : ℕ) : ℕ :=
  let n := Fs.firstLen g.logsunit * bbsize
  if cycle = initCycle then
    if room < bbs * bbsize then 0
    else streamReach room (n + (roundup (n - whole n) g.blocksize - (n - whole n)))
  else if bbs < Fs.firstLen g.logsunit then 0
  else if bbs % 512 = 1 then
    -- One block is left over, for which there is no record: the last chunk is not written.
    min (whole (max n (512 * bbsize) + (bbs - 513) * bbsize)) (whole room)
  else streamReach room (max n (512 * bbsize) + (bbs - 512) * bbsize)

section Reach

variable {dev : Device} {d d' : Disk} {start a : ℕ} {S : Buf}

lemma Stopped.written_iff {α : Type} {r : Except (Fault Error) α × Disk}
    (h : Stopped dev d start S r) (ha : start ≤ a) : r.2.written a = true ↔
      d.written a = true ∨ a < start + min (whole S.length) (whole (dev.size - start)) := by
  obtain ⟨e, rfl⟩ := h
  have hle := whole_le S.length
  rw [Disk.written_put, Bool.or_eq_true, decide_eq_true_eq, List.length_take]
  constructor <;> rintro (h | h) <;> first | exact .inl h | exact .inr (by omega)

lemma Written.written_iff {r : Except (Fault Error) Unit × Disk}
    (h : Written dev d start S r) (ha : start ≤ a) : r.2.written a = true ↔
      d.written a = true ∨ a < start + streamReach (dev.size - start) S.length := by
  rw [Written] at h
  rw [streamReach]
  split at h
  · rename_i hroom
    rw [h, if_pos hroom, Disk.written_put, Bool.or_eq_true, decide_eq_true_eq]
    constructor <;> rintro (h | h) <;> first | exact .inl h | exact .inr (by omega)
  · rename_i hroom
    have hmono := whole_mono (m := dev.size - start) (n := S.length) (by omega)
    rw [h.written_iff ha, if_neg hroom, min_eq_right hmono]

end Reach

section Clear

variable {dev : Device} {d : Disk} {fs : Fs} {uuid : Uuid} {cycle start bbs a : ℕ}

/-- A log too short for its first record is not cleared past the first cycle. -/
lemma run_clearLog_short (hext : fs.geo.logExtent = .ok (start, bbs)) (hc : 1 < cycle)
    (hfirst : bbs < Fs.firstLen fs.geo.logsunit) :
    dev.run (fs.clearLog uuid cycle) d = (.error .panic, d) := by
  have hinit : cycle ≠ initCycle := by
    rw [initCycle]
    omega
  have hpred : (sub cycle 1 : Exec ℕ) = .ok (cycle - 1) := if_pos (by omega)
  have hblock : (sub bbs (Fs.firstLen fs.geo.logsunit) : Exec ℕ) = .error .panic :=
    if_neg (by omega)
  have htail : Fs.firstTail cycle bbs (Fs.firstLen fs.geo.logsunit) = .error .panic := by
    rw [Fs.firstTail, if_neg hinit, hpred, hblock]
    rfl
  rw [Fs.clearLog, hext, ofExcept_ok_bind]
  dsimp only
  rw [htail]
  rfl

/-- The length of the stream past the first cycle. -/
lemma length_clearStream_eq : (fs.clearStream uuid cycle bbs).length =
    max (Fs.firstLen fs.geo.logsunit * bbsize) (512 * bbsize) +
      (if (bbs - 512) % 512 = 1 then bbs - 512 - 1 else bbs - 512) * bbsize := by
  rw [Fs.clearStream, List.length_append, List.length_append, List.length_replicate,
    length_firstRecord, Fs.length_recordsStream]
  omega

/-- **What the clear writes behind the log**: `clearReach` says how far it goes. -/
theorem clearLog_written (hd : d.Healthy) (hext : fs.geo.logExtent = .ok (start, bbs))
    (hn : totalRecBbs ≤ bbs) (hc : 1 ≤ cycle) (ha : start + bbs * bbsize ≤ a) :
    (dev.run (fs.clearLog uuid cycle) d).2.written a = true ↔
      d.written a = true ∨ a < start + clearReach fs.geo (dev.size - start) bbs cycle := by
  have ht := totalRecBbs_eq
  have hbytes : 0 < bbs * bbsize := Nat.mul_pos (by omega) (by decide)
  rw [clearReach]
  split_ifs with hinit hroom hshort hodd
  · subst hinit
    obtain ⟨e, he⟩ := run_clearLog_outOfBounds dev uuid hd hext (by omega)
    rw [he]
    exact ⟨.inl, fun h => h.resolve_right (by omega)⟩
  · subst hinit
    have hwritten := run_clearLog_first dev uuid hd hext (by omega)
    rw [hwritten.written_iff (by omega), Disk.written_put, Bool.or_eq_true, decide_eq_true_eq,
      List.length_replicate, Fs.firstStream, List.length_append, List.length_replicate,
      length_firstRecord]
    refine or_congr ⟨fun h => h.resolve_right (by omega), .inl⟩ Iff.rfl
  · have hnext : 1 < cycle := lt_of_le_of_ne hc (Ne.symm hinit)
    rw [run_clearLog_short hext hnext hshort]
    exact ⟨.inl, fun h => h.resolve_right (by omega)⟩
  · have hnext : 1 < cycle := lt_of_le_of_ne hc (Ne.symm hinit)
    have hstop := (run_clearLog_next dev uuid hd hext hnext (by omega) (by omega)).1 hodd
    have hleft : bbs - 512 - 1 = bbs - 513 := by omega
    rw [hstop.written_iff (by omega), length_clearStream_eq, if_pos (by omega), hleft]
  · have hnext : 1 < cycle := lt_of_le_of_ne hc (Ne.symm hinit)
    have hwritten := (run_clearLog_next dev uuid hd hext hnext (by omega) (by omega)).2 hodd
    rw [hwritten.written_iff (by omega), length_clearStream_eq, if_neg (by omega)]

/-- **With a stripe unit of at most a full record the clear stays in the log.** -/
theorem clearReach_le {g : Geo} (hg : g.Valid) {room : ℕ} (hn : totalRecBbs ≤ bbs)
    (hsunit : g.logsunit ≤ 262144) : clearReach g room bbs cycle ≤ bbs * bbsize := by
  have ht := totalRecBbs_eq
  have hle := recordLen_le hsunit
  have hpos := hg.blocksize_ge
  have hshort : Fs.firstLen g.logsunit * bbsize ≤ 512 * bbsize := by
    rw [firstLen_eq]
    exact Nat.mul_le_mul_right _ hle
  have hfull : 512 * bbsize ≤ bbs * bbsize := Nat.mul_le_mul_right _ (by omega)
  have hrest : 512 * bbsize + (bbs - 512) * bbsize = bbs * bbsize := by
    rw [← Nat.add_mul, Nat.add_sub_cancel' (by omega)]
  have hodd : (bbs - 513) * bbsize ≤ (bbs - 512) * bbsize := Nat.mul_le_mul_right _ (by omega)
  have hreach : ∀ n ≤ bbs * bbsize, streamReach room n ≤ bbs * bbsize := fun n hle' => by
    rw [streamReach]
    split_ifs
    · exact hle'
    · have := whole_le room
      omega
  have hwhole : whole (Fs.firstLen g.logsunit * bbsize) = 0 :=
    whole_eq_of_lt (by decide) (Nat.zero_le _) (hshort.trans_lt (by decide))
  have hround := roundup_le (by omega) (hg.blocksize_dvd.trans ⟨4, rfl⟩ :
    g.blocksize ∣ 512 * bbsize) hshort
  rw [clearReach]
  split_ifs
  · exact Nat.zero_le _
  · refine hreach _ ?_
    rw [hwhole, Nat.sub_zero]
    omega
  · exact Nat.zero_le _
  · have hw := whole_le (max (Fs.firstLen g.logsunit * bbsize) (512 * bbsize) +
      (bbs - 513) * bbsize)
    refine (min_le_left _ _).trans (hw.trans ?_)
    rw [max_eq_right hshort]
    omega
  · refine hreach _ ?_
    rw [max_eq_right hshort]
    omega

end Clear

/-! ### The superblocks -/

/-- The operation writes nothing outside the first blocks of the AGs. -/
def OnHeads (g : Geo) (op : DevOp) : Prop := ∀ a, op.Touches a → g.InAgHead a

section Heads

variable {fs : Fs} {uuid metaU : Uuid}

@[simp] lemma length_withUuid {b : Buf} : (withUuid uuid metaU b).length = b.length := by
  rw [withUuid]
  dsimp only
  split_ifs <;> simp

/-- What `readSb` returns is one block. -/
lemma readSb_length {G : DevOp → Prop} {agno : ℕ} (hG : ∀ off n, G (.readAt off n)) :
    (readSb fs.geo agno).Safe G (fun _ => True) (fun b => b.length = fs.geo.blocksize) := by
  refine (safe_ofExcept_of (Q := fun _ => True) (fun _ _ => trivial) fun _ _ => trivial).bind
    fun off _ => ?_
  refine (safe_readAt (Q := fun b : Buf => b.length = fs.geo.blocksize) (hG _ _)
    fun b hb => hb).bind fun b hb => ?_
  refine safe_ofExcept_of (fun _ _ => trivial) fun b' hb' => ?_
  rw [checkSb, refuseIf_bind_eq_ok, refuseIf_bind_eq_ok] at hb'
  rwa [← Except.ok.inj hb'.2.2]

/-- The superblocks go to the first blocks of their AGs. -/
lemma eachAg_heads {f : Buf → Buf} (hf : ∀ b, (f b).length = b.length) (n : ℕ) :
    ∀ agno, agno + n ≤ fs.geo.agcount →
      (eachAg (rewriteSb fs f) agno n).Safe (OnHeads fs.geo) (fun _ => True) (fun _ => True) := by
  induction n with
  | zero => exact fun _ _ => trivial
  | succ n ih =>
      intro agno hle
      have hone : (rewriteSb fs f agno).Safe (OnHeads fs.geo) (fun _ => True) (fun _ => True) := by
        refine (readSb_length fun off n a h => h.elim).bind fun b hb => ?_
        rw [Fs.writeSb]
        refine (safe_ofExcept_of (Q := fun off => off = agno * fs.geo.agblocks * fs.geo.blocksize)
          (fun _ _ => trivial) fun off hoff => ?_).bind fun off hoff => ?_
        · rw [Geo.sbOffset, fit_eq_ok] at hoff
          exact hoff.2
        · refine safe_writeAt (fun a ha => ⟨agno, by omega, ?_⟩) trivial
          have hin : off ≤ a ∧ a < off + (Fs.sbToDisk fs.geo (f b)).length := ha
          rwa [length_sbToDisk, hf, hb, hoff] at hin
      exact hone.bind fun _ _ => ih (agno + 1) (by omega)

end Heads

/-! ### A run of `setUuid` -/

/-- The log is found clean, and is to be cleared at `cycle`. -/
def CleanAt (dev : Device) (d : Disk) (cycle : ℕ) : Prop :=
  ∃ s, (dev.run (logState dev) d.heal).1 = .ok s ∧ s.dirty = false ∧ s.cycle + 1 = cycle ∧
    cycle < 2 ^ 32

section SetUuid

variable {dev : Device} {d : Disk} {fs : Fs} {a : ℕ}

/-- On a healthy disk a quiet program changes nothing. -/
lemma run_quiet_healthy {α : Type} (dev : Device) {p : DevM α} {E : Fault Error → Prop} {Q : α → Prop}
    (hp : p.Safe Quiet E Q) (hd : d.Healthy) : (dev.run p d).2 = d := by
  have hbytes := run_quiet dev d hp
  have hsafe : p.Safe (fun _ => True) (fun _ => True) (fun _ => True) := p.safe_true
  have hfaults : (dev.run p d).2.Healthy := by
    refine (hsafe.run (h := dev.step) Disk.Healthy (fun op t _ ht => ⟨?_, fun _ _ => trivial⟩)
      hd).1
    rcases Nat.lt_or_ge dev.size (op.offset + op.len) with hout | hin
    · rw [Device.step_outOfBounds op ht hout]
      exact ht
    · rw [Device.step_healthy op ht hin]
      cases op <;> exact ht
  ext1
  · exact hbytes.1
  · exact hbytes.2
  · exact hfaults.trans hd.symm

/-- What a UUID change begins with: the log is looked at, and `p` follows, with the cycle at
which the log is to be cleared, when it is found clean. -/
def whenClean (dev : Device) {α : Type} (p : Fs → ℕ → DevM α) : DevM α := do
  let fs ← openFs dev
  let reader ← Prog.ofExcept (LogReader.new fs.geo)
  let state ← reader.findTail
  if state.dirty then Prog.fail (.error (dirtyLog state))
  else do
    let cycle ← Prog.ofExcept (fit 32 (state.cycle + 1))
    p fs cycle

/-- The look at the log of a filesystem that opens. -/
lemma run_logState (hd : d.Healthy) (hopen : Opened dev d fs) {r : LogReader}
    (hr : LogReader.new fs.geo = .ok r) : dev.run (logState dev) d = dev.run r.findTail d := by
  rw [logState, Device.run_bind_ok (run_openFs hd hopen), hr, ofExcept_ok_bind]

/-- **On a healthy disk the log is found clean and the rest follows, or nothing is done.** -/
lemma run_whenClean (hd : d.Healthy) (hopen : Opened dev d fs) {α : Type} (p : Fs → ℕ → DevM α) :
    (∃ cycle, CleanAt dev d cycle ∧ dev.run (whenClean dev p) d = dev.run (p fs cycle) d) ∨
    (∀ cycle, ¬ CleanAt dev d cycle) ∧ ∃ e, dev.run (whenClean dev p) d = (.error e, d) := by
  rw [whenClean, Device.run_bind_ok (run_openFs hd hopen)]
  rcases hnew : LogReader.new fs.geo with e | r
  · -- no log that can be read
    refine .inr ⟨?_, e, rfl⟩
    rintro cycle ⟨s, hs, -⟩
    rw [hd.heal_eq, logState, Device.run_bind_ok (run_openFs hd hopen), hnew] at hs
    cases hs
  have hlog := run_logState hd hopen hnew
  have hsame := run_quiet_healthy dev (findTail_quiet r) hd
  rw [ofExcept_ok_bind]
  rcases hfind : dev.run r.findTail d with ⟨e | s, t⟩
  · rw [hfind] at hsame hlog
    obtain rfl : t = d := hsame
    refine .inr ⟨?_, e, Device.run_bind_error hfind⟩
    rintro cycle ⟨s, hs, -⟩
    rw [hd.heal_eq, hlog] at hs
    cases hs
  rw [hfind] at hsame hlog
  obtain rfl : t = d := hsame
  have hclean : ∀ cycle, CleanAt dev t cycle →
      s.dirty = false ∧ s.cycle + 1 = cycle ∧ cycle < 2 ^ 32 := by
    rintro cycle ⟨s', hs', hrest⟩
    rw [hd.heal_eq, hlog] at hs'
    cases hs'
    exact hrest
  rw [Device.run_bind_ok hfind]
  by_cases hdirty : s.dirty = true
  · rw [if_pos hdirty]
    refine .inr ⟨fun cycle hc => ?_, _, rfl⟩
    rw [hdirty] at hclean
    cases (hclean cycle hc).1
  rw [if_neg hdirty]
  rcases Nat.lt_or_ge (s.cycle + 1) (2 ^ 32) with hlt | hge
  · refine .inl ⟨s.cycle + 1, ⟨s, ?_, by rwa [Bool.not_eq_true] at hdirty, rfl, hlt⟩, ?_⟩
    · rw [hd.heal_eq, hlog]
    · rw [fit_of_lt hlt, ofExcept_ok_bind]
  · have hover : (fit 32 (s.cycle + 1) : Exec ℕ) = .error .panic := if_neg (by omega)
    rw [hover]
    refine .inr ⟨fun cycle hc => ?_, _, rfl⟩
    have := hclean cycle hc
    omega

lemma CleanAt.pos {cycle : ℕ} (h : CleanAt dev d cycle) : 1 ≤ cycle := by
  obtain ⟨s, -, -, hs, -⟩ := h
  omega

/-- A log is found clean in one cycle only. -/
lemma CleanAt.unique {cycle cycle' : ℕ} (h : CleanAt dev d cycle) (h' : CleanAt dev d cycle') :
    cycle = cycle' := by
  obtain ⟨s, hs, -, hc, -⟩ := h
  obtain ⟨s', hs', -, hc', -⟩ := h'
  rw [hs] at hs'
  cases hs'
  exact hc.symm.trans hc'

/-- A log that is found clean can be read. -/
lemma CleanAt.extent {cycle : ℕ} (h : CleanAt dev d cycle) (hopen : Opened dev d fs) :
    ∃ start bbs, fs.geo.logExtent = .ok (start, bbs) ∧ totalRecBbs ≤ bbs := by
  obtain ⟨s, hs, -⟩ := h
  have hopen' : Opened dev d.heal fs := hopen.of_bytes rfl
  rw [logState, Device.run_bind_ok (run_openFs d.heal_healthy hopen')] at hs
  rcases hnew : LogReader.new fs.geo with e | r
  · rw [hnew] at hs
    cases hs
  · exact ⟨r.start, r.bbs, LogReader.new_eq_ok.1 hnew, r.total_le⟩

/-- It is long enough to be read. -/
lemma CleanAt.total_le {start bbs cycle : ℕ} (h : CleanAt dev d cycle) (hopen : Opened dev d fs)
    (hext : fs.geo.logExtent = .ok (start, bbs)) : totalRecBbs ≤ bbs := by
  obtain ⟨start', bbs', hext', hn⟩ := h.extent hopen
  rw [hext] at hext'
  cases hext'
  exact hn

/-- Outside the AGs' first blocks a UUID change writes what clearing the log writes. -/
lemma run_clearAll_written (ha : ¬ fs.geo.InAgHead a) (uuid : Uuid) (cycle : ℕ) (d : Disk) :
    (dev.run (do
      fs.clearLog uuid cycle
      flush
      eachAg (rewriteSb fs (withUuid uuid fs.metaUuid)) 0 fs.geo.agcount
      flush) d).2.written a = (dev.run (fs.clearLog uuid cycle) d).2.written a := by
  rcases hclear : dev.run (fs.clearLog uuid cycle) d with ⟨e | u, t⟩
  · rw [Device.run_bind_error hclear]
  rw [Device.run_bind_ok hclear]
  refine (Device.run_untouched (((safe_flush (Q := fun _ => True) ?_ trivial).bind fun _ _ =>
    (eachAg_heads (fun _ => length_withUuid) _ 0 (by omega)).bind fun _ _ =>
      safe_flush (Q := fun _ => True) ?_ trivial).mono (fun op hop h => ha (hop a h))
        (fun _ h => h) fun _ h => h)).2
  · exact fun _ h => h.elim
  · exact fun _ h => h.elim

/-- **What `setUuid` writes outside the AGs' first blocks** on a healthy disk: what clearing
the log writes, when the log is found clean. -/
lemma setUuid_written (hd : d.Healthy) (hopen : Opened dev d fs) (uuid : Uuid)
    (hfresh : d.written a = false) (ha : ¬ fs.geo.InAgHead a) :
    (dev.run (setUuid dev uuid) d).2.written a = true ↔
      ∃ start bbs cycle, fs.geo.logExtent = .ok (start, bbs) ∧ totalRecBbs ≤ bbs ∧
        CleanAt dev d cycle ∧ (dev.run (fs.clearLog uuid cycle) d).2.written a = true := by
  have hwhen : setUuid dev uuid = whenClean dev fun fs cycle => (do
      fs.clearLog uuid cycle
      flush
      eachAg (rewriteSb fs (withUuid uuid fs.metaUuid)) 0 fs.geo.agcount
      flush) := rfl
  rw [hwhen]
  rcases run_whenClean hd hopen _ with ⟨cycle, hc, hrun⟩ | ⟨hnone, e, hrun⟩
  · rw [hrun, run_clearAll_written ha]
    constructor
    · intro h
      obtain ⟨start, bbs, hext, hn⟩ := hc.extent hopen
      exact ⟨start, bbs, cycle, hext, hn, hc, h⟩
    · rintro ⟨_, _, cycle', _, _, hc', h⟩
      rwa [hc.unique hc']
  · rw [hrun, hfresh]
    constructor
    · exact fun h => by cases h
    · rintro ⟨_, _, cycle, _, _, hc, _⟩
      exact absurd hc (hnone cycle)

/-- **When a UUID change stays where it may write.**  Whatever operations fail, `setUuid`
writes only bytes of the log and of the AGs' first blocks and leaves every other byte as it
was, exactly when, with the log found clean, what the clear writes behind the log's end lies
in first blocks of AGs too. -/
theorem setUuid_confined_iff (hopen : Opened dev d fs) (hfresh : ∀ a, d.written a = false)
    (uuid : Uuid) :
    (∀ faults : ℕ → Bool, Confined fs.geo d
      (dev.run (setUuid dev uuid) { d with faults := faults }).2) ↔
    ∀ start bbs cycle, fs.geo.logExtent = .ok (start, bbs) → CleanAt dev d cycle →
      ∀ a, start + bbs * bbsize ≤ a →
        a < start + clearReach fs.geo (dev.size - start) bbs cycle → fs.geo.InAgHead a := by
  have hopen' : Opened dev d.heal fs := hopen.of_bytes rfl
  constructor
  · intro h start bbs cycle hext hc a hlow hhigh
    by_contra hout
    have hn := hc.total_le hopen hext
    have hclear : (dev.run (fs.clearLog uuid cycle) d.heal).2.written a = true :=
      (clearLog_written d.heal_healthy hext hn hc.pos hlow).2 (.inr hhigh)
    have hwritten := (setUuid_written d.heal_healthy hopen' uuid (hfresh a) hout).2
      ⟨start, bbs, cycle, hext, hn, hc, hclear⟩
    rcases (h (fun _ => false) a).1 hwritten with ⟨start', bbs', hext', hin⟩ | hin
    · rw [hext] at hext'
      cases hext'
      rw [logExtent_bytes fs.valid hext] at hin
      omega
    · exact hout hin
  · intro h faults
    have hplace : ∀ a, (dev.run (setUuid dev uuid) { d with faults := faults }).2.written a =
        true → fs.geo.InLog a ∨ fs.geo.InAgHead a := by
      intro a ha
      by_cases hhead : fs.geo.InAgHead a
      · exact .inr hhead
      -- What is written under failures is written on the healthy disk too.
      have hheal : (dev.run (setUuid dev uuid) d.heal).2.written a = true :=
        Device.run_written_heal dev (setUuid dev uuid) { d with faults := faults } ha
      obtain ⟨start, bbs, cycle, hext, hn, hc, hclear⟩ :=
        (setUuid_written d.heal_healthy hopen' uuid (hfresh a) hhead).1 hheal
      have hfresh' : d.heal.written a = false := hfresh a
      rcases Nat.lt_or_ge a start with hbelow | habove
      · have hsafe := (clearLog_safe (E := fun _ => True) trivial (fun _ => trivial) fs uuid cycle
          hext).mono (fun op hop => hop a hbelow) (fun _ h => h) fun _ h => h
        rw [(Device.run_untouched hsafe).2, hfresh'] at hclear
        cases hclear
      · rcases Nat.lt_or_ge a (start + bbs * bbsize) with hin | hpast
        · refine .inl ⟨start, bbs, hext, habove, ?_⟩
          rwa [logExtent_bytes fs.valid hext]
        · rcases (clearLog_written d.heal_healthy hext hn hc.pos hpast).1 hclear with hw | hw
          · rw [hfresh'] at hw
            cases hw
          · exact .inr (h start bbs cycle hext hc a hpast hw)
    refine fun a => ⟨hplace a, fun hout => ?_⟩
    have hnot : (dev.run (setUuid dev uuid) { d with faults := faults }).2.written a = false := by
      rw [← Bool.not_eq_true]
      exact fun hw => hout (hplace a hw)
    exact (Device.run_unwritten dev (setUuid dev uuid) { d with faults := faults } hnot).2

/-- A disk of two AGs whose log is to be cleared. -/
theorem setUuid_confined_iff_twoAgs :
    (∀ faults : ℕ → Bool, Confined fsTwoAgs.geo diskTwoAgs.fresh
      (devTwoAgs.run (setUuid devTwoAgs ⟨List.replicate 16 1, rfl⟩)
        { diskTwoAgs.fresh with faults := faults }).2) ↔
    ∀ start bbs cycle, fsTwoAgs.geo.logExtent = .ok (start, bbs) →
      CleanAt devTwoAgs diskTwoAgs.fresh cycle → ∀ a, start + bbs * bbsize ≤ a →
        a < start + clearReach fsTwoAgs.geo (devTwoAgs.size - start) bbs cycle →
          fsTwoAgs.geo.InAgHead a := by
  have hopen : Opened devTwoAgs diskTwoAgs.fresh fsTwoAgs :=
    fsTwoAgs_opened.of_bytes diskTwoAgs.bytes_fresh
  exact setUuid_confined_iff hopen (fun _ => rfl) ⟨List.replicate 16 1, rfl⟩

end SetUuid

/-! ### A stripe unit longer than a full record -/

/-- One AG of 512-byte blocks whose log of 4096 blocks has a stripe unit of 1024 blocks. -/
def geoWideLog : Geo where
  blocksize := 512
  blocklog := 9
  sectsize := 512
  agblocks := 8192
  agcount := 1
  dblocks := 8192
  agblklog := 13
  inodesize := 256
  inopblog := 1
  logstart := 8
  logblocks := 4096
  logsectsize := 0
  logsunit := 524288
  roCompat := 0
  incompat := 0

/-- Its device. -/
def devWideLog : Device := ⟨4194304, 512, by decide⟩

/-- The log's one record, in cycle 1. -/
def wideRecord : Buf := record ⟨List.replicate 16 1, rfl⟩ 0 (lsn 1 0) (lsn 1 0)

/-- A disk that holds its primary superblock and a clean log, nothing of it written yet. -/
def diskWideLog : Disk :=
  ((Disk.blank.put 0 (Crc.stamp (bareSb geoWideLog) Sb.Off.crc)).put 4096 wideRecord).fresh

/-- The filesystem on it. -/
def fsWideLog : Fs where
  geo := geoWideLog
  primary := Crc.stamp (bareSb geoWideLog) Sb.Off.crc
  valid := Geo.parse_valid (b := bareSb geoWideLog) (by decide +kernel)

lemma length_wideRecord : wideRecord.length = 1024 := by
  rw [wideRecord, length_record, recordLen_zero]
  rfl

lemma fsWideLog_opened : Opened devWideLog diskWideLog fsWideLog := by
  have hread : diskWideLog.readBuf (0 + 0) 512 = Crc.stamp (bareSb geoWideLog) Sb.Off.crc := by
    rw [diskWideLog, Disk.readBuf_fresh, Disk.readBuf_put_of_disjoint (.inl (by decide)),
      Disk.readBuf_put (by simp)]
    exact List.take_of_length_le (by simp)
  exact opened_bareSb (by decide +kernel) rfl rfl (by decide) (by decide +kernel)
    (by decide +kernel) (by decide +kernel) le_rfl (by decide) hread

/-- The log is clean, and to be cleared at cycle 2. -/
lemma fsWideLog_clean : CleanAt devWideLog diskWideLog 2 := by
  have hhealthy : diskWideLog.Healthy := rfl
  have hn : totalRecBbs ≤ 4096 := by decide
  have hext : fsWideLog.geo.logExtent = .ok (4096, 4096) := by decide +kernel
  have hnew : LogReader.new fsWideLog.geo = .ok ⟨4096, 4096, hn⟩ := LogReader.new_eq_ok.2 hext
  have hfit : 0 % 4096 + recordLen 0 ≤ 4096 := by decide
  have htail : lsn 1 0 < 2 ^ 64 := by decide
  have hfirst : 0 / 4096 + 1 < headerMagic := by decide
  let r : Entry 4096 0 :=
    Entry.ofRecord ⟨List.replicate 16 1, rfl⟩ (Nat.zero_le _) (by decide : 0 < 2 ^ 32) htail hfit
      hfirst
  have hlen : r.len = 2 := (Entry.ofRecord_len _ _ htail hfit hfirst).trans recordLen_zero
  have hrtail : r.tail = 2 := by
    rw [Entry.ofRecord_tail, recordLen_zero]
  have hlog : ∀ p < 4096, diskWideLog.readBuf (4096 + p * bbsize) bbsize =
      r.over (fun _ => zeroBlock) p := by
    intro p hp
    have hahead : ahead 4096 0 p = p := by rw [ahead, if_pos (Nat.zero_le _)]; rfl
    rw [diskWideLog, Disk.readBuf_fresh]
    rcases Nat.lt_or_ge p 2 with hlt | hge
    · have hle : p * bbsize + bbsize ≤ 2 * bbsize := by
        rw [← Nat.succ_mul]
        exact Nat.mul_le_mul_right _ hlt
      rw [Entry.over_of_lt _ (by omega), hahead,
        Disk.readBuf_put (by rw [length_wideRecord]; exact hle)]
      rfl
    · have hle : 2 * bbsize ≤ p * bbsize := Nat.mul_le_mul_right _ hge
      have hbb : 2 * bbsize = 1024 := rfl
      rw [Entry.over_of_le _ (by omega),
        Disk.readBuf_put_of_disjoint (.inr (by rw [length_wideRecord]; omega)),
        Disk.readBuf_put_of_disjoint (.inr (by rw [Crc.length_stamp, length_bareSb]; omega)),
        Disk.readBuf_blank]
      rfl
  have hfind := (Appended.zeroed.logEnd hn r).eval_findTail hn
  rw [r.recordStart_eq hn, r.tailAt_eq hn, hrtail, hlen] at hfind
  refine ⟨_, ?_, (rfl : LogState.dirty ⟨2, 2, 1⟩ = false), rfl, by decide⟩
  rw [hhealthy.heal_eq, logState, Device.run_bind_ok (run_openFs hhealthy fsWideLog_opened), hnew,
    ofExcept_ok_bind, LogReader.run_findTail hn hhealthy (by decide) hlog, hfind]

/-- The chain runs past the end of the log into the AG's data. -/
theorem setUuid_not_confined :
    ¬ ∀ (dev : Device) (d : Disk) (fs : Fs), Opened dev d fs → (∀ a, d.written a = false) →
      ∀ uuid, Confined fs.geo d (dev.run (setUuid dev uuid) d).2 := by
  intro h
  have hhealthy : diskWideLog.Healthy := rfl
  have hext : fsWideLog.geo.logExtent = .ok (4096, 4096) := by decide +kernel
  have hn : totalRecBbs ≤ 4096 := by decide
  have hhead : ¬ fsWideLog.geo.InAgHead 2101248 := by
    rintro ⟨agno, hlt, _, hhigh⟩
    have h0 : agno = 0 := Nat.lt_one_iff.1 hlt
    rw [h0] at hhigh
    exact absurd hhigh (by decide)
  have hlog : ¬ fsWideLog.geo.InLog 2101248 := by
    rintro ⟨start, bbs, hext', _, hhigh⟩
    rw [hext] at hext'
    cases hext'
    exact absurd hhigh (by decide)
  have hclear : (devWideLog.run (fsWideLog.clearLog ⟨List.replicate 16 2, rfl⟩ 2)
      diskWideLog).2.written 2101248 = true :=
    (clearLog_written hhealthy hext hn (by decide) (by decide)).2 (.inr (by decide +kernel))
  have hwritten := (setUuid_written hhealthy fsWideLog_opened ⟨List.replicate 16 2, rfl⟩ rfl
    hhead).2 ⟨4096, 4096, 2, hext, hn, fsWideLog_clean, hclear⟩
  rcases (h devWideLog diskWideLog fsWideLog fsWideLog_opened (fun _ => rfl)
    ⟨List.replicate 16 2, rfl⟩ 2101248).1 hwritten with hin | hin
  · exact hlog hin
  · exact hhead hin

end MkfsXfs
