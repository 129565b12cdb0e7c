import MkfsXfs.Log.Reader

/-!
The window of the log reader call by call (`LogReader::bb` in `src/admin.rs`), with what a call
that fails leaves behind.

* `TryM`: programs that go on after an operation that fails.  `Device.tryRun`: their runs.
* `LogReader.bbMut`: one call, with the reader it leaves.  `run_bb_eq`: it is `LogReader.bb` as
  far as a program that stops at the first error can tell.
* `calls_exact`: of a sequence of calls, each that succeeds before any has failed returns its
  block, and every read stays inside the log.  `calls_not_exact`: after a failed read the window
  stands for bytes it does not hold.
* `calls_healthy`: on a healthy disk every call succeeds.
-/

namespace MkfsXfs

open Checked

/-- A program that is told when an operation fails. -/
abbrev TryM := Prog DevOp (fun op => Except (Fault Error) op.Ans) Empty

/-- The run of a program that is told of failures: it always ends with a result. -/
def Device.tryRun {α : Type} (dev : Device) : TryM α → Disk → α × Disk
  | .pure a, d => (a, d)
  | .call op k, d => dev.tryRun (k (dev.step op d).1) (dev.step op d).2

/-- Read `len` bytes at `offset`, or be told why not. -/
def tryRead (offset len : ℕ) : TryM (Except (Fault Error) Buf) :=
  .call (.readAt offset len) fun (x : Except (Fault Error) {b : Buf // b.length = len}) =>
    .pure (x.map Subtype.val)

namespace Device

variable {dev : Device} {d : Disk} {α β : Type}

@[simp] lemma tryRun_pure (a : α) : dev.tryRun (Prog.pure a : TryM α) d = (a, d) := rfl

@[simp] lemma tryRun_bind (p : TryM α) (f : α → TryM β) :
    dev.tryRun (p >>= f) d = dev.tryRun (f (dev.tryRun p d).1) (dev.tryRun p d).2 := by
  induction p generalizing d with
  | pure a => rfl
  | fail e => exact e.elim
  | call op k ih => exact ih _

lemma tryRun_tryRead (offset len : ℕ) :
    dev.tryRun (tryRead offset len) d = dev.run (readAt offset len) d := by
  have hcall : dev.tryRun (tryRead offset len) d =
      (((dev.step (.readAt offset len) d).1 :
        Except (Fault Error) {b : Buf // b.length = len}).map Subtype.val,
        (dev.step (.readAt offset len) d).2) := rfl
  have hrun : dev.run (Prog.lift (.readAt offset len) : DevM _) d =
      dev.step (.readAt offset len) d := Prog.run_lift _
  rw [hcall]
  rcases hstep : dev.step (.readAt offset len) d with ⟨e | b, t⟩
  · exact (run_bind_error (hrun.trans hstep)).symm
  · exact (run_bind_ok (f := fun b : {b : Buf // b.length = len} => (Prog.pure b.1 : DevM Buf))
      (hrun.trans hstep)).symm

end Device

/-- `Vec::resize`, filling up with zeros. -/
def resize (b : Buf) (len : ℕ) : Buf := b.take len ++ List.replicate (len - b.length) 0

namespace LogReader

/-- The window moved to the byte `byte` of the log if it is not there. -/
def fillMut (r : LogReader) (byte : ℕ) (w : Window) :
    TryM (Except (Fault Error) Unit × Window) :=
  if w.win = [] ∨ byte < w.winAt ∨ w.winAt + w.win.length ≤ byte then
    let winAt := byte / window * window
    match (sub (r.bbs * bbsize) winAt : Exec ℕ), (fit 64 (r.start + winAt) : Exec ℕ) with
    | .ok rest, .ok offset => do
        let len := min window rest
        -- The buffer has its new size before the read, `win_at` moves only after it.
        match ← tryRead offset len with
        | .ok win => return (.ok (), ⟨winAt, win⟩)
        | .error e => return (.error e, ⟨w.winAt, resize w.win len⟩)
    | _, _ => return (.error .panic, w)
  else return (.ok (), w)

/-- Basic block `n` of the log, and the reader after the call. -/
def bbMut (r : LogReader) (n : ℕ) (w : Window) : TryM (Except (Fault Error) Buf × Window) :=
  match (fit 64 (n * bbsize) : Exec ℕ) with
  | .error e => return (.error e, w)
  | .ok byte => do
      let (x, w) ← r.fillMut byte w
      match x with
      | .error e => return (.error e, w)
      | .ok () =>
          let o := byte - w.winAt
          if o + bbsize ≤ w.win.length then return (.ok ((w.win.drop o).take bbsize), w)
          else return (.error .panic, w)

/-- A sequence of calls, whatever becomes of each. -/
def calls (r : LogReader) : List ℕ → Window → TryM (List (Except (Fault Error) Buf) × Window)
  | [], w => return ([], w)
  | n :: ns, w => do
      let (x, w) ← r.bbMut n w
      let (xs, w) ← r.calls ns w
      return (x :: xs, w)

variable {r : LogReader} {w : Window} {d : Disk} {dev : Device} {n : ℕ}

/-! ### One call and the reader that stops at an error -/

/-- The outcome of a call as a program sees that stops at an error. -/
def stopping {α : Type} : (Except (Fault Error) α × Window) × Disk →
    Except (Fault Error) (α × Window) × Disk
  | ((.ok a, w), d) => (.ok (a, w), d)
  | ((.error e, _), d) => (.error e, d)

lemma run_fill_eq {byte : ℕ} :
    dev.run (r.fill byte w) d =
      match dev.tryRun (r.fillMut byte w) d with
      | ((.ok (), w'), t) => (.ok w', t)
      | ((.error e, _), t) => (.error e, t) := by
  rw [fill, fillMut]
  split_ifs with hmiss
  · dsimp only
    rcases lt_or_ge (r.bbs * bbsize) (byte / window * window) with hlt | hle
    · rw [sub_of_lt hlt]
      rfl
    rw [sub_of_le hle]
    rw [fit]
    split_ifs with hfit
    · have hread := dev.tryRun_tryRead (d := d) (r.start + byte / window * window)
        (min window (r.bbs * bbsize - byte / window * window))
      rcases hrun : dev.run (readAt (r.start + byte / window * window)
        (min window (r.bbs * bbsize - byte / window * window))) d with ⟨e | b, t⟩
      · refine (Device.run_bind_error hrun).trans ?_
        rw [Device.tryRun_bind, hread, hrun]
        rfl
      · refine (Device.run_bind_ok hrun).trans ?_
        rw [Device.tryRun_bind, hread, hrun]
        rfl
    · rfl
  · rfl

/-- **A call is `LogReader.bb`**, with the reader that an error leaves. -/
theorem run_bb_eq : dev.run (r.bb n w) d = stopping (dev.tryRun (r.bbMut n w) d) := by
  rw [bb, bbMut, fit]
  split_ifs with hfit
  · change dev.run (r.fill (n * bbsize) w >>= _) d = _
    have hfill := @run_fill_eq r w d dev (n * bbsize)
    simp only [Device.tryRun_bind]
    rcases htry : dev.tryRun (r.fillMut (n * bbsize) w) d with ⟨⟨e | ⟨⟩, w'⟩, t⟩
    · rw [htry] at hfill
      rw [Device.run_bind_error hfill]
      rfl
    · rw [htry] at hfill
      rw [Device.run_bind_ok hfill]
      dsimp only
      split_ifs <;> rfl
  · rfl

/-! ### What the window holds -/

/-- A window that is not empty holds what the disk does there. -/
def Describes (r : LogReader) (w : Window) (d : Disk) : Prop :=
  w.win ≠ [] → w.winAt % window = 0 ∧
    w.win = d.readBuf (r.start + w.winAt) (min window (r.bbs * bbsize - w.winAt))

lemma describes_init : r.Describes Window.init d := fun h => absurd rfl h

lemma holds_iff : r.Holds w d ↔ d.Healthy ∧ r.Describes w d :=
  ⟨fun h => ⟨h.healthy, fun hne => ⟨h.aligned hne, h.win_eq hne⟩⟩,
    fun h => ⟨h.1, fun hne => (h.2 hne).1, fun hne => (h.2 hne).2⟩⟩

lemma Describes.congr {d' : Disk} (h : r.Describes w d) (hd : d'.bytes = d.bytes) :
    r.Describes w d' := by
  intro hne
  obtain ⟨halign, hwin⟩ := h hne
  exact ⟨halign, hwin.trans (Disk.readBuf_congr fun a _ _ => congrFun hd.symm a)⟩

/-- A read changes nothing on the disk, and one that succeeds gives what is there. -/
lemma tryRun_tryRead_spec (offset len : ℕ) :
    (dev.tryRun (tryRead offset len) d).2.bytes = d.bytes ∧
      ∀ b, (dev.tryRun (tryRead offset len) d).1 = .ok b → b = d.readBuf offset len := by
  rw [Device.tryRun_tryRead]
  constructor
  · have hsafe : ∀ a, (readAt offset len).Safe (fun op => ¬ op.Touches a) (fun _ => True)
        (fun _ => True) := fun a => safe_readAt id fun _ _ => trivial
    exact funext fun a => (Device.run_untouched (hsafe a)).1
  · intro b hb
    exact (Device.run_readAt_eq_ok (Prod.ext hb rfl)).1

/-- The window holds the byte `byte` of the log as it lies on the disk. -/
structure Shows (r : LogReader) (w : Window) (d : Disk) (byte : ℕ) : Prop where
  describes : r.Describes w d
  win_ne : w.win ≠ []
  winAt_le : w.winAt ≤ byte
  lt_end : byte < w.winAt + w.win.length

/-- The window read for a byte of the log. -/
lemma shows_read {byte : ℕ} (hbyte : byte < r.bbs * bbsize) :
    r.Shows ⟨byte / window * window, d.readBuf (r.start + byte / window * window)
      (min window (r.bbs * bbsize - byte / window * window))⟩ d byte := by
  have hw : window = 512 * 512 := rfl
  have hlo := Nat.div_mul_le_self byte window
  have hhi := Nat.lt_div_mul_add (a := byte) (by decide : 0 < window)
  have halign : byte / window * window % window = 0 := Nat.mul_mod_left _ _
  generalize byte / window * window = winAt at hlo hhi halign ⊢
  refine ⟨fun _ => ⟨halign, rfl⟩, ?_, hlo, ?_⟩
  · rw [ne_eq, ← List.length_eq_zero_iff, Disk.length_readBuf]
    omega
  · rw [Disk.length_readBuf]
    dsimp only
    omega

/-- Moving the window leaves the disk, and when it succeeds the window holds the byte. -/
lemma fillMut_spec (h : r.Describes w d) {byte : ℕ} (hbyte : byte < r.bbs * bbsize) :
    (dev.tryRun (r.fillMut byte w) d).2.bytes = d.bytes ∧
      ((dev.tryRun (r.fillMut byte w) d).1.1 = .ok () →
        r.Shows (dev.tryRun (r.fillMut byte w) d).1.2 d byte) := by
  rw [fillMut]
  split_ifs with hmiss
  · dsimp only
    rw [sub_of_le (by have := Nat.div_mul_le_self byte window; omega), fit]
    split_ifs with hfit
    · dsimp only
      rw [Device.tryRun_bind]
      obtain ⟨hbytes, hok⟩ := @tryRun_tryRead_spec d dev (r.start + byte / window * window)
        (min window (r.bbs * bbsize - byte / window * window))
      rcases hread : dev.tryRun (tryRead (r.start + byte / window * window)
        (min window (r.bbs * bbsize - byte / window * window))) d with ⟨e | win, t⟩ <;>
        rw [hread] at hbytes hok
      · exact ⟨hbytes, fun hnot => by cases hnot⟩
      · obtain rfl := hok win rfl
        exact ⟨hbytes, fun _ => shows_read hbyte⟩
    · exact ⟨rfl, fun hnot => by cases hnot⟩
  · rw [not_or, not_or, not_lt, not_le] at hmiss
    exact ⟨rfl, fun _ => ⟨h, hmiss.1, hmiss.2.1, hmiss.2.2⟩⟩

/-- The block in a window that holds its first byte. -/
lemma Shows.block (h : r.Shows w d (n * bbsize)) :
    n * bbsize - w.winAt + bbsize ≤ w.win.length ∧
      (w.win.drop (n * bbsize - w.winAt)).take bbsize = r.blockOn d n := by
  obtain ⟨halign, hwin⟩ := h.describes h.win_ne
  have hlen : w.win.length = min window (r.bbs * bbsize - w.winAt) := by
    rw [hwin, Disk.length_readBuf]
  have hfits := block_in_window halign h.winAt_le h.lt_end hlen
  have hlo := h.winAt_le
  refine ⟨hfits, Buf.ext (by simp [blockOn]; omega) fun i hi => ?_⟩
  have hi' : i < bbsize := by simp at hi; omega
  rw [blockOn, Disk.byteAt_readBuf hi', byteAt_take hi', byteAt_drop, hwin,
    Disk.byteAt_readBuf (by omega)]
  congr 1
  omega

/-- **One call**: the disk is as it was, and a call that succeeds returns the block and leaves a
window that describes the disk. -/
theorem bbMut_spec (h : r.Describes w d) (hn : n < r.bbs) :
    (dev.tryRun (r.bbMut n w) d).2.bytes = d.bytes ∧
      ∀ b, (dev.tryRun (r.bbMut n w) d).1.1 = .ok b →
        b = r.blockOn d n ∧ r.Describes (dev.tryRun (r.bbMut n w) d).1.2 d := by
  have hbyte : n * bbsize < r.bbs * bbsize := Nat.mul_lt_mul_of_pos_right hn (by decide)
  rw [bbMut, fit]
  split_ifs with hfit
  · dsimp only
    rw [Device.tryRun_bind]
    obtain ⟨hbytes, hok⟩ := @fillMut_spec r w d dev h _ hbyte
    rcases hfill : dev.tryRun (r.fillMut (n * bbsize) w) d with ⟨⟨e | ⟨⟩, w'⟩, t⟩ <;>
      rw [hfill] at hbytes hok
    · exact ⟨hbytes, fun b hb => by cases hb⟩
    · have hshows := hok rfl
      obtain ⟨hfits, hblock⟩ := hshows.block
      dsimp only
      rw [if_pos hfits, hblock]
      refine ⟨hbytes, fun b hb => ?_⟩
      obtain rfl := Except.ok.inj hb
      exact ⟨rfl, hshows.describes⟩
  · exact ⟨rfl, fun b hb => by cases hb⟩

/-- A call for a block in the window. -/
lemma tryRun_bbMut_hit (hfit : n * bbsize < 2 ^ 64) (hne : w.win ≠ [])
    (hlo : w.winAt ≤ n * bbsize) (hhi : n * bbsize - w.winAt + bbsize ≤ w.win.length) :
    dev.tryRun (r.bbMut n w) d =
      ((.ok ((w.win.drop (n * bbsize - w.winAt)).take bbsize), w), d) := by
  have hbb : bbsize = 512 := rfl
  have hhit : ¬ (w.win = [] ∨ n * bbsize < w.winAt ∨ w.winAt + w.win.length ≤ n * bbsize) := by
    rw [not_or, not_or]
    exact ⟨hne, by omega, by omega⟩
  rw [bbMut, fit_of_lt hfit]
  dsimp only
  rw [Device.tryRun_bind, fillMut, if_neg hhit, Prog.pure_eq, Device.tryRun_pure]
  dsimp only
  rw [if_pos hhi, Prog.pure_eq, Device.tryRun_pure]

/-- A call whose read fails leaves a buffer of the new size under the old position. -/
lemma tryRun_bbMut_failed {t : Disk} {e : Fault Error} (hfit : n * bbsize < 2 ^ 64)
    (hmiss : w.win = [] ∨ n * bbsize < w.winAt ∨ w.winAt + w.win.length ≤ n * bbsize)
    (hn : n < r.bbs) (hoffset : r.start + n * bbsize / window * window < 2 ^ 64)
    (hread : dev.run (readAt (r.start + n * bbsize / window * window)
      (min window (r.bbs * bbsize - n * bbsize / window * window))) d = (.error e, t)) :
    dev.tryRun (r.bbMut n w) d =
      ((.error e, ⟨w.winAt, resize w.win
        (min window (r.bbs * bbsize - n * bbsize / window * window))⟩), t) := by
  have hbyte : n * bbsize < r.bbs * bbsize := Nat.mul_lt_mul_of_pos_right hn (by decide)
  have hle := Nat.div_mul_le_self (n * bbsize) window
  have hfill : dev.tryRun (r.fillMut (n * bbsize) w) d =
      ((.error e, ⟨w.winAt, resize w.win
        (min window (r.bbs * bbsize - n * bbsize / window * window))⟩), t) := by
    rw [fillMut, if_pos hmiss]
    dsimp only
    rw [sub_of_le (by omega), fit_of_lt hoffset]
    dsimp only
    rw [Device.tryRun_bind, Device.tryRun_tryRead, hread]
    rfl
  rw [bbMut, fit_of_lt hfit]
  dsimp only
  rw [Device.tryRun_bind, hfill]
  rfl

/-! ### Sequences of calls -/

/-- What a sequence of calls returns. -/
def outcomes (r : LogReader) (dev : Device) (ns : List ℕ) (w : Window) (d : Disk) :
    List (Except (Fault Error) Buf) := (dev.tryRun (r.calls ns w) d).1.1

lemma outcomes_cons {ns : List ℕ} :
    r.outcomes dev (n :: ns) w d = (dev.tryRun (r.bbMut n w) d).1.1 ::
      r.outcomes dev ns (dev.tryRun (r.bbMut n w) d).1.2 (dev.tryRun (r.bbMut n w) d).2 := by
  rw [outcomes, outcomes, calls, Device.tryRun_bind, Device.tryRun_bind]
  rfl

lemma blockOn_congr {d' : Disk} (hd : d'.bytes = d.bytes) : r.blockOn d' n = r.blockOn d n :=
  Disk.readBuf_congr fun a _ _ => congrFun hd a

/-- As long as no call has failed, the next that succeeds returns its block. -/
lemma outcomes_spec {ns : List ℕ} (h : r.Describes w d) (hns : ∀ n ∈ ns, n < r.bbs) {i : ℕ}
    {b : Buf} (hbefore : ∀ j < i, ∃ c, (r.outcomes dev ns w d)[j]? = some (.ok c))
    (hi : ns[i]? = some n) (hb : (r.outcomes dev ns w d)[i]? = some (.ok b)) :
    b = r.blockOn d n := by
  induction ns generalizing w d i with
  | nil => cases hi
  | cons m ns ih =>
      rw [outcomes_cons] at hbefore hb
      obtain ⟨hbytes, hok⟩ := @bbMut_spec r w d dev m h (hns m List.mem_cons_self)
      cases i with
      | zero =>
          obtain rfl := Option.some.inj hi
          exact (hok b (Option.some.inj hb)).1
      | succ i =>
          -- The first call succeeded, so the window it leaves describes the disk.
          obtain ⟨c, hc⟩ := hbefore 0 (Nat.succ_pos i)
          have hdesc := (hok c (Option.some.inj hc)).2
          rw [← blockOn_congr hbytes]
          exact ih (hdesc.congr hbytes) (fun k hk => hns k (List.mem_cons_of_mem m hk))
            (fun j hj => hbefore (j + 1) (Nat.succ_lt_succ hj)) hi hb

/-- One call only reads, and only the log. -/
lemma safe_bbMut {E : Empty → Prop} : (r.bbMut n w).Safe r.ReadsLog E (fun _ => True) := by
  have hfill : ∀ byte, (r.fillMut byte w).Safe r.ReadsLog E (fun _ => True) := by
    intro byte
    rw [fillMut]
    split_ifs
    · dsimp only
      rcases lt_or_ge (r.bbs * bbsize) (byte / window * window) with hlt | hle
      · rw [sub_of_lt hlt]
        trivial
      rw [sub_of_le hle, fit]
      split_ifs
      · refine ⟨⟨_, _, rfl, by omega, by omega⟩, fun x => ?_⟩
        cases x <;> trivial
      · trivial
    · trivial
  rw [bbMut, fit]
  split_ifs
  · refine (hfill _).bind fun x _ => ?_
    rcases x with ⟨e | ⟨⟩, w'⟩
    · trivial
    · dsimp only
      split_ifs <;> trivial
  · trivial

lemma safe_calls {E : Empty → Prop} {ns : List ℕ} :
    (r.calls ns w).Safe r.ReadsLog E (fun _ => True) := by
  induction ns generalizing w with
  | nil => trivial
  | cons n ns ih =>
      rw [calls]
      refine safe_bbMut.bind fun x _ => ?_
      exact (ih (w := x.2)).bind fun _ _ => trivial

/-- **On a healthy disk every call succeeds.** -/
theorem calls_healthy {ns : List ℕ} (hd : d.Healthy) (h : r.Describes w d)
    (hsize : r.start + r.bbs * bbsize ≤ dev.size) (hns : ∀ n ∈ ns, n < r.bbs) :
    r.outcomes dev ns w d = ns.map fun n => .ok (r.blockOn d n) := by
  induction ns generalizing w with
  | nil => rfl
  | cons n ns ih =>
      obtain ⟨w', hrun, hholds⟩ := run_bb (holds_iff.mpr ⟨hd, h⟩) hsize
        (hns n List.mem_cons_self)
      rw [run_bb_eq] at hrun
      rw [outcomes_cons]
      rcases hcall : dev.tryRun (r.bbMut n w) d with ⟨⟨e | b, w''⟩, t⟩ <;> rw [hcall] at hrun
      · cases hrun
      · obtain ⟨hok, ht⟩ := Prod.mk.inj hrun
        obtain ⟨hb, hw⟩ := Prod.mk.inj (Except.ok.inj hok)
        rw [List.map_cons, ← hb]
        refine congrArg (List.cons _) ?_
        dsimp only
        rw [ht, hw]
        exact ih (holds_iff.mp hholds).2 fun k hk => hns k (List.mem_cons_of_mem n hk)

/-- **The window is transparent up to the first failure.**  Of a sequence of calls in any order,
each that succeeds after none has failed returns exactly its block; and every device read, after
a failure too, stays inside the log. -/
theorem calls_exact (r : LogReader) (dev : Device) (d : Disk) {ns : List ℕ}
    (hns : ∀ n ∈ ns, n < r.bbs) :
    (∀ (i n : ℕ) (b : Buf), ns[i]? = some n →
      (∀ j < i, ∃ c, (r.outcomes dev ns Window.init d)[j]? = some (.ok c)) →
      (r.outcomes dev ns Window.init d)[i]? = some (.ok b) → b = r.blockOn d n) ∧
      (r.calls ns Window.init).Safe r.ReadsLog (fun _ => True) (fun _ => True) :=
  ⟨fun _ _ _ hi hbefore hb => outcomes_spec describes_init hns hbefore hi hb, safe_calls⟩

/-- A log of 2 MiB at the start of its device. -/
def logSmall : LogReader := ⟨0, 4096, le_rfl⟩

/-- The device of `logSmall`. -/
def devSmall : Device := ⟨2 ^ 21, 512, by decide⟩

/-- From the last block of a log back to its first. -/
theorem calls_exact_back :
    ∃ b, (logSmall.outcomes devSmall [4095, 0] Window.init Disk.blank)[1]? = some (.ok b) ∧
      b = logSmall.blockOn Disk.blank 0 := by
  have hns : ∀ n ∈ [4095, 0], n < logSmall.bbs := by decide
  have hall := @calls_healthy logSmall Window.init Disk.blank devSmall [4095, 0] rfl
    describes_init (by decide) hns
  have hsecond : (logSmall.outcomes devSmall [4095, 0] Window.init Disk.blank)[1]? =
      some (.ok (logSmall.blockOn Disk.blank 0)) := by
    rw [hall]
    rfl
  refine ⟨_, hsecond, ?_⟩
  refine (calls_exact logSmall devSmall Disk.blank hns).1 1 0 _ rfl ?_ hsecond
  intro j hj
  rw [hall]
  obtain rfl : j = 0 := by omega
  exact ⟨_, rfl⟩

/-- A disk of ones whose first operation fails. -/
def diskOnes : Disk := ⟨fun _ => 1, fun _ => false, fun n => n = 0⟩

/-- **After a failed read the window stands for bytes it does not hold**: the buffer has its
new size and the old position, so the next call takes its zeros for the block. -/
theorem calls_not_exact : (∀ n ∈ [0, 0], n < logSmall.bbs) ∧
    (logSmall.outcomes devSmall [0, 0] Window.init diskOnes)[1]? =
      some (.ok (List.replicate bbsize 0)) ∧
    logSmall.blockOn diskOnes 0 = List.replicate bbsize 1 := by
  have hread : devSmall.run (readAt (logSmall.start + 0 * bbsize / window * window)
      (min window (logSmall.bbs * bbsize - 0 * bbsize / window * window))) diskOnes =
      (.error (.error (.io 0)), diskOnes.tick) := rfl
  have hwin : resize Window.init.win
      (min window (logSmall.bbs * bbsize - 0 * bbsize / window * window)) =
      List.replicate window 0 := by
    have hmin : min window (logSmall.bbs * bbsize - 0 * bbsize / window * window) = window := by
      decide
    rw [hmin, Window.init, resize, List.take_nil, List.nil_append, List.length_nil, Nat.sub_zero]
  have hfirst := @tryRun_bbMut_failed logSmall Window.init diskOnes devSmall 0 _ _ (by decide)
    (Or.inl rfl) (by decide) (by decide) hread
  rw [hwin] at hfirst
  have hlen : (List.replicate window (0 : UInt8)).length = window := List.length_replicate
  have hne : List.replicate window (0 : UInt8) ≠ [] := by
    rw [ne_eq, ← List.length_eq_zero_iff, hlen]
    decide
  have hsecond := @tryRun_bbMut_hit logSmall ⟨0, List.replicate window 0⟩ diskOnes.tick devSmall 0
    (by decide) hne (Nat.zero_le _) (by rw [hlen]; decide)
  have hzeros : ((List.replicate window (0 : UInt8)).drop (0 * bbsize - 0)).take bbsize =
      List.replicate bbsize 0 := by
    have hmin : min bbsize (window - (0 * bbsize - 0)) = bbsize := by decide
    rw [List.drop_replicate, List.take_replicate, hmin]
  refine ⟨by decide, ?_, ?_⟩
  · rw [outcomes_cons, outcomes_cons, hfirst]
    have hpos : Window.init.winAt = 0 := rfl
    rw [hpos, hsecond, hzeros]
    rfl
  · rw [blockOn, Disk.readBuf, List.eq_replicate_iff]
    simp [diskOnes]

end LogReader

end MkfsXfs
