import MkfsXfs.Device
import MkfsXfs.Log.Record

/-!
The log read a basic block at a time (`LogReader` in `src/admin.rs`): the search for its
head and tail, as a program that asks for blocks, and the window it reads them through.

* `LogM`: programs over the one operation `bb n`, basic block `n` of the log.
* `findTail`: `xlog_find_tail`, with `findHead`, `findZeroed` and the scans they use.
* `findTail_safe`: every block asked for lies in the log.
* `LogReader.bb`: one block through a window of whole blocks; `LogReader.drive` reads a
  program's blocks that way.  `drive_eval`: on a healthy disk the program computes what it
  computes on the blocks themselves, and the disk is as it was.
* `drive_reads`: a driven program only reads, inside the log.
-/

namespace MkfsXfs

open Checked Log

/-! ### Constants -/

/-- `XLOG_REC_SHIFT` for a v2 log, in basic blocks. -/
def recBbs : ℕ := (1 <<< 18) / bbsize

/-- `XLOG_TOTAL_REC_SHIFT` for a v2 log (`XLOG_MAX_ICLOGS` records). -/
def totalRecBbs : ℕ := (8 <<< 18) / bbsize

@[simp] lemma recBbs_eq : recBbs = 512 := rfl

@[simp] lemma totalRecBbs_eq : totalRecBbs = 4096 := rfl

/-- `XLOG_VERSION_2`. -/
def xlogVersion2 : ℕ := 2

/-- How much of the log is read per device operation. -/
def window : ℕ := 256 * 1024

/-- Where the log's head and tail are and which cycle it is in, as `xlog_find_tail` finds
them. -/
structure LogState where
  /-- basic block the next record would be written at -/
  head : ℕ
  /-- basic block of the oldest record still needed -/
  tail : ℕ
  /-- `l_curr_cycle`: the cycle the head is in (0 for a zeroed log) -/
  cycle : ℕ
  deriving DecidableEq, Repr

/-- Whether the log holds changes not yet in place (`xlog_is_dirty`). -/
def LogState.dirty (s : LogState) : Bool := decide (s.head ≠ s.tail)

/-- The disk that holds the blocks from its start on. -/
def Disk.ofBlocks (log : ℕ → Buf) : Disk :=
  { Disk.blank with bytes := fun a => byteAt (log (a / bbsize)) (a % bbsize) }

lemma Disk.readBuf_ofBlocks {log : ℕ → Buf} {p : ℕ} (h : (log p).length = bbsize) :
    (Disk.ofBlocks log).readBuf (0 + p * bbsize) bbsize = log p := by
  refine Buf.ext (by rw [Disk.length_readBuf, h]) fun i hi => ?_
  rw [Disk.length_readBuf] at hi
  have hpos : 0 < bbsize := by decide
  have hdiv : (0 + p * bbsize + i) / bbsize = p := by
    rw [Nat.zero_add, Nat.mul_comm, Nat.mul_add_div hpos, Nat.div_eq_of_lt hi, Nat.add_zero]
  have hmod : (0 + p * bbsize + i) % bbsize = i := by
    rw [Nat.zero_add, Nat.mul_add_mod', Nat.mod_eq_of_lt hi]
  rw [Disk.byteAt_readBuf hi]
  change byteAt (log ((0 + p * bbsize + i) / bbsize)) ((0 + p * bbsize + i) % bbsize) = _
  rw [hdiv, hmod]

/-! ### Programs over the log's blocks -/

/-- A program that asks for basic blocks of the log. -/
abbrev LogM := Prog ℕ (fun _ => Buf) (Fault Error)

namespace Log

/-- Return the error `Corrupt`. -/
def corrupt {α : Type} (msg : String) : LogM α := Prog.fail (.error (.corrupt msg))

/-- Basic block `n` of the log. -/
def bb (n : ℕ) : LogM Buf := Prog.lift n

/-- The cycle of a block: of a header the one it names, of any other its first word. -/
def cycleOf (b : Buf) : ℕ := if be32 b 0 = headerMagic then be32 b Off.cycle else be32 b 0

/-- The block starts with the magic of a record header. -/
def HeaderBlock (b : Buf) : Prop := be32 b 0 = headerMagic

instance (b : Buf) : Decidable (HeaderBlock b) := inferInstanceAs (Decidable (_ = _))

/-- `xlog_get_cycle`. -/
def cycle (n : ℕ) : LogM ℕ := do
  let b ← bb n
  return cycleOf b

/-- Whether block `n` is a record header. -/
def isHeader (n : ℕ) : LogM Bool := do
  let b ← bb n
  return decide (HeaderBlock b)

/-- `wrapping_sub(1)` on a `u32`. -/
def pred32 (c : ℕ) : ℕ := (c + (2 ^ 32 - 1)) % 2 ^ 32

/-- `xlog_find_cycle_start`: binary search for the first block in `(first, last]` with cycle
`c`. -/
def findCycleStart (first last c : ℕ) : LogM ℕ :=
  let mid := (first + last) / 2
  if mid ≠ first ∧ mid ≠ last then do
    let m ← cycle mid
    if m = c then findCycleStart first mid c else findCycleStart mid last c
  else
    return last
termination_by (last - first) + (first - last)

/-- `xlog_find_verify_cycle`: the first block in `start..start+n` with cycle `stop`. -/
def findVerifyCycle (start : ℕ) : ℕ → ℕ → LogM (Option ℕ)
  | 0, _ => return none
  | n + 1, stop => do
      if (← cycle start) = stop then return some start
      else findVerifyCycle (start + 1) n stop

/-- The last header below block `last`, an error below `start`. -/
def previousHeader (start : ℕ) : ℕ → LogM (Option ℕ)
  | 0 => return none
  | i + 1 =>
      if i < start then corrupt "log inconsistent (didn't find previous header)"
      else do
        if ← isHeader i then return some i
        else previousHeader start i

/-- `xlog_find_verify_log_record`: the block `last` backed up over a partly written record;
nothing when block 0 is reached with no header. -/
def findVerifyLogRecord (start last extra : ℕ) : LogM (Option ℕ) := do
  match ← previousHeader start last with
  | none => return none
  | some i =>
      let h ← bb i
      let xhdrs := divCeil (be32 h Off.size) headerCycleSize
      let hLen := divCeil (be32 h Off.len) bbsize
      return some (if last - i + extra ≠ hLen + xhdrs then i else last)

/-- `xlog_find_zeroed`: the first zero block if the log is not written all the way round. -/
def findZeroed (bbs : ℕ) : LogM (Option ℕ) := do
  let first ← cycle 0
  if first = 0 then return some 0
  else do
    let c ← cycle (bbs - 1)
    if c ≠ 0 then return none
    else if first ≠ 1 then corrupt "log inconsistent or not a log (last==0, first!=1)"
    else do
      let last ← findCycleStart 0 (bbs - 1) 0
      let n := min totalRecBbs last
      let start := last - n
      let b ← findVerifyCycle start n 0
      let last := b.getD last
      match ← findVerifyLogRecord start last 0 with
      | some last => return some last
      | none => corrupt "log: no record before the zeroed blocks"

/-- The head where the cycle changes, and the cycle that no block just before it has. -/
def changeOfCycle (bbs firstHalf lastHalf : ℕ) : LogM (ℕ × ℕ) :=
  if firstHalf = lastHalf then return (bbs, pred32 lastHalf)
  else do
    let head ← findCycleStart 0 (bbs - 1) lastHalf
    return (head, lastHalf)

/-- The first half of `xlog_find_head`: the head as far as the cycles tell. -/
def cycleHead (bbs : ℕ) : LogM ℕ := do
  let firstHalf ← cycle 0
  let lastHalf ← cycle (bbs - 1)
  let (head, stop) ← changeOfCycle bbs firstHalf lastHalf
  if totalRecBbs ≤ head then
    return (← findVerifyCycle (head - totalRecBbs) totalRecBbs stop).getD head
  else
    let start := bbs - (totalRecBbs - head)
    match ← findVerifyCycle start (totalRecBbs - head) (pred32 stop) with
    | some b => return b
    | none => return (← findVerifyCycle 0 head stop).getD head

/-- The second half, `validate_head`: not in the middle of a record. -/
def validateHead (bbs head : ℕ) : LogM ℕ := do
  if recBbs ≤ head then
    match ← findVerifyLogRecord (head - recBbs) head 0 with
    | some head => return head
    | none => corrupt "log: no record header before the head"
  else
    match ← findVerifyLogRecord 0 head 0 with
    | some head => return head
    | none =>
        let start := bbs - (recBbs - head)
        match ← findVerifyLogRecord start bbs head with
        | none => corrupt "log: no record header before the head"
        | some new => return if new ≠ bbs then new else head

/-- `xlog_find_head`. -/
def findHead (bbs : ℕ) : LogM ℕ := do
  match ← findZeroed bbs with
  | some b => return b
  | none =>
      let head ← validateHead bbs (← cycleHead bbs)
      return if head = bbs then 0 else head

/-- The last header among the blocks `lo..lo + n`. -/
def lastHeader (lo : ℕ) : ℕ → LogM (Option ℕ)
  | 0 => return none
  | n + 1 => do
      if ← isHeader (lo + n) then return some (lo + n)
      else lastHeader lo n

/-- The last record before the head, and whether it starts past it. -/
def lastRecord (bbs head : ℕ) : LogM (ℕ × Bool) := do
  match ← lastHeader 0 head with
  | some i => return (i, false)
  | none =>
      match ← lastHeader head (bbs - head) with
      | some i => return (i, true)
      | none => corrupt "log: couldn't find sync record"

/-- Whether the head is at the start of a log never written. -/
def zeroedAt (head : ℕ) : LogM Bool :=
  if head = 0 then do
    let c ← cycle 0
    return decide (c = 0)
  else return false

/-- The cycle of the head, `c` being the cycle of the last record. -/
def headCycle (wrapped : Bool) (c : ℕ) : Exec ℕ := if wrapped then fit 32 (c + 1) else .ok c

/-- The blocks of headers of a record, as `xlog_find_tail` counts them. -/
def headerBlks (h : Buf) : ℕ :=
  let hSize := be32 h Off.size
  let hVersion := be32 h Off.version
  if hVersion &&& xlogVersion2 ≠ 0 ∧ hSize > headerCycleSize then divCeil hSize headerCycleSize
  else 1

/-- The state told by the last record, at `i`. -/
def stateAt (bbs head i : ℕ) (wrapped : Bool) : LogM LogState := do
  let h ← bb i
  let tail := be64 h Off.tailLsn % 2 ^ 32
  let c ← Prog.ofExcept (headCycle wrapped (be32 h Off.cycle))
  let hblks := headerBlks h
  let hLen := divCeil (be32 h Off.len) bbsize
  let numLogops := be32 h Off.numLogops
  let afterUmount := (i + hblks + hLen) % bbs
  if head = afterUmount ∧ numLogops = 1 then do
    -- `oh_flags` is the byte after `oh_clientid`.
    let op ← bb ((i + hblks) % bbs)
    return { head, tail := if byteAt op 9 &&& unmountTrans ≠ 0 then afterUmount else tail,
             cycle := c }
  else
    return { head, tail, cycle := c }

/-- `xlog_find_tail`, as far as `xlog_is_dirty` and `sb_logzero` use it. -/
def findTail (bbs : ℕ) : LogM LogState := do
  let head ← findHead bbs
  if ← zeroedAt head then return { head := 0, tail := 0, cycle := 0 }
  else do
    let (i, wrapped) ← lastRecord bbs head
    stateAt bbs head i wrapped

/-! ### Every block lies in the log -/

section Safe

variable {n : ℕ} {E : Fault Error → Prop}

lemma safe_bb {i : ℕ} {Q : Buf → Prop} (hi : i < n) (hQ : ∀ b, Q b) :
    (bb i).Safe (· < n) E Q := ⟨hi, hQ⟩

lemma safe_cycle {i : ℕ} {Q : ℕ → Prop} (hi : i < n) (hQ : ∀ c, Q c) :
    (cycle i).Safe (· < n) E Q := ⟨hi, fun _ => hQ _⟩

lemma safe_isHeader {i : ℕ} {Q : Bool → Prop} (hi : i < n) (hQ : ∀ c, Q c) :
    (isHeader i).Safe (· < n) E Q := ⟨hi, fun _ => hQ _⟩

lemma findCycleStart_safe {first last c : ℕ} (h : first ≤ last) (hn : last < n) :
    (findCycleStart first last c).Safe (· < n) E (· ≤ last) := by
  induction first, last using findCycleStart.induct with
  | case1 first last mid hmid ih₁ ih₂ =>
      have hlt : first < mid ∧ mid < last := by omega
      rw [findCycleStart, if_pos hmid]
      refine (safe_cycle (by omega) fun _ => trivial).bind fun m _ => ?_
      split_ifs
      · exact (ih₁ (by omega) (by omega)).mono (fun _ h => h) (fun _ h => h)
          fun a ha => le_trans ha hlt.2.le
      · exact ih₂ (by omega) hn
  | case2 first last mid hmid =>
      rw [findCycleStart, if_neg hmid]
      exact le_rfl

lemma findVerifyCycle_safe {start k stop : ℕ} (h : start + k ≤ n) :
    (findVerifyCycle start k stop).Safe (· < n) E (∀ b ∈ ·, b < start + k) := by
  induction k generalizing start with
  | zero => exact fun b hb => by cases hb
  | succ k ih =>
      rw [findVerifyCycle]
      refine (safe_cycle (by omega) fun _ => trivial).bind fun c _ => ?_
      split_ifs
      · rintro b ⟨⟩
        omega
      · refine (ih (by omega : start + 1 + k ≤ n)).mono (fun _ h => h) (fun _ h => h)
          fun o ho b hb => ?_
        have := ho b hb
        omega

lemma previousHeader_safe (hE : ∀ msg, E (.error (.corrupt msg))) {start last : ℕ}
    (h : last ≤ n) : (previousHeader start last).Safe (· < n) E (∀ i ∈ ·, i < last) := by
  induction last with
  | zero => exact fun b hb => by cases hb
  | succ i ih =>
      rw [previousHeader]
      split_ifs
      · exact hE _
      · refine (safe_isHeader (by omega) fun _ => trivial).bind fun c _ => ?_
        split_ifs
        · rintro b ⟨⟩
          omega
        · refine (ih (by omega)).mono (fun _ h => h) (fun _ h => h) fun o ho b hb => ?_
          have := ho b hb
          omega

lemma findVerifyLogRecord_safe (hE : ∀ msg, E (.error (.corrupt msg))) {start last extra : ℕ}
    (h : last ≤ n) :
    (findVerifyLogRecord start last extra).Safe (· < n) E (∀ b ∈ ·, b ≤ last) := by
  rw [findVerifyLogRecord]
  refine (previousHeader_safe hE h).bind fun o ho => ?_
  cases o with
  | none => exact fun b hb => by cases hb
  | some i =>
      have hi := ho i rfl
      refine (safe_bb (by omega) fun _ => trivial).bind fun b _ => ?_
      rintro x ⟨⟩
      split_ifs <;> omega

lemma findZeroed_safe (hE : ∀ msg, E (.error (.corrupt msg))) (h : 0 < n) :
    (findZeroed n).Safe (· < n) E (∀ b ∈ ·, b < n) := by
  rw [findZeroed]
  refine (safe_cycle h fun _ => trivial).bind fun first _ => ?_
  split
  · rintro b ⟨⟩
    exact h
  refine (safe_cycle (by omega) fun _ => trivial).bind fun c _ => ?_
  split
  · exact fun b hb => by cases hb
  split
  · exact hE _
  refine (findCycleStart_safe (Nat.zero_le _) (by omega)).bind fun last hlast => ?_
  refine (findVerifyCycle_safe (by omega)).bind fun o ho => ?_
  have hle : o.getD last ≤ n - 1 := by
    cases o with
    | none => exact hlast
    | some b =>
        have := ho b rfl
        simp only [Option.getD_some]
        omega
  refine (findVerifyLogRecord_safe hE (by omega)).bind fun o' ho' => ?_
  cases o' with
  | none => exact hE _
  | some last' =>
      have := ho' last' rfl
      rintro b ⟨⟩
      omega

lemma cycleHead_safe (h : totalRecBbs ≤ n) : (cycleHead n).Safe (· < n) E (· ≤ n) := by
  have ht := totalRecBbs_eq
  rw [cycleHead]
  refine (safe_cycle (by omega) fun _ => trivial).bind fun first _ => ?_
  refine (safe_cycle (by omega) fun _ => trivial).bind fun last _ => ?_
  have hpair : (changeOfCycle n first last).Safe (· < n) E fun r => r.1 ≤ n := by
    rw [changeOfCycle]
    split
    · exact le_refl n
    · exact (findCycleStart_safe (Nat.zero_le _) (by omega)).bind fun head hhead =>
        le_trans hhead (Nat.sub_le n 1)
  refine hpair.bind fun r hr => ?_
  obtain ⟨head, stop⟩ := r
  dsimp only at hr ⊢
  split
  · refine (findVerifyCycle_safe (by omega)).bind fun o ho => ?_
    cases o with
    | none => exact hr
    | some b =>
        have := ho b rfl
        change b ≤ n
        omega
  · refine (findVerifyCycle_safe (by omega)).bind fun o ho => ?_
    cases o with
    | some b =>
        have := ho b rfl
        change b ≤ n
        omega
    | none =>
        refine (findVerifyCycle_safe (by omega)).bind fun o' ho' => ?_
        cases o' with
        | none => exact hr
        | some b =>
            have := ho' b rfl
            change b ≤ n
            omega

lemma validateHead_safe (hE : ∀ msg, E (.error (.corrupt msg))) {head : ℕ} (h : head ≤ n) :
    (validateHead n head).Safe (· < n) E (· ≤ n) := by
  rw [validateHead]
  split
  · refine (findVerifyLogRecord_safe hE h).bind fun o ho => ?_
    cases o with
    | none => exact hE _
    | some b => exact (ho b rfl).trans h
  · refine (findVerifyLogRecord_safe hE h).bind fun o ho => ?_
    cases o with
    | some b => exact (ho b rfl).trans h
    | none =>
        refine (findVerifyLogRecord_safe hE le_rfl).bind fun o' ho' => ?_
        cases o' with
        | none => exact hE _
        | some new =>
            change (if new ≠ n then new else head) ≤ n
            split_ifs
            · exact ho' new rfl
            · exact h

lemma findHead_safe (hE : ∀ msg, E (.error (.corrupt msg))) (h : totalRecBbs ≤ n) :
    (findHead n).Safe (· < n) E (· < n) := by
  have hn : 0 < n := by rw [totalRecBbs_eq] at h; omega
  rw [findHead]
  refine (findZeroed_safe hE hn).bind fun o ho => ?_
  cases o with
  | some b => exact ho b rfl
  | none =>
      refine (cycleHead_safe h).bind fun head hhead => ?_
      refine (validateHead_safe hE hhead).bind fun head' hhead' => ?_
      change (if head' = n then 0 else head') < n
      split_ifs <;> omega

lemma lastHeader_safe {lo k : ℕ} (h : lo + k ≤ n) :
    (lastHeader lo k).Safe (· < n) E (∀ i ∈ ·, i < n) := by
  induction k with
  | zero => exact fun b hb => by cases hb
  | succ k ih =>
      rw [lastHeader]
      refine (safe_isHeader (by omega) fun _ => trivial).bind fun c _ => ?_
      split
      · rintro b ⟨⟩
        omega
      · exact ih (by omega)

lemma lastRecord_safe (hE : ∀ msg, E (.error (.corrupt msg))) {head : ℕ} (h : head ≤ n) :
    (lastRecord n head).Safe (· < n) E (fun r => r.1 < n) := by
  rw [lastRecord]
  refine (lastHeader_safe (by omega)).bind fun o ho => ?_
  cases o with
  | some i => exact ho i rfl
  | none =>
      refine (lastHeader_safe (by omega)).bind fun o' ho' => ?_
      cases o' with
      | some i => exact ho' i rfl
      | none => exact hE _

/-- **The search stays inside the log**: every block it asks for lies below `n`, on whatever
the blocks hold, and so does the head it finds. -/
theorem findTail_safe (hE : ∀ msg, E (.error (.corrupt msg))) (hP : E .panic)
    (h : totalRecBbs ≤ n) : (findTail n).Safe (· < n) E (fun s => s.head < n) := by
  have hn : 0 < n := by rw [totalRecBbs_eq] at h; omega
  rw [findTail]
  refine (findHead_safe hE h).bind fun head hhead => ?_
  have hzero : (zeroedAt head).Safe (· < n) E (fun _ => True) := by
    rw [zeroedAt]
    split
    · exact (safe_cycle hn fun _ => trivial).bind (R := fun _ => True) fun _ _ => trivial
    · trivial
  refine hzero.bind fun zeroed _ => ?_
  split
  · exact hn
  refine (lastRecord_safe hE hhead.le).bind fun r hr => ?_
  refine (safe_bb hr fun _ => trivial).bind fun b _ => ?_
  have hcycle : (Prog.ofExcept (headCycle r.2 (be32 b Off.cycle)) : LogM ℕ).Safe (· < n) E
      (fun _ => True) := by
    rw [headCycle, fit]
    split_ifs
    · trivial
    · exact hP
    · trivial
  refine hcycle.bind fun c _ => ?_
  dsimp only
  split
  · exact (safe_bb (Nat.mod_lt _ hn) fun _ => trivial).bind fun _ _ => hhead
  · exact hhead

end Safe

end Log

/-! ### The window -/

/-- The reader of the log of `bbs` basic blocks that starts at byte `start`. -/
structure LogReader where
  start : ℕ
  /-- `l_logBBsize` -/
  bbs : ℕ
  total_le : totalRecBbs ≤ bbs

/-- The bytes of the log held in memory. -/
structure Window where
  /-- the log offset of the first of them -/
  winAt : ℕ
  win : Buf

/-- The window before the first read. -/
def Window.init : Window := ⟨0, []⟩

namespace LogReader

/-- The window that holds byte `byte` of the log: the old one, or one read anew. -/
def fill (r : LogReader) (byte : ℕ) (w : Window) : DevM Window :=
  if w.win = [] ∨ byte < w.winAt ∨ w.winAt + w.win.length ≤ byte then do
    let winAt := byte / window * window
    let rest ← Prog.ofExcept (sub (r.bbs * bbsize) winAt)
    let offset ← Prog.ofExcept (fit 64 (r.start + winAt))
    let win ← readAt offset (min window rest)
    return ⟨winAt, win⟩
  else return w

/-- Basic block `n` of the log; a slice past the window is a panic. -/
def bb (r : LogReader) (n : ℕ) (w : Window) : DevM (Buf × Window) := do
  let byte ← Prog.ofExcept (fit 64 (n * bbsize))
  let w ← r.fill byte w
  let o := byte - w.winAt
  if o + bbsize ≤ w.win.length then return ((w.win.drop o).take bbsize, w)
  else Prog.fail .panic

/-- A log program over the device: its blocks read through the window. -/
def drive {α : Type} (r : LogReader) (p : LogM α) : DevM α := do
  let x ← Prog.translate r.bb p Window.init
  return x.1

/-- `xlog_find_tail` on the device. -/
def findTail (r : LogReader) : DevM LogState := r.drive (Log.findTail r.bbs)

/-- Basic block `n` as it lies on the disk. -/
def blockOn (r : LogReader) (d : Disk) (n : ℕ) : Buf := d.readBuf (r.start + n * bbsize) bbsize

/-- The window holds what the disk does: nothing, or a whole window of the log. -/
structure Holds (r : LogReader) (w : Window) (d : Disk) : Prop where
  healthy : d.Healthy
  aligned : w.win ≠ [] → w.winAt % window = 0
  win_eq : w.win ≠ [] → w.win = d.readBuf (r.start + w.winAt) (min window (r.bbs * bbsize - w.winAt))

variable {r : LogReader} {w : Window} {d : Disk} {dev : Device} {n : ℕ}

/-- A block is inside the window that its first byte lies in. -/
lemma block_in_window {winAt len : ℕ} (halign : winAt % window = 0)
    (hlo : winAt ≤ n * bbsize) (hhi : n * bbsize < winAt + len)
    (hlen : len = min window (r.bbs * bbsize - winAt)) :
    n * bbsize - winAt + bbsize ≤ len := by
  have hw : window = 512 * 512 := rfl
  rw [hw] at halign hlen
  rw [bbsize] at *
  omega

/-- Filling the window reads the log, if at all. -/
lemma run_fill (h : r.Holds w d) (hsize : r.start + r.bbs * bbsize ≤ dev.size)
    (hn : n < r.bbs) : ∃ w', dev.run (r.fill (n * bbsize) w) d = (.ok w', d) ∧ r.Holds w' d ∧
      w'.win ≠ [] ∧ w'.winAt ≤ n * bbsize ∧ n * bbsize < w'.winAt + w'.win.length := by
  rw [fill]
  split_ifs with hmiss
  · -- A miss: the window the block's first byte lies in is read.
    have hw : window = 512 * 512 := rfl
    have hbb : bbsize = 512 := rfl
    have hdm := Nat.div_add_mod (n * bbsize) window
    have hmod := Nat.mod_lt (n * bbsize) (by decide : 0 < window)
    have hlt : n * bbsize < r.bbs * bbsize := Nat.mul_lt_mul_of_pos_right hn (by decide)
    have halign : n * bbsize / window * window % window = 0 := Nat.mul_mod_left _ _
    have hdev := dev.size_lt
    rw [Nat.mul_comm window] at hdm
    dsimp only
    generalize n * bbsize / window * window = winAt at hdm halign ⊢
    have hread : dev.run (readAt (r.start + winAt) (min window (r.bbs * bbsize - winAt))) d =
        (.ok (d.readBuf (r.start + winAt) (min window (r.bbs * bbsize - winAt))), d) :=
      Device.run_readAt h.healthy (by omega)
    rw [sub_of_le (by omega : winAt ≤ r.bbs * bbsize),
      fit_of_lt (by omega : r.start + winAt < 2 ^ 64)]
    refine ⟨_, Device.run_bind_ok hread, ⟨h.healthy, fun _ => halign, fun _ => rfl⟩, ?_, ?_, ?_⟩
    · rw [← List.length_pos_iff, Disk.length_readBuf]
      omega
    · change winAt ≤ n * bbsize
      omega
    · rw [Disk.length_readBuf]
      change n * bbsize < winAt + _
      omega
  · refine ⟨w, rfl, h, fun hnil => hmiss (.inl hnil), ?_, ?_⟩
    · by_contra hlo
      exact hmiss (.inr (.inl (by omega)))
    · by_contra hhi
      exact hmiss (.inr (.inr (by omega)))

/-- On a healthy disk `bb` gives the block, and leaves the disk and the window's promise. -/
lemma run_bb (h : r.Holds w d) (hsize : r.start + r.bbs * bbsize ≤ dev.size) (hn : n < r.bbs) :
    ∃ w', dev.run (r.bb n w) d = (.ok (r.blockOn d n, w'), d) ∧ r.Holds w' d := by
  have hbytes : n * bbsize < r.bbs * bbsize := Nat.mul_lt_mul_of_pos_right hn (by decide)
  have hdev := dev.size_lt
  have hfit : (fit 64 (n * bbsize) : Exec ℕ) = .ok (n * bbsize) := fit_of_lt (by omega)
  obtain ⟨w', hrun, hholds, hne, hlo, hhi⟩ := run_fill h hsize hn
  have hwin := hholds.win_eq hne
  have hlen : w'.win.length = min window (r.bbs * bbsize - w'.winAt) := by
    rw [hwin, Disk.length_readBuf]
  have hfits := block_in_window (hholds.aligned hne) hlo hhi hlen
  refine ⟨w', ?_, hholds⟩
  rw [bb, hfit]
  refine (Device.run_bind_ok hrun).trans ?_
  dsimp only
  rw [if_pos hfits]
  have hblock : (w'.win.drop (n * bbsize - w'.winAt)).take bbsize = r.blockOn d n := by
    refine Buf.ext (by simp [blockOn]; omega) fun i hi => ?_
    have hi' : i < bbsize := by simp at hi; omega
    rw [blockOn, Disk.byteAt_readBuf hi', byteAt_take hi', byteAt_drop, hwin,
      Disk.byteAt_readBuf (by omega)]
    congr 1
    omega
  rw [hblock]
  rfl

/-- **The window is transparent**: on a healthy disk that holds the whole log, a program that
stays inside it has the result it has on the blocks themselves, and the disk is as it
was. -/
theorem drive_eval {α : Type} {p : LogM α} {E : Fault Error → Prop} {Q : α → Prop}
    (hp : p.Safe (· < r.bbs) E Q) (hd : d.Healthy)
    (hsize : r.start + r.bbs * bbsize ≤ dev.size) :
    dev.run (r.drive p) d = (p.eval (r.blockOn d), d) := by
  have hinit : r.Holds Window.init d :=
    ⟨hd, fun h => absurd rfl h, fun h => absurd rfl h⟩
  have sim : ∀ n w d', n < r.bbs → (r.Holds w d' ∧ d' = d) →
      ∃ w' t', Prog.run dev.step (r.bb n w) d' = (.ok (r.blockOn d n, w'), t') ∧
        (r.Holds w' t' ∧ t' = d) := by
    intro n w d' hn hw
    rw [hw.2]
    obtain ⟨w', hbb, hw'⟩ := run_bb (hw.2 ▸ hw.1) hsize hn
    exact ⟨w', d, hbb, hw', rfl⟩
  obtain ⟨w', d', hrun, hholds, hd'⟩ := Prog.run_translate (r.blockOn d)
    (fun w d' => r.Holds w d' ∧ d' = d) sim hp ⟨hinit, rfl⟩
  rw [hd'] at hrun
  rw [drive]
  cases hev : p.eval (r.blockOn d) with
  | ok a =>
      rw [hev] at hrun
      exact Device.run_bind_ok hrun
  | error e =>
      rw [hev] at hrun
      exact Device.run_bind_error hrun

/-- The search on a healthy disk that holds the blocks `log`. -/
theorem run_findTail {log : ℕ → Buf} {start n : ℕ} (hn : totalRecBbs ≤ n) (hd : d.Healthy)
    (hsize : start + n * bbsize ≤ dev.size)
    (hdisk : ∀ p < n, d.readBuf (start + p * bbsize) bbsize = log p) :
    dev.run (LogReader.mk start n hn).findTail d = ((Log.findTail n).eval log, d) := by
  have hsafe : (Log.findTail n).Safe (· < n) (fun _ => True) (fun s => s.head < n) :=
    Log.findTail_safe (fun _ => trivial) trivial hn
  have heval : (Log.findTail n).eval ((LogReader.mk start n hn).blockOn d) =
      (Log.findTail n).eval log := hsafe.eval_congr hdisk
  have hrun := drive_eval (r := LogReader.mk start n hn) hsafe hd hsize
  rw [heval] at hrun
  exact hrun

/-! ### Only reads, inside the log -/

/-- The operation reads bytes of the log. -/
def ReadsLog (r : LogReader) (op : DevOp) : Prop :=
  ∃ offset len, op = .readAt offset len ∧ r.start ≤ offset ∧
    offset + len ≤ r.start + r.bbs * bbsize

lemma ReadsLog.untouched {op : DevOp} {a : ℕ} (h : r.ReadsLog op) : ¬ op.Touches a := by
  obtain ⟨offset, len, rfl, _⟩ := h
  exact id

/-- The operation reads a window of the log, the last one short. -/
def ReadsWindow (r : LogReader) (op : DevOp) : Prop :=
  ∃ winAt, window ∣ winAt ∧ winAt ≤ r.bbs * bbsize ∧
    op = .readAt (r.start + winAt) (min window (r.bbs * bbsize - winAt))

lemma ReadsWindow.readsLog {op : DevOp} (h : r.ReadsWindow op) : r.ReadsLog op := by
  obtain ⟨winAt, -, hle, rfl⟩ := h
  exact ⟨_, _, rfl, by omega, by omega⟩

lemma safe_bb {E : Fault Error → Prop} (hP : E .panic) :
    (r.bb n w).Safe r.ReadsWindow E (fun _ => True) := by
  have hpanic : ∀ {x : Exec ℕ} {k : ℕ}, (x = .ok k ∨ x = .error .panic) →
      (Prog.ofExcept x : DevM ℕ).Safe r.ReadsWindow E (· = k) := by
    rintro x k (rfl | rfl)
    · rfl
    · exact hP
  have hfit : ∀ k, (fit 64 k : Exec ℕ) = .ok k ∨ (fit 64 k : Exec ℕ) = .error .panic := by
    intro k
    rw [fit]
    split_ifs <;> simp
  have hfill : ∀ byte, (r.fill byte w).Safe r.ReadsWindow E (fun _ => True) := by
    intro byte
    rw [fill]
    split
    · dsimp only
      rw [sub]
      split
      · refine (hpanic (.inl rfl)).bind fun rest hrest => ?_
        refine (hpanic (hfit _)).bind fun offset hoffset => ?_
        subst hrest hoffset
        exact (safe_readAt ⟨_, dvd_mul_left _ _, by assumption, rfl⟩ fun _ _ => trivial).bind
          (R := fun _ => True) (Q := fun _ => True) fun _ _ => trivial
      · exact hP
    · trivial
  rw [bb]
  refine (hpanic (hfit _)).bind fun byte _ => ?_
  refine (hfill byte).bind fun w' _ => ?_
  dsimp only
  split
  · trivial
  · exact hP

/-- A driven program only reads windows of the log. -/
theorem drive_windows {α : Type} {p : LogM α} {A : ℕ → Prop} {E : Fault Error → Prop}
    {Q : α → Prop} (hp : p.Safe A E Q) (hP : E .panic) : (r.drive p).Safe r.ReadsWindow E Q := by
  have htr : (Prog.translate r.bb p Window.init).Safe r.ReadsWindow E
      (fun x => Q x.1 ∧ True) :=
    Prog.safe_translate (h := r.bb) (I := fun _ => True) hp (fun _ _ _ _ => safe_bb hP) trivial
  exact htr.bind fun x hx => hx.1

/-- A driven program only reads, and only the log. -/
theorem drive_reads {α : Type} {p : LogM α} {A : ℕ → Prop} {E : Fault Error → Prop}
    {Q : α → Prop} (hp : p.Safe A E Q) (hP : E .panic) : (r.drive p).Safe r.ReadsLog E Q :=
  (drive_windows hp hP).mono (fun _ => ReadsWindow.readsLog) (fun _ he => he) fun _ hq => hq

end LogReader

end MkfsXfs
