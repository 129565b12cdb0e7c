import MkfsXfs.Lib.Checked

/-!
The errors of the crate (`src/error.rs`) and the runs of its code that end in one.

* `Error`: the seven kinds of failure.  What the operating system reports with a failed
  operation is left out, the offset stays.
* `Error.Refusal`: an error that is not a failed or out-of-bounds device operation.
* `debugStr`: a string in the text of an error, quoted as `{:?}` quotes it.
* `Exec`: a run of the crate's code, checked as a debug build checks it: arithmetic that
  leaves its word is a panic.
-/

namespace MkfsXfs

/-- Anything that can go wrong formatting or reading an XFS filesystem. -/
inductive Error where
  /-- the device failed a read, write or flush -/
  | io (offset : ℕ)
  /-- a read or write ran past the end of the device -/
  | outOfBounds (offset len size : ℕ)
  /-- the parameters cannot describe a filesystem `mkfs.xfs` would make -/
  | invalidParams (msg : String)
  /-- a configuration this implementation does not reproduce -/
  | unsupported (msg : String)
  /-- what was read is not an XFS filesystem -/
  | notXfs (msg : String)
  /-- on-disk metadata failed a structural check -/
  | corrupt (msg : String)
  /-- the log holds changes to replay, or the filesystem needs repair -/
  | needsRecovery (msg : String)
  deriving DecidableEq, Repr

/-- The error is not the report of a failed or out-of-bounds device operation. -/
def Error.Refusal : Error → Prop
  | .io _ => False
  | .outOfBounds _ _ _ => False
  | _ => True

/-- A character of a quoted string: the quote, the backslash and the control characters are
escaped. -/
def debugChar (c : Char) : String :=
  match c.toNat with
  | 0 => "\\0"
  | 9 => "\\t"
  | 10 => "\\n"
  | 13 => "\\r"
  | 34 => "\\\""
  | 92 => "\\\\"
  | n =>
    if n < 32 ∨ 127 ≤ n ∧ n < 160 then "\\u\x7b" ++ String.ofList (Nat.toDigits 16 n) ++ "\x7d"
    else c.toString

/-- The string in quotes. -/
def debugStr (s : String) : String := "\"" ++ String.join (s.toList.map debugChar) ++ "\""

example : debugStr "a\x00\n\x7f" = "\"a\\0\\n\\u\x7b7f\x7d\"" := by decide

/-- A run of the crate's code. -/
abbrev Exec (α : Type) := Checked.Run Error α

end MkfsXfs
