import MkfsXfs.Format.Run
import MkfsXfs.Lib.Text

/-!
The option parser of `mkfs-xfs` (`src/bin/mkfs_xfs.rs`).

* `parseSize`, `subopts`, `Cli.params`: the sizes, the sub-options and the parameters.
* `Spelling`, `Denotes`: how a size is written, and the number it stands for.
* `parseSize_eq_ok`: a size is read as what it stands for, or not at all.
* `blockOption_last` and the like: the last sub-option that sets a field is the one that stays.
* `params_exact_iff`: which fields are the numbers that were written.
-/

namespace MkfsXfs

open Text

/-! ### The parser -/

/-- What is wrong with the options. -/
inductive CliError where
  /-- `bad size`, with the size and what keeps it from being a number -/
  | badSize (s : String) (cause : NumberError)
  /-- `size overflows`, with the size -/
  | sizeOverflows (s : String)
  | badNumber (cause : NumberError)
  /-- `expected 0 or 1`, with what stands there -/
  | badBool (s : String)
  | badUuid (s : String)
  | unsupported (msg : String)
  deriving DecidableEq

/-- `char::is_whitespace`. -/
def isWhitespace (c : Char) : Bool :=
  c.toNat ∈ List.range' 0x09 5 ++ [0x20, 0x85, 0xa0, 0x1680] ++ List.range' 0x2000 11
    ++ [0x2028, 0x2029, 0x202f, 0x205f, 0x3000]

/-- The binary suffixes: `k`, `m`, `g`, `t` and `p`. -/
def suffixShift : Char → Option ℕ
  | 'k' => some 10
  | 'm' => some 20
  | 'g' => some 30
  | 't' => some 40
  | 'p' => some 50
  | _ => none

/-- The part of a size that says the number, and the shift of its suffix. -/
def splitSuffix (s : List Char) : List Char × ℕ :=
  match s.getLast?.bind suffixShift with
  | some shift => (s.dropLast, shift)
  | none => (s, 0)

/-- A size with an optional binary suffix. -/
def parseSize (s : String) : Except CliError UInt64 :=
  let s := (trim isWhitespace s.toList).map Char.toLower
  let (num, shift) := splitSuffix s
  match parse (2 ^ 64) num with
  | .error cause => .error (.badSize (String.ofList s) cause)
  | .ok n =>
      if n * 2 ^ shift < 2 ^ 64 then .ok (UInt64.ofNat (n * 2 ^ shift))
      else .error (.sizeOverflows (String.ofList s))

def parseBool (s : String) : Except CliError Bool :=
  match s with
  | "1" => .ok true
  | "0" => .ok false
  | _ => .error (.badBool s)

/-- `str::parse` of an unsigned number below the limit. -/
def parseNumber (limit : ℕ) (s : String) : Except CliError ℕ :=
  (parse limit s.toList).mapError .badNumber

/-- The sub-options: keys and values, the value `1` where there is none. -/
def subopts (list : List String) : List (String × String) :=
  ((list.flatMap fun o => o.toList.splitOn ',').filter (· ≠ [])).map fun kv =>
    if '=' ∈ kv then
      (String.ofList (kv.takeWhile (· ≠ '=')), String.ofList (kv.dropWhile (· ≠ '=')).tail)
    else (String.ofList kv, "1")

/-- The options that say what to make. -/
structure Cli where
  block : List String := []
  data : List String := []
  inode : List String := []
  metadata : List String := []
  sector : List String := []
  label : Option String := none

/-- `-b`. -/
def blockOption (p : Params) (kv : String × String) : Except CliError Params :=
  match kv.1 with
  | "size" => do
      let n ← parseSize kv.2
      return { p with blockSize := some n.toUInt32 }
  | k => .error (.unsupported ("unknown -b option " ++ k))

/-- `-s`. -/
def sectorOption (p : Params) (kv : String × String) : Except CliError Params :=
  match kv.1 with
  | "size" => do
      let n ← parseSize kv.2
      return { p with sectorSize := some n.toUInt32 }
  | k => .error (.unsupported ("unknown -s option " ++ k))

/-- `-d`. -/
def dataOption (p : Params) (kv : String × String) : Except CliError Params :=
  match kv.1 with
  | "size" => do
      let n ← parseSize kv.2
      return { p with size := some n }
  | "agcount" => do
      let n ← parseNumber (2 ^ 64) kv.2
      return { p with agcount := some (UInt64.ofNat n) }
  | "agsize" => do
      let n ← parseSize kv.2
      return { p with agsize := some n }
  | k => .error (.unsupported ("-d " ++ k ++ " is not supported"))

/-- `-i`. -/
def inodeOption (p : Params) (kv : String × String) : Except CliError Params :=
  match kv.1 with
  | "size" => do
      let n ← parseSize kv.2
      return { p with inodeSize := some n.toUInt32 }
  | "maxpct" => do
      let n ← parseNumber (2 ^ 8) kv.2
      return { p with imaxpct := some (UInt8.ofNat n) }
  | "sparse" => do
      let b ← parseBool kv.2
      return { p with features := { p.features with sparse := b } }
  | "nrext64" => do
      let b ← parseBool kv.2
      return { p with features := { p.features with nrext64 := b } }
  | k => .error (.unsupported ("-i " ++ k ++ " is not supported"))

section Metadata

variable (parseUuid : String → Option Uuid)

/-- `-m`: the parameters with the UUID. -/
def metadataOption (p : Params × Option Uuid) (kv : String × String) :
    Except CliError (Params × Option Uuid) :=
  let refused := .error (.unsupported ("-m " ++ kv.1 ++ "=" ++ kv.2 ++ " is not supported"))
  let feature (set : Features → Bool → Features) := do
    let b ← parseBool kv.2
    return ({ p.1 with features := set p.1.features b }, p.2)
  match kv.1 with
  | "uuid" =>
      match parseUuid kv.2 with
      | some uuid => .ok (p.1, some uuid)
      | none => .error (.badUuid kv.2)
  | "crc" => if kv.2 = "1" then .ok p else refused
  | "finobt" => feature fun f b => { f with finobt := b }
  | "rmapbt" => feature fun f b => { f with rmapbt := b }
  | "reflink" => feature fun f b => { f with reflink := b }
  | "inobtcount" => feature fun f b => { f with inobtcount := b }
  | "bigtime" => feature fun f b => { f with bigtime := b }
  | _ => refused

/-- The parameters that the options ask for, and the UUID. -/
def Cli.params (cli : Cli) : Except CliError (Params × Option Uuid) := do
  let p ← (subopts cli.block).foldlM blockOption {}
  let p ← (subopts cli.sector).foldlM sectorOption p
  let p ← (subopts cli.data).foldlM dataOption p
  let p ← (subopts cli.inode).foldlM inodeOption p
  let (p, uuid) ← (subopts cli.metadata).foldlM (metadataOption parseUuid) (p, none)
  return ({ p with label := cli.label }, uuid)

end Metadata

example : subopts ["size=4k,,crc", "a=b=c"] =
    [("size", "4k"), ("crc", "1"), ("a", "b=c")] := by decide

/-! ### What a size stands for -/

/-- A way to write a size: decimal digits with or without a plus before them, with or without a
binary suffix of either case, and blanks around them. -/
structure Spelling where
  lead : List Char
  sign : List Char
  digits : List Char
  suffix : List Char
  trail : List Char
  shift : ℕ
  lead_blank : ∀ c ∈ lead, isWhitespace c
  sign_eq : sign = [] ∨ sign = ['+']
  digits_ne : digits ≠ []
  isDigit : ∀ c ∈ digits, c.isDigit
  suffix_eq : (suffix = [] ∧ shift = 0) ∨ ∃ c, suffix = [c] ∧ suffixShift c.toLower = some shift
  trail_blank : ∀ c ∈ trail, isWhitespace c

namespace Spelling

/-- What is written. -/
def text (sp : Spelling) : List Char := sp.lead ++ (sp.sign ++ sp.digits ++ sp.suffix) ++ sp.trail

/-- The number it stands for. -/
def number (sp : Spelling) : ℕ := value sp.digits * 2 ^ sp.shift

end Spelling

/-- The text stands for the number. -/
def Denotes (s : String) (n : ℕ) : Prop := ∃ sp : Spelling, s.toList = sp.text ∧ n = sp.number

section Sizes

variable {c d : Char} {l m : List Char} {shift : ℕ}

/-- The characters of a number. -/
def isNumeral (c : Char) : Bool := c.isDigit || c = '+'

lemma val_of_isNumeral (h : isNumeral c) : c.toNat = 43 ∨ 48 ≤ c.toNat ∧ c.toNat ≤ 57 := by
  rw [isNumeral, Bool.or_eq_true, Char.isDigit, Bool.and_eq_true, decide_eq_true_eq,
    decide_eq_true_eq, decide_eq_true_eq] at h
  rcases h with ⟨hlo, hhi⟩ | rfl
  · exact .inr ⟨UInt32.le_iff_toNat_le.mp hlo, UInt32.le_iff_toNat_le.mp hhi⟩
  · exact .inl rfl

lemma toLower_of_not_capital (h : ¬ (c.val ≥ 'A'.val ∧ c.val ≤ 'Z'.val)) : c.toLower = c :=
  dif_neg h

lemma val_toLower (h : c.val ≥ 'A'.val ∧ c.val ≤ 'Z'.val) :
    c.toLower.val = c.val + ('a'.val - 'A'.val) :=
  congrArg Char.val (dif_pos h)

/-- A capital's small letter is none of them. -/
lemma toLower_eq_of_isNumeral (h : isNumeral c.toLower) : c.toLower = c := by
  have hval := val_of_isNumeral h
  by_cases hcap : c.val ≥ 'A'.val ∧ c.val ≤ 'Z'.val
  · have hlo : 65 ≤ c.val.toNat := UInt32.le_iff_toNat_le.mp hcap.1
    have hhi : c.val.toNat ≤ 90 := UInt32.le_iff_toNat_le.mp hcap.2
    have hsum : (c.val + ('a'.val - 'A'.val)).toNat = c.val.toNat + 32 := by
      rw [UInt32.toNat_add]
      have h32 : ('a'.val - 'A'.val).toNat = 32 := by decide
      omega
    rw [Char.toNat, val_toLower hcap] at hval
    omega
  · exact toLower_of_not_capital hcap

lemma map_toLower_of_isNumeral (h : ∀ c ∈ l.map Char.toLower, isNumeral c) :
    l.map Char.toLower = l := by
  induction l with
  | nil => rfl
  | cons c l ih =>
      rw [List.map_cons, List.forall_mem_cons] at h
      rw [List.map_cons, ih h.2, toLower_eq_of_isNumeral h.1]

lemma map_toLower_numeral (h : ∀ c ∈ l, isNumeral c) : l.map Char.toLower = l := by
  refine (List.map_congr_left fun c hc => ?_).trans (List.map_id l)
  have hval := val_of_isNumeral (h c hc)
  have hcap : ¬ (c.val ≥ 'A'.val ∧ c.val ≤ 'Z'.val) := fun hcap => by
    have hlo : 65 ≤ c.toNat := UInt32.le_iff_toNat_le.mp hcap.1
    omega
  exact toLower_of_not_capital hcap

/-- Neither a numeral nor a suffix is a blank. -/
lemma not_isWhitespace_of_isNumeral (h : isNumeral c) : ¬ isWhitespace c := by
  have hval := val_of_isNumeral h
  rw [isWhitespace, decide_eq_true_eq]
  simp [List.mem_range'_1]
  omega

lemma suffix_cases (h : suffixShift d = some shift) : d ∈ ['k', 'm', 'g', 't', 'p'] := by
  rw [suffixShift.eq_def] at h
  split at h
  · decide
  · decide
  · decide
  · decide
  · decide
  · cases h

lemma not_isWhitespace_of_suffix (h : suffixShift c.toLower = some shift) : ¬ isWhitespace c := by
  intro hblank
  rw [isWhitespace, decide_eq_true_eq] at hblank
  have hcap : ¬ (c.val ≥ 'A'.val ∧ c.val ≤ 'Z'.val) := fun hcap => by
    have hlo : 65 ≤ c.toNat := UInt32.le_iff_toNat_le.mp hcap.1
    have hhi : c.toNat ≤ 90 := UInt32.le_iff_toNat_le.mp hcap.2
    simp [List.mem_range'_1] at hblank
    omega
  rw [toLower_of_not_capital hcap] at h
  have hmem := suffix_cases h
  simp only [List.mem_cons, List.not_mem_nil, or_false] at hmem
  rcases hmem with rfl | rfl | rfl | rfl | rfl <;> exact absurd hblank (by decide)

lemma suffixShift_of_isNumeral (h : isNumeral c) : suffixShift c = none := by
  cases hs : suffixShift c with
  | none => rfl
  | some shift =>
      have hmem := suffix_cases hs
      simp only [List.mem_cons, List.not_mem_nil, or_false] at hmem
      rcases hmem with rfl | rfl | rfl | rfl | rfl <;> exact absurd h (by decide)

/-- A size is read when its number is and is not too large for its suffix. -/
lemma parseSize_eq {s : String} {n : UInt64} : parseSize s = .ok n ↔
    ∃ k, parse (2 ^ 64) (splitSuffix ((trim isWhitespace s.toList).map Char.toLower)).1 = .ok k ∧
      n.toNat = k * 2 ^ (splitSuffix ((trim isWhitespace s.toList).map Char.toLower)).2 := by
  have hn := n.toNat_lt
  rw [parseSize]
  dsimp only
  cases hk : parse (2 ^ 64) (splitSuffix ((trim isWhitespace s.toList).map Char.toLower)).1 with
  | error cause => simp
  | ok k =>
      simp only [Except.ok.injEq, exists_eq_left']
      split_ifs with hlt
      · rw [Except.ok.injEq, ← UInt64.toNat_inj, UInt64.toNat_ofNat']
        omega
      · constructor
        · rintro ⟨⟩
        · intro h
          omega

/-- Small letters with a suffix, or without. -/
lemma splitSuffix_append {suffix : List Char} (hne : l ≠ []) (hl : ∀ c ∈ l, isNumeral c)
    (h : (suffix = [] ∧ shift = 0) ∨ ∃ c, suffix = [c] ∧ suffixShift c = some shift) :
    splitSuffix (l ++ suffix) = (l, shift) := by
  rcases h with ⟨rfl, rfl⟩ | ⟨c, rfl, hc⟩
  · have hlast : l.getLast?.bind suffixShift = none := by
      rw [List.getLast?_eq_some_getLast hne]
      exact suffixShift_of_isNumeral (hl _ (List.getLast_mem hne))
    rw [List.append_nil, splitSuffix, hlast]
  · have hlast : (l ++ [c]).getLast?.bind suffixShift = some shift := by
      rw [List.getLast?_concat]
      exact hc
    rw [splitSuffix, hlast, List.dropLast_concat]

/-- The number and its suffix make the size. -/
lemma exists_of_splitSuffix (s : List Char) : ∃ suffix, s = (splitSuffix s).1 ++ suffix ∧
    ((suffix = [] ∧ (splitSuffix s).2 = 0) ∨
      ∃ c, suffix = [c] ∧ suffixShift c = some (splitSuffix s).2) := by
  rw [splitSuffix]
  cases hlast : s.getLast?.bind suffixShift with
  | none => exact ⟨[], (List.append_nil s).symm, .inl ⟨rfl, rfl⟩⟩
  | some shift =>
      obtain ⟨c, hc, hshift⟩ := Option.bind_eq_some_iff.mp hlast
      exact ⟨[c], (List.dropLast_append_getLast? c hc).symm, .inr ⟨c, rfl, hshift⟩⟩

lemma Spelling.numeral (sp : Spelling) : ∀ c ∈ sp.sign ++ sp.digits, isNumeral c := by
  intro c hc
  rcases List.mem_append.mp hc with hsign | hdigit
  · rcases sp.sign_eq with hnil | hplus
    · rw [hnil] at hsign
      cases hsign
    · rw [hplus, List.mem_singleton] at hsign
      rw [hsign]
      rfl
  · rw [isNumeral, sp.isDigit c hdigit, Bool.true_or]

/-- A size is taken apart as it is written. -/
lemma Spelling.split (sp : Spelling) :
    splitSuffix ((trim isWhitespace sp.text).map Char.toLower)
      = (sp.sign ++ sp.digits, sp.shift) := by
  have hne : sp.sign ++ sp.digits ≠ [] := by simp [sp.digits_ne]
  have hbody : sp.sign ++ sp.digits ++ sp.suffix ≠ [] := by simp [sp.digits_ne]
  have htrim : trim isWhitespace sp.text = sp.sign ++ sp.digits ++ sp.suffix := by
    refine trim_append sp.lead_blank sp.trail_blank hbody ?_ ?_
    · rw [List.head_append_of_ne_nil hne]
      exact not_isWhitespace_of_isNumeral (sp.numeral _ (List.head_mem hne))
    · rcases sp.suffix_eq with ⟨hnil, -⟩ | ⟨c, hc, hshift⟩
      · simp only [hnil, List.append_nil]
        exact not_isWhitespace_of_isNumeral (sp.numeral _ (List.getLast_mem hne))
      · simp only [hc, List.getLast_concat]
        exact not_isWhitespace_of_suffix hshift
  rw [htrim, List.map_append, map_toLower_numeral sp.numeral]
  refine splitSuffix_append hne sp.numeral ?_
  rcases sp.suffix_eq with ⟨hnil, hzero⟩ | ⟨c, hc, hshift⟩
  · exact .inl ⟨by rw [hnil, List.map_nil], hzero⟩
  · exact .inr ⟨c.toLower, by rw [hc, List.map_singleton], hshift⟩

/-- **A size is read as the number it stands for, or not at all.** -/
theorem parseSize_eq_ok {s : String} {n : UInt64} :
    parseSize s = .ok n ↔ Denotes s n.toNat := by
  have hn := n.toNat_lt
  rw [parseSize_eq]
  constructor
  · rintro ⟨k, hparse, hnum⟩
    obtain ⟨sign, digits, hsplit, hsign, hne, hdigits, rfl, -⟩ :=
      (parse_eq_ok (by norm_num)).mp hparse
    obtain ⟨lead, trail, htext, hlead, htrail⟩ := @exists_of_trim _ isWhitespace s.toList
    obtain ⟨suffix, hmap, hsuffix⟩ :=
      exists_of_splitSuffix ((trim isWhitespace s.toList).map Char.toLower)
    obtain ⟨l, m, hcore, hl, hm⟩ := List.map_eq_append_iff.mp hmap
    -- The number has no letters, so it is as it was written.
    have hnumeral : ∀ c ∈ sign ++ digits, isNumeral c := by
      intro c hc
      rcases List.mem_append.mp hc with hmem | hmem
      · rcases hsign with rfl | rfl
        · cases hmem
        · rw [List.mem_singleton.mp hmem]
          rfl
      · rw [isNumeral, hdigits c hmem, Bool.true_or]
    rw [hsplit] at hl
    have hsame : l = sign ++ digits := by
      rw [← hl] at hnumeral
      rw [← map_toLower_of_isNumeral hnumeral, hl]
    refine ⟨⟨lead, sign, digits, m, trail, _, hlead, hsign, hne, hdigits, ?_, htrail⟩, ?_, hnum⟩
    · rcases hsuffix with ⟨rfl, hzero⟩ | ⟨c, rfl, hshift⟩
      · exact .inl ⟨List.map_eq_nil_iff.mp hm, hzero⟩
      · obtain ⟨c', rfl, rfl⟩ := List.map_eq_singleton_iff.mp hm
        exact .inr ⟨c', rfl, hshift⟩
    · rw [Spelling.text, ← hsame, ← hcore]
      exact htext
  · rintro ⟨sp, htext, hnum⟩
    rw [htext, sp.split]
    refine ⟨value sp.digits, (parse_eq_ok (by norm_num)).mpr
      ⟨sp.sign, sp.digits, rfl, sp.sign_eq, sp.digits_ne, sp.isDigit, rfl, ?_⟩, hnum⟩
    have hle : value sp.digits ≤ value sp.digits * 2 ^ sp.shift :=
      Nat.le_mul_of_pos_right _ (by positivity)
    rw [Spelling.number] at hnum
    omega

end Sizes

/-! ### The numbers that were written -/

/-- The field is the number written by the last sub-option that sets it, and every one that sets
it fits its width. -/
structure FieldExact (list : List String) (key : String) (width : ℕ) (field : Option ℕ) : Prop where
  fits : ∀ v, (key, v) ∈ subopts list → ∃ n < 2 ^ width, Denotes v n
  last : match Settings.last (subopts list) key with
    | none => field = none
    | some v => ∃ n, field = some n ∧ Denotes v n

/-- No number is altered. -/
structure Cli.Exact (cli : Cli) (p : Params) : Prop where
  blockSize : FieldExact cli.block "size" 32 (p.blockSize.map UInt32.toNat)
  sectorSize : FieldExact cli.sector "size" 32 (p.sectorSize.map UInt32.toNat)
  inodeSize : FieldExact cli.inode "size" 32 (p.inodeSize.map UInt32.toNat)
  size : FieldExact cli.data "size" 64 (p.size.map UInt64.toNat)
  agsize : FieldExact cli.data "agsize" 64 (p.agsize.map UInt64.toNat)

/-- The field is what the last sub-option that sets it is read as. -/
structure FieldRead {β : Type} (list : List String) (key : String) (narrow : UInt64 → β)
    (field : Option β) : Prop where
  reads : ∀ v, (key, v) ∈ subopts list → ∃ c, parseSize v = .ok c
  last : match Settings.last (subopts list) key with
    | none => field = none
    | some v => ∃ c, parseSize v = .ok c ∧ field = some (narrow c)

section Fields

variable {list : List String} {key : String} {β : Type} {narrow : UInt64 → β} {field : Option β}
  {p p' : Params} {kv : String × String}

/-- A field into which every number fits is exact. -/
lemma FieldRead.exact {width : ℕ} {toNat : β → ℕ} (h : FieldRead list key narrow field)
    (hwidth : width ≤ 64) (hfit : ∀ v, (key, v) ∈ subopts list → ∃ n < 2 ^ width, Denotes v n)
    (hnarrow : ∀ c : UInt64, c.toNat < 2 ^ width → toNat (narrow c) = c.toNat) :
    FieldExact list key width (field.map toNat) := by
  refine ⟨hfit, ?_⟩
  have hlast := h.last
  cases hl : Settings.last (subopts list) key with
  | none =>
      rw [hl] at hlast
      exact congrArg (Option.map toNat) hlast
  | some v =>
      rw [hl] at hlast
      obtain ⟨c, hc, hfield⟩ := hlast
      obtain ⟨n, hn, hden⟩ := hfit v (Settings.mem_of_last hl)
      have hlt : n < 2 ^ 64 := hn.trans_le (Nat.pow_le_pow_right (by norm_num) hwidth)
      have hsame : (UInt64.ofNat n).toNat = n := UInt64.toNat_ofNat_of_lt' hlt
      have hread : parseSize v = .ok (UInt64.ofNat n) := parseSize_eq_ok.mpr (by rwa [hsame])
      obtain rfl : c = UInt64.ofNat n := Except.ok.inj (hc.symm.trans hread)
      refine ⟨n, ?_, hden⟩
      rw [hfield, Option.map_some, hnarrow _ (by rwa [hsame]), hsame]

/-- Every number that is read fits 64 bits. -/
lemma FieldRead.fits (h : FieldRead list key narrow field) :
    ∀ v, (key, v) ∈ subopts list → ∃ n < 2 ^ 64, Denotes v n := by
  intro v hv
  obtain ⟨c, hc⟩ := h.reads v hv
  exact ⟨c.toNat, c.toNat_lt, parseSize_eq_ok.mp hc⟩

end Fields

section Loops

variable {v : String} {p p' : Params} {kv : String × String} {f : UInt64 → Params}

/-- A sub-option that is set, when what comes first succeeds. -/
lemma option_eq_ok {α β : Type} {x : Except CliError α} {f : α → Except CliError β} {b : β} :
    (x >>= f) = .ok b ↔ ∃ a, x = .ok a ∧ f a = .ok b := by
  cases x with
  | error e => exact ⟨fun h => (by cases h), fun ⟨a, ha, _⟩ => (by cases ha)⟩
  | ok a =>
      constructor
      · exact fun h => ⟨a, rfl, h⟩
      · rintro ⟨_, ⟨⟩, h⟩
        exact h

lemma stored (h : (parseSize v >>= fun n => Except.ok (f n)) = Except.ok p') :
    ∃ c, parseSize v = .ok c ∧ p' = f c := by
  obtain ⟨c, hc, h⟩ := option_eq_ok.mp h
  exact ⟨c, hc, (Except.ok.inj h).symm⟩

/-- `-b` sets the block size. -/
lemma blockOption_eq_ok (h : blockOption p kv = .ok p') :
    kv.1 = "size" ∧ ∃ c, parseSize kv.2 = .ok c ∧ p' = { p with blockSize := some c.toUInt32 } := by
  rw [blockOption.eq_def] at h
  split at h
  · exact ⟨by assumption, stored h⟩
  · cases h

/-- `-s` sets the sector size. -/
lemma sectorOption_eq_ok (h : sectorOption p kv = .ok p') :
    kv.1 = "size" ∧ ∃ c, parseSize kv.2 = .ok c ∧ p' = { p with sectorSize := some c.toUInt32 } := by
  rw [sectorOption.eq_def] at h
  split at h
  · exact ⟨by assumption, stored h⟩
  · cases h

/-- `-d` sets the size and the numbers of the AGs. -/
lemma dataOption_eq_ok (h : dataOption p kv = .ok p') :
    (kv.1 = "size" ∧ ∃ c, parseSize kv.2 = .ok c ∧ p' = { p with size := some c }) ∨
      (kv.1 = "agcount" ∧ ∃ c, p' = { p with agcount := c }) ∨
      kv.1 = "agsize" ∧ ∃ c, parseSize kv.2 = .ok c ∧ p' = { p with agsize := some c } := by
  rw [dataOption.eq_def] at h
  split at h
  · exact .inl ⟨by assumption, stored h⟩
  · obtain ⟨n, -, h⟩ := option_eq_ok.mp h
    exact .inr (.inl ⟨by assumption, _, (Except.ok.inj h).symm⟩)
  · exact .inr (.inr ⟨by assumption, stored h⟩)
  · cases h

/-- `-i` sets the inode size, the percentage and two features. -/
lemma inodeOption_eq_ok (h : inodeOption p kv = .ok p') :
    (kv.1 = "size" ∧ ∃ c, parseSize kv.2 = .ok c ∧ p' = { p with inodeSize := some c.toUInt32 }) ∨
      kv.1 ≠ "size" ∧ ∃ pct features, p' = { p with imaxpct := pct, features := features } := by
  rw [inodeOption.eq_def] at h
  split at h
  · exact .inl ⟨by assumption, stored h⟩
  · rename_i hkey
    obtain ⟨n, -, h⟩ := option_eq_ok.mp h
    exact .inr ⟨by rw [hkey]; decide, _, p.features, (Except.ok.inj h).symm⟩
  · rename_i hkey
    obtain ⟨b, -, h⟩ := option_eq_ok.mp h
    exact .inr ⟨by rw [hkey]; decide, p.imaxpct, _, (Except.ok.inj h).symm⟩
  · rename_i hkey
    obtain ⟨b, -, h⟩ := option_eq_ok.mp h
    exact .inr ⟨by rw [hkey]; decide, p.imaxpct, _, (Except.ok.inj h).symm⟩
  · cases h

/-- `-m` sets features and the UUID. -/
lemma metadataOption_eq_ok {parseUuid : String → Option Uuid} {q q' : Params × Option Uuid}
    (h : metadataOption parseUuid q kv = .ok q') :
    ∃ features, q'.1 = { q.1 with features := features } := by
  have hfeature : ∀ set : Bool → Features,
      (parseBool kv.2 >>= fun b => Except.ok ({ q.1 with features := set b }, q.2))
        = Except.ok q' → ∃ features, q'.1 = { q.1 with features := features } := by
    intro set hset
    obtain ⟨b, -, hset⟩ := option_eq_ok.mp hset
    rw [← Except.ok.inj hset]
    exact ⟨_, rfl⟩
  rw [metadataOption.eq_def] at h
  dsimp only at h
  split at h
  · split at h
    · rw [← Except.ok.inj h]
      exact ⟨q.1.features, rfl⟩
    · cases h
  · split_ifs at h
    rw [← Except.ok.inj h]
    exact ⟨q.1.features, rfl⟩
  · exact hfeature _ h
  · exact hfeature _ h
  · exact hfeature _ h
  · exact hfeature _ h
  · exact hfeature _ h
  · cases h

/-- A loop of options that stores a size stores the last one. -/
lemma fieldRead_of_foldlM {β : Type} {list : List String} {key : String} {narrow : UInt64 → β}
    {step : Params → String × String → Except CliError Params} (get : Params → Option β)
    (hset : ∀ q v q', step q (key, v) = .ok q' →
      ∃ c, parseSize v = .ok c ∧ get q' = some (narrow c))
    (hkeep : ∀ q kv q', kv.1 ≠ key → step q kv = .ok q' → get q' = get q)
    (hstart : get p = none) (h : (subopts list).foldlM step p = .ok p') :
    FieldRead list key narrow (get p') := by
  obtain ⟨hreads, hlast⟩ := Settings.foldlM_last get (some ∘ narrow) hset hkeep h
  refine ⟨hreads, ?_⟩
  cases hl : Settings.last (subopts list) key with
  | none =>
      rw [hl] at hlast
      exact hlast.trans hstart
  | some v =>
      rw [hl] at hlast
      exact hlast

/-- `-b`. -/
lemma blockOption_last {list : List String} (hstart : p.blockSize = none)
    (h : (subopts list).foldlM blockOption p = .ok p') :
    FieldRead list "size" UInt64.toUInt32 p'.blockSize := by
  refine fieldRead_of_foldlM (·.blockSize) (fun q v q' hq => ?_) (fun q kv q' hne hq => ?_)
    hstart h
  · obtain ⟨-, c, hc, rfl⟩ := blockOption_eq_ok hq
    exact ⟨c, hc, rfl⟩
  · exact absurd (blockOption_eq_ok hq).1 hne

/-- `-s`. -/
lemma sectorOption_last {list : List String} (hstart : p.sectorSize = none)
    (h : (subopts list).foldlM sectorOption p = .ok p') :
    FieldRead list "size" UInt64.toUInt32 p'.sectorSize := by
  refine fieldRead_of_foldlM (·.sectorSize) (fun q v q' hq => ?_) (fun q kv q' hne hq => ?_)
    hstart h
  · obtain ⟨-, c, hc, rfl⟩ := sectorOption_eq_ok hq
    exact ⟨c, hc, rfl⟩
  · exact absurd (sectorOption_eq_ok hq).1 hne

/-- `-i`. -/
lemma inodeOption_last {list : List String} (hstart : p.inodeSize = none)
    (h : (subopts list).foldlM inodeOption p = .ok p') :
    FieldRead list "size" UInt64.toUInt32 p'.inodeSize := by
  refine fieldRead_of_foldlM (·.inodeSize) (fun q v q' hq => ?_) (fun q kv q' hne hq => ?_)
    hstart h
  · rcases inodeOption_eq_ok hq with ⟨-, c, hc, rfl⟩ | ⟨hne, -⟩
    · exact ⟨c, hc, rfl⟩
    · exact absurd rfl hne
  · rcases inodeOption_eq_ok hq with ⟨hkey, -⟩ | ⟨-, pct, features, rfl⟩
    · exact absurd hkey hne
    · rfl

/-- `-d`. -/
lemma dataOption_last {list : List String} (hsize : p.size = none) (hagsize : p.agsize = none)
    (h : (subopts list).foldlM dataOption p = .ok p') :
    FieldRead list "size" id p'.size ∧ FieldRead list "agsize" id p'.agsize := by
  constructor
  · refine fieldRead_of_foldlM (·.size) (fun q v q' hq => ?_) (fun q kv q' hne hq => ?_) hsize h
    · rcases dataOption_eq_ok hq with ⟨-, c, hc, rfl⟩ | ⟨hkey, -⟩ | ⟨hkey, -⟩
      · exact ⟨c, hc, rfl⟩
      · exact absurd hkey (by decide : "size" ≠ "agcount")
      · exact absurd hkey (by decide : "size" ≠ "agsize")
    · rcases dataOption_eq_ok hq with ⟨hkey, -⟩ | ⟨-, c, rfl⟩ | ⟨-, c, -, rfl⟩
      · exact absurd hkey hne
      · rfl
      · rfl
  · refine fieldRead_of_foldlM (·.agsize) (fun q v q' hq => ?_) (fun q kv q' hne hq => ?_) hagsize h
    · rcases dataOption_eq_ok hq with ⟨hkey, -⟩ | ⟨hkey, -⟩ | ⟨-, c, hc, rfl⟩
      · exact absurd hkey (by decide : "agsize" ≠ "size")
      · exact absurd hkey (by decide : "agsize" ≠ "agcount")
      · exact ⟨c, hc, rfl⟩
    · rcases dataOption_eq_ok hq with ⟨-, c, -, rfl⟩ | ⟨-, c, rfl⟩ | ⟨hkey, -⟩
      · rfl
      · rfl
      · exact absurd hkey hne

/-- **What the five loops of options store**: each its own sizes, and nothing else of them. -/
lemma Cli.params_reads {parseUuid : String → Option Uuid} {cli : Cli} {uuid : Option Uuid}
    (h : cli.params parseUuid = .ok (p, uuid)) :
    FieldRead cli.block "size" UInt64.toUInt32 p.blockSize ∧
      FieldRead cli.sector "size" UInt64.toUInt32 p.sectorSize ∧
      FieldRead cli.inode "size" UInt64.toUInt32 p.inodeSize ∧
      FieldRead cli.data "size" id p.size ∧ FieldRead cli.data "agsize" id p.agsize := by
  rw [Cli.params] at h
  obtain ⟨p₁, hblock, h⟩ := option_eq_ok.mp h
  obtain ⟨p₂, hsector, h⟩ := option_eq_ok.mp h
  obtain ⟨p₃, hdata, h⟩ := option_eq_ok.mp h
  obtain ⟨p₄, hinode, h⟩ := option_eq_ok.mp h
  obtain ⟨⟨p₅, uuid'⟩, hmeta, h⟩ := option_eq_ok.mp h
  obtain ⟨rfl, -⟩ := Prod.mk.inj (Except.ok.inj h)
  -- What each loop leaves alone.
  have hb := Settings.foldlM_keeps
    (fun q : Params => (q.sectorSize, q.inodeSize, q.size, q.agsize)) (fun q kv q' hq => by
      obtain ⟨-, c, -, rfl⟩ := blockOption_eq_ok hq
      rfl) hblock
  have hs := Settings.foldlM_keeps
    (fun q : Params => (q.blockSize, q.inodeSize, q.size, q.agsize)) (fun q kv q' hq => by
      obtain ⟨-, c, -, rfl⟩ := sectorOption_eq_ok hq
      rfl) hsector
  have hd := Settings.foldlM_keeps
    (fun q : Params => (q.blockSize, q.sectorSize, q.inodeSize)) (fun q kv q' hq => by
      rcases dataOption_eq_ok hq with ⟨-, c, -, rfl⟩ | ⟨-, c, rfl⟩ | ⟨-, c, -, rfl⟩ <;> rfl) hdata
  have hi := Settings.foldlM_keeps
    (fun q : Params => (q.blockSize, q.sectorSize, q.size, q.agsize)) (fun q kv q' hq => by
      rcases inodeOption_eq_ok hq with ⟨-, c, -, rfl⟩ | ⟨-, pct, features, rfl⟩ <;> rfl) hinode
  have hm := Settings.foldlM_keeps (fun q : Params × Option Uuid =>
    (q.1.blockSize, q.1.sectorSize, q.1.inodeSize, q.1.size, q.1.agsize)) (fun q kv q' hq => by
      obtain ⟨features, hq'⟩ := metadataOption_eq_ok hq
      rw [hq']) hmeta
  simp only [Prod.mk.injEq] at hb hs hd hi hm
  obtain ⟨hb₁, hb₂, hb₃, hb₄⟩ := hb
  obtain ⟨hs₁, hs₂, hs₃, hs₄⟩ := hs
  obtain ⟨hd₁, hd₂, hd₃⟩ := hd
  obtain ⟨hi₁, hi₂, hi₃, hi₄⟩ := hi
  obtain ⟨hm₁, hm₂, hm₃, hm₄, hm₅⟩ := hm
  obtain ⟨hsize, hagsize⟩ := dataOption_last (hs₃.trans hb₃) (hs₄.trans hb₄) hdata
  refine ⟨?_, ?_, ?_, ?_, ?_⟩
  · rw [hm₁, hi₁, hd₁, hs₁]
    exact blockOption_last rfl hblock
  · rw [hm₂, hi₂, hd₂]
    exact sectorOption_last hb₁ hsector
  · rw [hm₃]
    exact inodeOption_last (hd₃.trans (hs₂.trans hb₂)) hinode
  · rw [hm₄, hi₃]
    exact hsize
  · rw [hm₅, hi₄]
    exact hagsize

end Loops

/-- **The parser alters no number exactly when every block, sector and inode size is below
`2^32`**: sizes are read in 64 bits, and these three are cut to 32. -/
theorem params_exact_iff (parseUuid : String → Option Uuid) (cli : Cli) (p : Params)
    (uuid : Option Uuid) (h : cli.params parseUuid = .ok (p, uuid)) :
    cli.Exact p ↔ ∀ list ∈ [cli.block, cli.sector, cli.inode], ∀ v,
      ("size", v) ∈ subopts list → ∃ n < 2 ^ 32, Denotes v n := by
  obtain ⟨hblock, hsector, hinode, hsize, hagsize⟩ := Cli.params_reads h
  have hnarrow : ∀ c : UInt64, c.toNat < 2 ^ 32 → c.toUInt32.toNat = c.toNat := fun c hc => by
    rw [UInt64.toNat_toUInt32, Nat.mod_eq_of_lt hc]
  constructor
  · intro hexact list hlist
    simp only [List.mem_cons, List.not_mem_nil, or_false] at hlist
    rcases hlist with rfl | rfl | rfl
    · exact hexact.blockSize.fits
    · exact hexact.sectorSize.fits
    · exact hexact.inodeSize.fits
  · intro hfit
    exact
      { blockSize := hblock.exact (by norm_num) (hfit _ (by simp)) hnarrow
        sectorSize := hsector.exact (by norm_num) (hfit _ (by simp)) hnarrow
        inodeSize := hinode.exact (by norm_num) (hfit _ (by simp)) hnarrow
        size := hsize.exact le_rfl hsize.fits fun _ _ => rfl
        agsize := hagsize.exact le_rfl hagsize.fits fun _ _ => rfl }

/-- The block size is the last one, with its suffix. -/
theorem params_exact_4k : ({ block := ["size=64k,size=+4K"] } : Cli).Exact
    { blockSize := some 4096 } := by
  have h4k : Denotes "+4K" 4096 := (@parseSize_eq_ok "+4K" 4096).mp (by decide)
  have h64k : Denotes "64k" 65536 := (@parseSize_eq_ok "64k" 65536).mp (by decide)
  have hsub : subopts ["size=64k,size=+4K"] = [("size", "64k"), ("size", "+4K")] := by decide
  refine (params_exact_iff (fun _ => none) { block := ["size=64k,size=+4K"] } _ none
    (by decide)).mpr ?_
  intro list hlist v hv
  simp only [List.mem_cons, List.not_mem_nil, or_false] at hlist
  rcases hlist with rfl | rfl | rfl
  · rw [hsub] at hv
    simp only [List.mem_cons, List.not_mem_nil, or_false, Prod.mk.injEq, true_and] at hv
    rcases hv with rfl | rfl
    · exact ⟨65536, by norm_num, h64k⟩
    · exact ⟨4096, by norm_num, h4k⟩
  · cases hv
  · cases hv

/-- A block size of `2^32 + 4096` is taken as one of 4096. -/
theorem params_not_exact : ¬ ∀ (parseUuid : String → Option Uuid) (cli : Cli) (p : Params)
    (uuid : Option Uuid), cli.params parseUuid = .ok (p, uuid) → cli.Exact p := by
  intro h
  have hexact := h (fun _ => none) { block := ["size=4294971392"] } { blockSize := some 4096 }
    none (by decide)
  obtain ⟨n, hn, hden⟩ := hexact.blockSize.fits "4294971392" (by decide)
  have hread : parseSize "4294971392" = .ok (UInt64.ofNat n) := by
    refine parseSize_eq_ok.mpr ?_
    rwa [UInt64.toNat_ofNat_of_lt' (hn.trans (by norm_num))]
  have hvalue : parseSize "4294971392" = .ok 4294971392 := by decide
  have hsame := congrArg UInt64.toNat (Except.ok.inj (hread.symm.trans hvalue))
  rw [UInt64.toNat_ofNat_of_lt' (hn.trans (by norm_num))] at hsame
  have hlarge : (4294971392 : UInt64).toNat = 4294971392 := rfl
  omega

end MkfsXfs
