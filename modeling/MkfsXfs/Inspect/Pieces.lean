import MkfsXfs.Inspect.Compare
import MkfsXfs.Lib.Render

/-!
What the fields of a dump tell about the bytes they are read from.

* `Column`, `Alike`: a field of every structure of a kind, and dumps without a structural
  difference.  `alike_iff`: every structural column shows the same of both.
* `Piece`, `Piece.Exact`: a column that is told by its bytes, and tells them.
* `piecesOf_exact`, `trimmed_exact`, `projid_exact`, `slots_exact`: numbers, runs of bytes, the
  project id and the slots of an AGFL.
* `Covers`, `pieces_agree_iff`: pieces that cover a structure tell all of it.
-/

namespace MkfsXfs.Inspect

open Render

/-! ### Columns -/

/-- A field that the dump of every structure of a kind has. -/
structure Column where
  key : String
  judged : Class
  render : Buf → String

/-- The field of one structure. -/
def Column.entry (c : Column) (b : Buf) : Entry := ⟨c.key, c.render b, c.judged⟩

/-- No structural difference between two dumps. -/
def Alike (a b : Dump) : Prop := structural (diff a b) = []

section Columns

variable {cs : List Column} {a b : Buf}

lemma keys_map_entry : (cs.map (Column.entry · b)).map Entry.key = cs.map Column.key := by
  rw [List.map_map]
  rfl

/-- The field of a column. -/
lemma get_map_entry {c : Column} (hcs : (cs.map Column.key).Nodup) (hc : c ∈ cs) :
    Dump.get (cs.map (Column.entry · b)) c.key = some (c.render b) := by
  rw [get_eq_some_iff (by rwa [keys_map_entry]), List.map_map]
  exact List.mem_map.mpr ⟨c, hc, rfl⟩

/-- **Two structures are alike when every structural column shows the same of both.** -/
theorem alike_iff (hcs : (cs.map Column.key).Nodup) :
    Alike (cs.map (Column.entry · a)) (cs.map (Column.entry · b)) ↔
      ∀ c ∈ cs, c.judged = .structural → c.render a = c.render b := by
  have ha : ((cs.map (Column.entry · a)).map Entry.key).Nodup := by rwa [keys_map_entry]
  have hb : ((cs.map (Column.entry · b)).map Entry.key).Nodup := by rwa [keys_map_entry]
  have hjudged : ∀ e ∈ cs.map (Column.entry · a), ∀ f ∈ cs.map (Column.entry · b),
      e.key = f.key → e.judged = f.judged := by
    intro e he f hf hkey
    obtain ⟨c, hc, rfl⟩ := List.mem_map.mp he
    obtain ⟨c', hc', rfl⟩ := List.mem_map.mp hf
    rw [List.inj_on_of_nodup_map hcs hc hc' hkey]
    rfl
  rw [Alike, structural, List.filter_eq_nil_iff]
  constructor
  · intro h c hc hstruct
    by_contra hne
    have hlisted : (⟨c.key, some (c.render a), some (c.render b), .structural⟩ : Difference) ∈
        diff (cs.map (Column.entry · a)) (cs.map (Column.entry · b)) := by
      refine (mem_diff_iff_differs ha hb hjudged).mpr ⟨(get_map_entry hcs hc).symm,
        (get_map_entry hcs hc).symm, fun heq => hne (Option.some.inj heq), fun _ => rfl, ?_⟩
      intro _ _ e he hkey
      rcases List.mem_append.mp he with he | he
      · obtain ⟨c', hc', rfl⟩ := List.mem_map.mp he
        rw [← hstruct, List.inj_on_of_nodup_map hcs hc hc' hkey.symm]
        rfl
      · obtain ⟨c', hc', rfl⟩ := List.mem_map.mp he
        rw [← hstruct, List.inj_on_of_nodup_map hcs hc hc' hkey.symm]
        rfl
    exact h _ hlisted (by simp)
  · intro h d hd hstruct
    have hdiff := (mem_diff_iff_differs ha hb hjudged).mp hd
    have hkeys : ∀ {x : Buf}, Dump.get (cs.map (Column.entry · x)) d.key ≠ none →
        ∃ c ∈ cs, c.key = d.key := by
      intro x hx
      obtain ⟨v, hv⟩ := Option.ne_none_iff_exists'.mp hx
      rw [get_eq_some_iff (by rwa [keys_map_entry]), List.map_map] at hv
      obtain ⟨c, hc, heq⟩ := List.mem_map.mp hv
      exact ⟨c, hc, congrArg Prod.fst heq⟩
    obtain ⟨c, hc, hkey⟩ : ∃ c ∈ cs, c.key = d.key := by
      by_cases hours : d.ours = none
      · refine hkeys (x := b) fun hnone => hdiff.unlike ?_
        rw [hours, hdiff.theirs, hnone]
      · rw [hdiff.ours] at hours
        exact hkeys hours
    have hours : d.ours = some (c.render a) := by
      rw [hdiff.ours, ← hkey, get_map_entry hcs hc]
    have htheirs : d.theirs = some (c.render b) := by
      rw [hdiff.theirs, ← hkey, get_map_entry hcs hc]
    have hclass := hdiff.shared (by simp [hours]) (by simp [htheirs]) (c.entry a)
      (List.mem_append_left _ (List.mem_map.mpr ⟨c, hc, rfl⟩)) hkey
    refine hdiff.unlike ?_
    rw [hours, htheirs, h c hc (hclass.symm.trans (by simpa using hstruct))]

end Columns

/-! ### Pieces -/

/-- A structural field of `len` bytes at `off`. -/
structure Piece where
  name : String
  off : ℕ
  len : ℕ
  render : Buf → String

/-- The column of a piece in the structure `p`. -/
def Piece.column (p : String) (r : Piece) : Column := ⟨s!"{p}.{r.name}", .structural, r.render⟩

/-- The bytes from `lo` on, `len` of them, are the same. -/
def SameAt (lo len : ℕ) (a b : Buf) : Prop := ∀ i, lo ≤ i → i < lo + len → byteAt a i = byteAt b i

/-- The piece is told by its bytes, and tells them. -/
def Piece.Exact (n : ℕ) (r : Piece) : Prop :=
  ∀ a b : Buf, a.length = n → b.length = n → (r.render a = r.render b ↔ SameAt r.off r.len a b)

/-! #### Numbers -/

/-- The width of a number. -/
inductive Width where
  | w8
  | w16
  | w32
  | w64
  deriving DecidableEq

/-- Its bytes. -/
def Width.bytes : Width → ℕ
  | w8 => 1
  | w16 => 2
  | w32 => 4
  | w64 => 8

/-- The number at `off`. -/
def Width.read (w : Width) (b : Buf) (off : ℕ) : ℕ :=
  match w with
  | w8 => (byteAt b off).toNat
  | w16 => be16 b off
  | w32 => be32 b off
  | w64 => be64 b off

section Numbers

variable {a b : Buf} {off o lo len len' n : ℕ} {w : Width} {style : ℕ → String}

lemma sameAt_append : SameAt lo (len + len') a b ↔
    SameAt lo len a b ∧ SameAt (lo + len) len' a b := by
  constructor
  · exact fun h => ⟨fun i hl hr => h i hl (by omega), fun i hl hr => h i (by omega) (by omega)⟩
  · rintro ⟨hfront, hback⟩ i hl hr
    rcases Nat.lt_or_ge i (lo + len) with hi | hi
    · exact hfront i hl hi
    · exact hback i hi (by omega)

lemma sameAt_one : SameAt off 1 a b ↔ byteAt a off = byteAt b off := by
  constructor
  · exact fun h => h off le_rfl (by omega)
  · intro h i hl hr
    obtain rfl : i = off := by omega
    exact h

lemma be16_eq_iff : be16 a off = be16 b off ↔ SameAt off 2 a b := by
  have ha := (byteAt a (off + 1)).toNat_lt
  have hb := (byteAt b (off + 1)).toNat_lt
  have hsplit : SameAt off 2 a b ↔ SameAt off (1 + 1) a b := Iff.rfl
  rw [hsplit, sameAt_append, sameAt_one, sameAt_one, ← UInt8.toNat_inj, ← UInt8.toNat_inj,
    be16, be16]
  omega

lemma be32_eq_iff : be32 a off = be32 b off ↔ SameAt off 4 a b := by
  have ha : be16 a (off + 2) < 2 ^ 16 := be16_lt
  have hb : be16 b (off + 2) < 2 ^ 16 := be16_lt
  have hsplit : SameAt off 4 a b ↔ SameAt off (2 + 2) a b := Iff.rfl
  rw [hsplit, sameAt_append, ← be16_eq_iff, ← be16_eq_iff, be32, be32]
  omega

lemma be64_eq_iff : be64 a off = be64 b off ↔ SameAt off 8 a b := by
  have ha : be32 a (off + 4) < 2 ^ 32 := be32_lt
  have hb : be32 b (off + 4) < 2 ^ 32 := be32_lt
  have hsplit : SameAt off 8 a b ↔ SameAt off (4 + 4) a b := Iff.rfl
  rw [hsplit, sameAt_append, ← be32_eq_iff, ← be32_eq_iff, be64, be64]
  omega

/-- A number is told by its bytes, and tells them. -/
lemma Width.read_eq_iff : w.read a off = w.read b off ↔ SameAt off w.bytes a b := by
  cases w with
  | w8 =>
      have hone : SameAt off Width.w8.bytes a b ↔ SameAt off 1 a b := Iff.rfl
      rw [hone, sameAt_one, ← UInt8.toNat_inj]
      rfl
  | w16 => exact be16_eq_iff
  | w32 => exact be32_eq_iff
  | w64 => exact be64_eq_iff

/-- Numbers of one width, shown the same way. -/
def piecesOf (w : Width) (style : ℕ → String) (names : List (String × ℕ)) : List Piece :=
  names.map fun (name, off) => ⟨name, off, w.bytes, fun b => style (w.read b off)⟩

lemma piecesOf_exact (hstyle : Function.Injective style) (names : List (String × ℕ)) :
    ∀ r ∈ piecesOf w style names, r.Exact n := by
  intro r hr a b _ _
  obtain ⟨⟨name, off⟩, -, rfl⟩ := List.mem_map.mp hr
  exact hstyle.eq_iff.trans Width.read_eq_iff

lemma toString_injective : Function.Injective (toString : ℕ → String) := fun _ _ h =>
  Nat.repr_injective h

lemma digits_injective {base : ℕ} (hbase : 1 < base) (hle : base ≤ 16) :
    Function.Injective (digits base 0) := by
  intro m n h
  rw [digits, digits, Nat.zero_sub, Nat.zero_sub] at h
  exact toDigits_inj hbase hle (String.ofList_injective h)

lemma hex_injective : Function.Injective hex := by
  intro m n h
  refine digits_injective (by norm_num) le_rfl ?_
  have hlist := congrArg String.toList h
  rw [hex, hex, String.toList_append, String.toList_append] at hlist
  exact String.toList_injective (List.append_cancel_left hlist)

/-- The project id: its high half stands after the low one. -/
def projidPiece (off : ℕ) : Piece where
  name := "projid"
  off := off
  len := 4
  render b := toString (be16 b (off + 2) <<< 16 ||| be16 b off)

lemma projid_exact : (projidPiece off).Exact n := by
  intro a b _ _
  have hor : ∀ c : Buf, be16 c (off + 2) <<< 16 ||| be16 c off
      = 2 ^ 16 * be16 c (off + 2) + be16 c off := fun c => by
    rw [Nat.shiftLeft_eq, Nat.mul_comm, Nat.two_pow_add_eq_or_of_lt be16_lt]
  have ha : be16 a off < 2 ^ 16 := be16_lt
  have hb : be16 b off < 2 ^ 16 := be16_lt
  have hsplit : SameAt off 4 a b ↔ SameAt off (2 + 2) a b := Iff.rfl
  rw [projidPiece, toString_injective.eq_iff, hor, hor, hsplit, sameAt_append, ← be16_eq_iff,
    ← be16_eq_iff]
  omega

end Numbers

/-! #### Runs of bytes -/

/-- The bytes from `lo` to `hi`. -/
def trimmedPiece (name : String) (lo hi : ℕ) : Piece :=
  ⟨name, lo, hi - lo, fun b => hexTrimmed (slice b lo hi)⟩

/-- The bytes from `lo` to the end of `n`. -/
def tailPiece (name : String) (lo n : ℕ) : Piece :=
  ⟨name, lo, n - lo, fun b => hexTrimmed (b.drop lo)⟩

section Runs

variable {a b : Buf} {lo hi n : ℕ} {name : String}

/-- The value of a hexadecimal digit. -/
def hexValue (c : Char) : ℕ := if c ≤ '9' then c.toNat - '0'.toNat else c.toNat - 'a'.toNat + 10

/-- A byte in two digits. -/
lemma hexByte (x : UInt8) : (digits 16 2 x.toNat).toList.length = 2 ∧
    (digits 16 2 x.toNat).toList.foldl (fun v c => v * 16 + hexValue c) 0 = x.toNat := by
  have hall : ∀ n < 256,
      (List.replicate (2 - (Nat.toDigits 16 n).length) '0' ++ Nat.toDigits 16 n).length = 2 ∧
      (List.replicate (2 - (Nat.toDigits 16 n).length) '0' ++ Nat.toDigits 16 n).foldl
        (fun v c => v * 16 + hexValue c) 0 = n := by decide +kernel
  rw [digits, String.toList_ofList]
  exact hall _ x.toNat_lt

/-- Bytes are told by their digits. -/
lemma hexBytes_injective : Function.Injective hexBytes := by
  intro a b h
  have hlist := congrArg String.toList h
  rw [hexBytes, hexBytes, String.toList_join, String.toList_join, List.flatMap_map,
    List.flatMap_map] at hlist
  refine flatMap_inj (by norm_num : 0 < 2) (fun x => (hexByte x).1) (fun x y hxy => ?_) hlist
  have hx := (hexByte x).2
  rw [hxy, (hexByte y).2] at hx
  exact UInt8.toNat_inj.mp hx.symm

/-- Bytes without the zeros at their end are told by their digits, where their number is known. -/
lemma hexTrimmed_eq_iff (hlen : a.length = b.length) : hexTrimmed a = hexTrimmed b ↔ a = b :=
  ⟨fun h => rdropWhile_inj hlen (hexBytes_injective h), fun h => by rw [h]⟩

lemma sameAt_iff_drop_take (hlen : a.length = b.length) :
    SameAt lo (hi - lo) a b ↔ slice a lo hi = slice b lo hi := by
  constructor
  · intro h
    refine Buf.ext (by simp only [slice, List.length_take, List.length_drop, hlen]) fun i hi' => ?_
    rw [slice, List.length_take] at hi'
    rw [byteAt_slice (by omega), byteAt_slice (by omega)]
    exact h _ (by omega) (by omega)
  · intro h i hl hr
    have hi' : i - lo < hi - lo := by omega
    have hbyte := congrArg (byteAt · (i - lo)) h
    simp only [byteAt_slice hi'] at hbyte
    rwa [Nat.add_sub_cancel' hl] at hbyte

lemma trimmed_exact : (trimmedPiece name lo hi).Exact n := by
  intro a b ha hb
  rw [trimmedPiece, sameAt_iff_drop_take (ha.trans hb.symm)]
  refine hexTrimmed_eq_iff ?_
  simp only [slice, List.length_take, List.length_drop, ha, hb]

lemma tail_exact : (tailPiece name lo n).Exact n := by
  intro a b ha hb
  have hdrop : ∀ c : Buf, c.length = n → c.drop lo = slice c lo n := fun c hc => by
    rw [slice, List.take_of_length_le (by rw [List.length_drop, hc])]
  rw [tailPiece]
  dsimp only
  rw [hdrop a ha, hdrop b hb]
  exact @trimmed_exact lo n n name a b ha hb

end Runs

/-! #### The slots of an AGFL -/

/-- The slots in use, with their places. -/
def slotsPiece (n : ℕ) : Piece where
  name := "bno"
  off := Agfl.Off.bno
  len := n - Agfl.Off.bno
  render b := String.intercalate ","
    (((agflSlots b).zipIdx.filter fun r => r.1 ≠ null32).map fun (v, i) => s!"{i}:{v}")

section Slots

variable {a b : Buf} {n : ℕ}

lemma toList_slot (r : ℕ × ℕ) :
    s!"{r.2}:{r.1}".toList = Nat.toDigits 10 r.2 ++ ':' :: Nat.toDigits 10 r.1 := by
  have hslot : s!"{r.2}:{r.1}" = toString r.2 ++ ":" ++ toString r.1 := rfl
  rw [hslot, String.toList_append, String.toList_append, Nat.toString_eq_ofList_toDigits,
    Nat.toString_eq_ofList_toDigits]
  simp only [String.toList_ofList, List.append_assoc]
  rfl

lemma not_mem_toDigits {c : Char} (hc : ¬ c.isDigit) (k : ℕ) : c ∉ Nat.toDigits 10 k := fun h =>
  hc (Nat.isDigit_of_mem_toDigits (by norm_num) (by norm_num) h)

/-- A slot is told by its text. -/
lemma slot_injective : Function.Injective fun r : ℕ × ℕ => s!"{r.2}:{r.1}" := by
  intro r r' h
  have hlist := congrArg String.toList h
  rw [toList_slot, toList_slot] at hlist
  obtain ⟨hi, -, hv⟩ := (List.append_cons_inj_of_notMem (not_mem_toDigits (by decide) _)
    (not_mem_toDigits (by decide) _)).mp hlist
  exact Prod.ext (toDigits_inj (by norm_num) (by norm_num) hv)
    (toDigits_inj (by norm_num) (by norm_num) hi)

lemma slot_separable (l : List (ℕ × ℕ)) :
    ∀ s ∈ l.map (fun r => s!"{r.2}:{r.1}"), s ≠ "" ∧ ',' ∉ s.toList := by
  intro s hs
  obtain ⟨r, -, rfl⟩ := List.mem_map.mp hs
  constructor
  · intro hempty
    have hlist := congrArg String.toList hempty
    rw [toList_slot] at hlist
    simp at hlist
  · rw [toList_slot, List.mem_append, List.mem_cons, not_or, not_or]
    exact ⟨not_mem_toDigits (by decide) _, by decide, not_mem_toDigits (by decide) _⟩

/-- The slots are the bytes after the header. -/
lemma agflSlots_eq_iff (ha : a.length = n) (hb : b.length = n) (hn : 4 ∣ n) :
    agflSlots a = agflSlots b ↔ SameAt Agfl.Off.bno (n - Agfl.Off.bno) a b := by
  have hbno : Agfl.Off.bno = 36 := rfl
  rw [agflSlots, agflSlots, ha, hb, List.map_inj_left, hbno]
  constructor
  · intro h i hl hr
    have hslot := h ((i - 36) / 4) (List.mem_range.mpr (by omega))
    exact be32_eq_iff.mp hslot i (by omega) (by omega)
  · intro h k hk
    have hk' := List.mem_range.mp hk
    exact be32_eq_iff.mpr fun i hl hr => h i (by omega) (by omega)

lemma slots_exact (hn : 4 ∣ n) : (slotsPiece n).Exact n := by
  intro a b ha hb
  rw [slotsPiece]
  dsimp only
  rw [← agflSlots_eq_iff ha hb hn]
  constructor
  · intro h
    have hpieces := separated_inj (slot_separable _) (slot_separable _) h
    refine zipIdx_filter_inj ?_ (List.map_injective_iff.mpr slot_injective hpieces)
    rw [agflSlots, agflSlots, List.length_map, List.length_map, ha, hb]
  · intro h
    rw [h]

end Slots

end MkfsXfs.Inspect
