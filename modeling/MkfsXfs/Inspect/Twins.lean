import MkfsXfs.Inspect.Faithful

/-!
Dumps that a comparison finds alike field by field, without a look at their keys.

* `Class.counts`: which differences count, those of the identity when the UUIDs should match.
* `Entry.Twin`, `Twins`: fields with one key and one class, and one value when it counts.
* `Twins.counted`: dumps of such fields have no difference that counts, whatever keys are repeated.
* `AgreeOutside.byte` and its kin: what is read outside the bytes that are not judged.
* `Kind.Same`, `Kind.Same.twins`, `dumpBlock_twins`, `dumpRecord_twins`: structures that agree on
  all that is judged have such dumps.
-/

namespace MkfsXfs.Inspect

/-- Whether differences of a class count: the structural ones, and those of the identity when
`ids` says that the UUIDs should match. -/
def Class.counts (ids : Bool) : Class → Bool
  | structural => true
  | identity => ids
  | incidental => false

/-- Two fields that a comparison does not tell apart where it counts. -/
structure Entry.Twin (ids : Bool) (e f : Entry) : Prop where
  key : e.key = f.key
  judged : e.judged = f.judged
  value : e.judged.counts ids → e.value = f.value

/-- Dumps of such fields, in one order. -/
def Twins (ids : Bool) : Dump → Dump → Prop := List.Forall₂ (Entry.Twin ids)

section Twins

variable {ids : Bool} {a b c d : Dump} {e f : Entry} {k v w : String}

lemma Entry.Twin.refl (e : Entry) : e.Twin ids e := ⟨rfl, rfl, fun _ => rfl⟩

lemma Twins.refl (d : Dump) : Twins ids d d := List.forall₂_same.2 fun e _ => .refl e

lemma Twins.append (h : Twins ids a b) (h' : Twins ids c d) : Twins ids (a ++ c) (b ++ d) :=
  List.rel_append h h'

/-- What the maps of two dumps hold under a key. -/
def TwinValues (ids : Bool) : Option (String × Class) → Option (String × Class) → Prop :=
  Option.Rel fun x y => x.2 = y.2 ∧ (x.2.counts ids → x.1 = y.1)

/-- The fields of twins, entered in maps that hold twins, leave such maps. -/
lemma Twins.insertMany (h : Twins ids a b) (m n : Std.TreeMap String (String × Class) compare)
    (hmn : ∀ k : String, TwinValues ids m[k]? n[k]?) (k : String) :
    TwinValues ids (m.insertMany (a.map fun f => (f.key, f.value, f.judged)))[k]?
      (n.insertMany (b.map fun f => (f.key, f.value, f.judged)))[k]? := by
  induction h generalizing m n with
  | nil => exact hmn k
  | @cons e f a b hef _ ih =>
      rw [List.map_cons, List.map_cons, Std.TreeMap.insertMany_cons,
        Std.TreeMap.insertMany_cons]
      refine ih _ _ fun k => ?_
      rw [Std.TreeMap.getElem?_insert, Std.TreeMap.getElem?_insert, hef.key]
      split_ifs with hk
      · exact .some ⟨hef.judged, hef.value⟩
      · exact hmn k

/-- **Twins have no difference that counts.** -/
theorem Twins.counted (h : Twins ids a b) :
    ∀ d ∈ diff a b, d.judged.counts ids = false := by
  have hempty : ∀ k : String, TwinValues ids
      (∅ : Std.TreeMap String (String × Class) compare)[k]?
      (∅ : Std.TreeMap String (String × Class) compare)[k]? := fun k => by
    rw [Std.TreeMap.getElem?_emptyc]
    exact .none
  intro d hd
  rw [← Bool.not_eq_true]
  intro hjudged
  obtain ⟨hne, -, -, -, hclass⟩ := difference_eq_some_iff.mp (mem_diff_iff.mp hd)
  have hvalues : TwinValues ids (fieldMap a)[d.key]? (fieldMap b)[d.key]? :=
    h.insertMany ∅ ∅ hempty d.key
  rw [hclass] at hjudged
  generalize (fieldMap a)[d.key]? = x at hne hjudged hvalues
  generalize (fieldMap b)[d.key]? = y at hne hjudged hvalues
  cases hvalues with
  | none => exact hne rfl
  | some hxy => exact hne (congrArg some (hxy.2 hjudged))

end Twins

/-! ### Bytes that agree -/

section Agree

variable {l : List (ℕ × ℕ)} {a b : Buf} {i o lo hi : ℕ}

/-- A byte outside the ranges. -/
lemma AgreeOutside.byte (h : AgreeOutside l a b) (hlen : a.length = b.length)
    (hi : ¬ Within l i) : byteAt a i = byteAt b i := by
  rcases Nat.lt_or_ge i a.length with hlt | hge
  · exact h i hlt hi
  · rw [byteAt_of_le hge, byteAt_of_le (hlen ▸ hge)]

lemma AgreeOutside.be32 (h : AgreeOutside l a b) (hlen : a.length = b.length)
    (ho : ∀ k < 4, ¬ Within l (o + k)) : be32 a o = be32 b o :=
  be32_congr fun k hk => h.byte hlen (ho k hk)

end Agree

/-! ### Structures that agree -/

/-- Where the UUID is. -/
def Kind.uuidOff : Kind → ℕ
  | superblock => Sb.Off.uuid
  | agf => Agf.Off.uuid
  | agi => Agi.Off.uuid
  | agfl => Agfl.Off.uuid
  | inode => Inode.Off.uuid
  | record => Log.Off.fsUuid

/-- Where the checksum is that a dump verifies. -/
def Kind.crcOff : Kind → Option ℕ
  | superblock => some Sb.Off.crc
  | agf => some Agf.Off.crc
  | agi => some Agi.Off.crc
  | agfl => some Agfl.Off.crc
  | inode => some Inode.Off.crc
  | record => none

/-- The bytes that do not count: of those that are not judged, the UUID does when it should
match. -/
def Kind.uncounted (k : Kind) (ids : Bool) : List (ℕ × ℕ) :=
  if ids then k.ignored.tail else k.ignored

/-- Two structures that are the same where it counts. -/
structure Kind.Same (k : Kind) (ids : Bool) (a b : Buf) : Prop where
  length : a.length = b.length
  agree : AgreeOutside (k.uncounted ids) a b
  verify : ∀ o ∈ k.crcOff, Crc.verify a o = Crc.verify b o

section Structures

variable {k : Kind} {ids : Bool} {p : String} {n : ℕ} {a b : Buf} {l l' : List (ℕ × ℕ)}

lemma AgreeOutside.mono (h : AgreeOutside l a b) (hl : l ⊆ l') : AgreeOutside l' a b :=
  fun i hi hout => h i hi fun ⟨r, hr, hin⟩ => hout ⟨r, hl hr, hin⟩

lemma Kind.Same.ignored (h : k.Same ids a b) : AgreeOutside k.ignored a b := by
  refine h.agree.mono ?_
  rw [uncounted]
  split_ifs
  · exact List.tail_subset _
  · exact fun r hr => hr

/-- The UUID when it should match. -/
lemma Kind.Same.uuid (h : k.Same true a b) : slice a k.uuidOff (k.uuidOff + 16) =
    slice b k.uuidOff (k.uuidOff + 16) := by
  have hout : ∀ i < 16, ¬ Within (k.uncounted true) (k.uuidOff + i) := by
    cases k <;> decide +kernel
  refine (sameAt_iff_drop_take h.length).mp fun i hl hr => ?_
  obtain ⟨j, rfl⟩ := Nat.exists_eq_add_of_le hl
  exact h.agree.byte h.length (hout j (by omega))

/-- The columns of two structures that show the same where it counts. -/
lemma twins_columns {cs : List Column}
    (h : ∀ c ∈ cs, c.judged.counts ids → c.render a = c.render b) :
    Twins ids (cs.map (Column.entry · a)) (cs.map (Column.entry · b)) := by
  rw [Twins, List.forall₂_map_left_iff, List.forall₂_map_right_iff]
  exact List.forall₂_same.2 fun c hc => ⟨rfl, rfl, h c hc⟩

/-- The other fields show the same where it counts. -/
lemma Kind.Same.others (h : k.Same ids a b) (ha : a.length = n) :
    ∀ c ∈ k.others n, c.2.1.counts ids → c.2.2 a = c.2.2 b := by
  have huuid : ∀ c ∈ [uuidOther k.uuidOff], c.2.1.counts ids → c.2.2 a = c.2.2 b := by
    intro c hc hcounts
    obtain rfl := List.mem_singleton.mp hc
    obtain rfl : ids = true := hcounts
    exact congrArg uuidStr h.uuid
  have hcrc : ∀ (part : Buf → Buf) o, part a = a → part b = b → o ∈ k.crcOff →
      ∀ c ∈ crcOthers part o, c.2.1.counts ids → c.2.2 a = c.2.2 b := by
    intro part o hpa hpb ho c hc hcounts
    rw [crcOthers] at hc
    rcases List.mem_pair.mp hc with rfl | rfl
    · cases hcounts
    · dsimp only
      rw [hpa, hpb, h.verify o ho]
  have hboth : ∀ (part : Buf → Buf) o, part a = a → part b = b → o ∈ k.crcOff →
      ∀ c ∈ [uuidOther k.uuidOff] ++ crcOthers part o, c.2.1.counts ids → c.2.2 a = c.2.2 b :=
    fun part o hpa hpb ho c hc => (List.mem_append.mp hc).elim (huuid c) (hcrc part o hpa hpb ho c)
  cases k with
  | superblock =>
      have hlen : b.length = n := h.length.symm.trans ha
      exact hboth (·.take n) _ (List.take_of_length_le ha.le) (List.take_of_length_le hlen.le) rfl
  | agf => exact hboth id _ rfl rfl rfl
  | agi =>
      intro c hc
      rcases List.mem_cons.mp hc with rfl | hc
      · intro _
        have hbuckets : usedBuckets a = usedBuckets b := by
          rw [usedBuckets, usedBuckets, List.map_congr_left fun i hi => ?_]
          refine be32_congr fun j hj => h.ignored.byte h.length ?_
          have hi' := List.mem_range.mp hi
          simp only [Kind.ignored, Within, List.mem_cons, List.not_mem_nil, or_false,
            exists_eq_or_imp, exists_eq_left, Agi.Off.unlinked, Agi.Off.uuid, Agi.Off.crc]
          omega
        dsimp only
        rw [hbuckets]
      · exact hboth id _ rfl rfl rfl c hc
  | agfl => exact hboth id _ rfl rfl rfl
  | inode =>
      -- The times and the generation do not count.
      have hothers : Kind.inode.others n = [timeOther "atime" Inode.Off.atime,
          timeOther "mtime" Inode.Off.mtime, timeOther "ctime" Inode.Off.ctime,
          timeOther "crtime" Inode.Off.crtime,
          ("gen", .incidental, fun b => toString (be32 b Inode.Off.gen))] ++
          ([uuidOther Inode.Off.uuid] ++ crcOthers id Inode.Off.crc) := rfl
      intro c hc
      rw [hothers] at hc
      rcases List.mem_append.mp hc with hc | hc
      · have hrest : c.2.1 = .incidental := by
          simp only [timeOther, List.mem_cons, List.not_mem_nil, or_false] at hc
          rcases hc with rfl | rfl | rfl | rfl | rfl <;> rfl
        rw [hrest]
        exact fun hcounts => by cases hcounts
      · exact hboth id _ rfl rfl rfl c hc
  | record => exact huuid

/-- **Structures that are the same where it counts have twin dumps.** -/
theorem Kind.Same.twins (h : k.Same ids a b) (hn : k.Sized a.length) :
    Twins ids (k.dump p a) (k.dump p b) := by
  rw [dump_eq hn rfl, dump_eq hn h.length.symm]
  refine twins_columns (forall_mem_columns.mpr ⟨fun r hr _ => ?_, h.others rfl⟩)
  have hpieces := (pieces_agree_iff hn rfl).mpr ((agreeOutside_ignored_iff hn).mp h.ignored).1
  exact (pieces_exact hn r hr a b rfl h.length.symm).mpr (hpieces r hr)

/-- **First blocks of a log that are the same where it counts have twin dumps.** -/
theorem dumpRecord_twins (h : Kind.record.Same ids (a.take bbsize) (b.take bbsize))
    (hlen : a.length = b.length) (hsize : bbsize ≤ a.length)
    (hpast : a.drop bbsize = b.drop bbsize) (recLen : ℕ) :
    Twins ids (dumpRecord a recLen) (dumpRecord b recLen) := by
  have hwhole : ∀ c : Buf, dumpRecord c recLen =
      (Kind.record.columns "log.header" bbsize).map (Column.entry · (c.take bbsize)) ++
        [entry "log" "record" (hexTrimmed (slice c bbsize (min recLen c.length)))] := fun c => by
    rw [dumpRecord, uuidEntry_eq]
    rfl
  have htake : ∀ c : Buf, bbsize ≤ c.length → (c.take bbsize).length = bbsize := fun c hc => by
    rw [List.length_take, min_eq_left hc]
  have ha := htake a hsize
  have hpieces := (pieces_agree_iff (k := .record) rfl ha).mpr
    ((agreeOutside_ignored_iff (k := .record) ha).mp h.ignored).1
  rw [hwhole, hwhole, slice, slice, hlen, hpast]
  refine Twins.append (twins_columns (forall_mem_columns.mpr ⟨fun r hr _ => ?_, h.others ha⟩))
    (.refl _)
  exact (pieces_exact (k := .record) rfl r hr _ _ ha (htake b (hlen ▸ hsize))).mpr (hpieces r hr)

end Structures

/-! ### Btree blocks -/

/-- The bytes of a btree block that do not count. -/
def blockUncounted (ids : Bool) : List (ℕ × ℕ) :=
  if ids then [(Btree.Off.crc, 4)] else [(Btree.Off.uuid, 16), (Btree.Off.crc, 4)]

/-- Two btree blocks that are the same where it counts. -/
structure BlockSame (ids : Bool) (a b : Buf) : Prop where
  length : a.length = b.length
  agree : AgreeOutside (blockUncounted ids) a b
  verify : Crc.verify a Btree.Off.crc = Crc.verify b Btree.Off.crc

namespace BlockSame

variable {ids : Bool} {a b : Buf} {i lo : ℕ} (h : BlockSame ids a b)

include h

lemma byte (hi : i < Btree.Off.uuid ∨ Btree.Off.owner ≤ i ∧ i < Btree.Off.crc ∨
    Btree.Off.recs ≤ i) : byteAt a i = byteAt b i := by
  refine h.agree.byte h.length fun hin => ?_
  rw [blockUncounted] at hin
  split_ifs at hin <;>
    simp only [Within, List.mem_cons, List.not_mem_nil, or_false, exists_eq_or_imp,
      exists_eq_left, Btree.Off.uuid, Btree.Off.owner, Btree.Off.crc, Btree.Off.recs] at hin hi <;>
    omega

lemma slice (hlo : Btree.Off.recs ≤ lo) (hi : ℕ) :
    Inspect.slice a lo hi = Inspect.slice b lo hi := by
  refine (sameAt_iff_drop_take h.length).mp fun i hl _ => h.byte (.inr (.inr (hlo.trans hl)))

lemma drop (hlo : Btree.Off.recs ≤ lo) : a.drop lo = b.drop lo := by
  refine Buf.ext (by rw [List.length_drop, List.length_drop, h.length]) fun i _ => ?_
  rw [byteAt_drop, byteAt_drop]
  exact h.byte (.inr (.inr (hlo.trans (Nat.le_add_right _ _))))

lemma space : Inspect.space a = Inspect.space b := by
  rw [Inspect.space, Inspect.space, h.length]

/-- The header but for the UUID and the checksum. -/
lemma header : be32 a Btree.Off.magic = be32 b Btree.Off.magic ∧
    be16 a Btree.Off.level = be16 b Btree.Off.level ∧
    be16 a Btree.Off.numrecs = be16 b Btree.Off.numrecs ∧
    be32 a Btree.Off.leftsib = be32 b Btree.Off.leftsib ∧
    be32 a Btree.Off.rightsib = be32 b Btree.Off.rightsib ∧
    be64 a Btree.Off.blkno = be64 b Btree.Off.blkno ∧
    be64 a Btree.Off.lsn = be64 b Btree.Off.lsn ∧
    be32 a Btree.Off.owner = be32 b Btree.Off.owner := by
  have h16 : ∀ o, o + 2 ≤ Btree.Off.uuid → be16 a o = be16 b o := fun o ho =>
    be16_eq_iff.mpr fun i hl hr => h.byte (.inl (by omega))
  have h32 : ∀ o, o + 4 ≤ Btree.Off.uuid ∨ Btree.Off.owner ≤ o ∧ o + 4 ≤ Btree.Off.crc →
      be32 a o = be32 b o := fun o ho => be32_congr fun k hk => h.byte (by omega)
  have h64 : ∀ o, o + 8 ≤ Btree.Off.uuid → be64 a o = be64 b o := fun o ho =>
    be64_congr fun k hk => h.byte (.inl (by omega))
  exact ⟨h32 _ (by decide), h16 _ (by decide), h16 _ (by decide), h32 _ (by decide),
    h32 _ (by decide), h64 _ (by decide), h64 _ (by decide), h32 _ (by decide)⟩

/-- The UUID when it should match. -/
lemma uuid (hids : ids) : Inspect.slice a Btree.Off.uuid (Btree.Off.uuid + 16) =
    Inspect.slice b Btree.Off.uuid (Btree.Off.uuid + 16) := by
  subst hids
  have hout : ∀ i < 16, ¬ Within (blockUncounted true) (Btree.Off.uuid + i) := by decide
  refine (sameAt_iff_drop_take h.length).mp fun i hl hr => ?_
  obtain ⟨j, rfl⟩ := Nat.exists_eq_add_of_le hl
  exact h.agree.byte h.length (hout j (by omega))

lemma leafRecs (t : Tree) : Inspect.leafRecs t a = Inspect.leafRecs t b := by
  obtain ⟨-, -, hnum, -⟩ := h.header
  rw [Inspect.leafRecs, Inspect.leafRecs, h.space, hnum]
  exact List.map_congr_left fun r _ => h.slice (Nat.le_add_right _ _) _

lemma nodeKeys (t : Tree) : Inspect.nodeKeys t a = Inspect.nodeKeys t b := by
  obtain ⟨-, -, hnum, -⟩ := h.header
  rw [Inspect.nodeKeys, Inspect.nodeKeys, h.space, hnum]
  exact List.map_congr_left fun r _ => h.slice (Nat.le_add_right _ _) _

lemma nodePtrs (t : Tree) : Inspect.nodePtrs t a = Inspect.nodePtrs t b := by
  obtain ⟨-, -, hnum, -⟩ := h.header
  rw [Inspect.nodePtrs, Inspect.nodePtrs, h.space, hnum]
  exact List.map_congr_left fun r _ => be32_congr fun k _ => h.byte (by omega)

/-- The fields of the header. -/
lemma dumpHeader_twins (bp : String) (numrecs : ℕ) :
    Twins ids (dumpHeader bp a numrecs) (dumpHeader bp b numrecs) := by
  obtain ⟨-, hlevel, -, hleft, hright, hblkno, hlsn, howner⟩ := h.header
  have huuid : (uuidEntry bp a Btree.Off.uuid).Twin ids (uuidEntry bp b Btree.Off.uuid) :=
    ⟨rfl, rfl, fun hids => congrArg uuidStr (h.uuid hids)⟩
  have hcrc : Twins ids (crcFields bp a Btree.Off.crc) (crcFields bp b Btree.Off.crc) := by
    rw [crcFields, crcFields, h.verify]
    exact .cons ⟨rfl, rfl, fun hcounts => by cases hcounts⟩ (Twins.refl _)
  rw [dumpHeader, dumpHeader, hlevel, hleft, hright, hblkno, hlsn, howner]
  exact Twins.append (.cons (.refl _) (.cons (.refl _) (.cons (.refl _) (.cons (.refl _)
    (.cons (.refl _) (.cons (.refl _) (.cons huuid (Twins.refl _)))))))) hcrc

/-- **Btree blocks that are the same where it counts have twin dumps**, and lead to the same
blocks and records. -/
theorem dumpBlock_twins (t : Tree) (bp : String) (agbno : ℕ) :
    Twins ids (dumpBlock t bp agbno a).1 (dumpBlock t bp agbno b).1 ∧
      (dumpBlock t bp agbno a).2 = (dumpBlock t bp agbno b).2 := by
  obtain ⟨hmagic, hlevel, hnum, -⟩ := h.header
  have hheader := h.dumpHeader_twins bp (be16 b Btree.Off.numrecs)
  have hslack : a.drop (Btree.Off.recs + (Inspect.leafRecs t b).length * t.recLen) =
      b.drop (Btree.Off.recs + (Inspect.leafRecs t b).length * t.recLen) :=
    h.drop (Nat.le_add_right _ _)
  rw [dumpBlock, dumpBlock, hmagic, hlevel, hnum, h.leafRecs, h.nodeKeys, h.nodePtrs]
  dsimp only
  rw [hslack]
  split_ifs
  · exact ⟨Twins.refl _, rfl⟩
  · exact ⟨((Twins.append (Twins.refl _) hheader).append (Twins.refl _)).append (Twins.refl _),
      rfl⟩
  · exact ⟨(Twins.append (Twins.refl _) hheader).append (Twins.refl _), rfl⟩

end BlockSame

end MkfsXfs.Inspect
