import MkfsXfs.Inspect.Pieces
import MkfsXfs.Inspect.Walk

/-!
What the comparison of two dumps misses (`src/inspect.rs`, `src/compare.rs`).

* `Kind`: the superblock, the AG headers, the inodes and the header of the log's first record,
  each with its `pieces`, its other fields and the bytes it does not judge.
* `dump_eq`: the dump of a structure is its columns.
* `pieces_agree_iff`: the pieces tell every byte but those in `ignored` and `missed`.
* `alike_dump_iff`: when two structures have no structural difference.
* `missesNothing_iff`: they then agree in every byte that is judged, but for the unlinked buckets
  of an AGI and the cycle data of a record.
-/

namespace MkfsXfs.Inspect

open Render

/-! ### The fields of each kind -/

/-- The structures that are compared. -/
inductive Kind where
  | superblock
  | agf
  | agi
  | agfl
  | inode
  /-- the header of the log's first record -/
  | record
  deriving DecidableEq

/-- A field that is no piece: a name, how it is judged and what it shows. -/
abbrev Other := String × Class × (Buf → String)

/-- The field in the structure `p`. -/
def otherColumn (p : String) (c : Other) : Column := ⟨s!"{p}.{c.1}", c.2.1, c.2.2⟩

def uuidOther (off : ℕ) : Other :=
  ("uuid", .identity, fun b => uuidStr (slice b off (off + 16)))

/-- The checksum of a part, and whether it verifies. -/
def crcOthers (part : Buf → Buf) (off : ℕ) : List Other :=
  [("crc", .incidental, fun b => "0x" ++ digits 16 8 (le32 (part b) off)),
    ("crc_ok", .structural, fun b => toString (Crc.verify (part b) off))]

/-- The unlinked buckets in use. -/
def usedBuckets (b : Buf) : List ℕ :=
  ((List.range 64).map fun i => be32 b (Agi.Off.unlinked + 4 * i)).filter fun v => v ≠ null32

def timeOther (name : String) (off : ℕ) : Other :=
  (name, .incidental, fun b => timeStr (Inode.decodeTime (be64 b off)
    (decide (be64 b Inode.Off.flags2 &&& Inode.diflag2Bigtime ≠ 0))))

/-- A run of pieces and the other fields after it. -/
abbrev Block := List Piece × List Other

/-- The fields of a superblock of `n` bytes, in the order in which they are dumped. -/
def sbBlocks (n : ℕ) : List Block :=
  [(piecesOf .w32 toString [("magicnum", Sb.Off.magicnum), ("blocksize", Sb.Off.blocksize)] ++
    piecesOf .w64 toString [("dblocks", Sb.Off.dblocks), ("rblocks", Sb.Off.rblocks),
      ("rextents", Sb.Off.rextents)], [uuidOther Sb.Off.uuid]),
  (piecesOf .w64 toString [("logstart", Sb.Off.logstart), ("rootino", Sb.Off.rootino),
      ("rbmino", Sb.Off.rbmino), ("rsumino", Sb.Off.rsumino)] ++
    piecesOf .w32 toString [("rextsize", Sb.Off.rextsize), ("agblocks", Sb.Off.agblocks),
      ("agcount", Sb.Off.agcount), ("rbmblocks", Sb.Off.rbmblocks),
      ("logblocks", Sb.Off.logblocks)] ++
    piecesOf .w16 hex [("versionnum", Sb.Off.versionnum)] ++
    piecesOf .w16 toString [("sectsize", Sb.Off.sectsize), ("inodesize", Sb.Off.inodesize),
      ("inopblock", Sb.Off.inopblock)] ++
    [trimmedPiece "fname" Sb.Off.fname (Sb.Off.fname + 12)] ++
    piecesOf .w8 toString [("blocklog", Sb.Off.blocklog), ("sectlog", Sb.Off.sectlog),
      ("inodelog", Sb.Off.inodelog), ("inopblog", Sb.Off.inopblog),
      ("agblklog", Sb.Off.agblklog), ("rextslog", Sb.Off.rextslog),
      ("inprogress", Sb.Off.inprogress), ("imax_pct", Sb.Off.imaxPct)] ++
    piecesOf .w64 toString [("icount", Sb.Off.icount), ("ifree", Sb.Off.ifree),
      ("fdblocks", Sb.Off.fdblocks), ("frextents", Sb.Off.frextents),
      ("uquotino", Sb.Off.uquotino), ("gquotino", Sb.Off.gquotino)] ++
    piecesOf .w16 toString [("qflags", Sb.Off.qflags)] ++
    piecesOf .w8 toString [("flags", Sb.Off.flags), ("shared_vn", Sb.Off.sharedVn)] ++
    piecesOf .w32 toString [("inoalignmt", Sb.Off.inoalignmt), ("unit", Sb.Off.unit),
      ("width", Sb.Off.width)] ++
    piecesOf .w8 toString [("dirblklog", Sb.Off.dirblklog),
      ("logsectlog", Sb.Off.logsectlog)] ++
    piecesOf .w16 toString [("logsectsize", Sb.Off.logsectsize)] ++
    piecesOf .w32 toString [("logsunit", Sb.Off.logsunit)] ++
    piecesOf .w32 hex [("features2", Sb.Off.features2), ("bad_features2", Sb.Off.badFeatures2),
      ("features_compat", Sb.Off.featuresCompat),
      ("features_ro_compat", Sb.Off.featuresRoCompat),
      ("features_incompat", Sb.Off.featuresIncompat),
      ("features_log_incompat", Sb.Off.featuresLogIncompat)] ++
    piecesOf .w32 toString [("spino_align", Sb.Off.spinoAlign)] ++
    piecesOf .w64 toString [("pquotino", Sb.Off.pquotino), ("lsn", Sb.Off.lsn)] ++
    [trimmedPiece "meta_uuid" Sb.Off.metaUuid (Sb.Off.metaUuid + 16),
      trimmedPiece "tail" Sb.Off.past n], crcOthers (·.take n) Sb.Off.crc)]

/-- The fields of an AGF of `n` bytes. -/
def agfBlocks (n : ℕ) : List Block :=
  [(piecesOf .w32 toString [("magicnum", Agf.Off.magicnum),
      ("versionnum", Agf.Off.versionnum), ("seqno", Agf.Off.seqno),
      ("length", Agf.Off.length), ("bnoroot", Agf.Off.bnoRoot),
      ("cntroot", Agf.Off.cntRoot), ("rmaproot", Agf.Off.rmapRoot),
      ("bnolevel", Agf.Off.bnoLevel), ("cntlevel", Agf.Off.cntLevel),
      ("rmaplevel", Agf.Off.rmapLevel), ("flfirst", Agf.Off.flfirst),
      ("fllast", Agf.Off.fllast), ("flcount", Agf.Off.flcount),
      ("freeblks", Agf.Off.freeblks), ("longest", Agf.Off.longest),
      ("btreeblks", Agf.Off.btreeblks), ("rmapblocks", Agf.Off.rmapBlocks),
      ("refcntblocks", Agf.Off.refcountBlocks), ("refcntroot", Agf.Off.refcountRoot),
      ("refcntlevel", Agf.Off.refcountLevel)], [uuidOther Agf.Off.uuid]),
  ([trimmedPiece "spare" (Agf.Off.refcountLevel + 4) Agf.Off.lsn] ++
    piecesOf .w64 toString [("lsn", Agf.Off.lsn)] ++
    [tailPiece "tail" (Agf.Off.crc + 4) n], crcOthers id Agf.Off.crc)]

/-- The fields of an AGI of `n` bytes. -/
def agiBlocks (n : ℕ) : List Block :=
  [(piecesOf .w32 toString [("magicnum", Agi.Off.magicnum),
      ("versionnum", Agi.Off.versionnum), ("seqno", Agi.Off.seqno),
      ("length", Agi.Off.length), ("count", Agi.Off.count), ("root", Agi.Off.root),
      ("level", Agi.Off.level), ("freecount", Agi.Off.freecount),
      ("newino", Agi.Off.newino), ("dirino", Agi.Off.dirino),
      ("free_root", Agi.Off.freeRoot), ("free_level", Agi.Off.freeLevel),
      ("iblocks", Agi.Off.iblocks), ("fblocks", Agi.Off.fblocks)],
    [("unlinked", .structural, fun b => String.intercalate "," ((usedBuckets b).map toString)),
      uuidOther Agi.Off.uuid]),
  (piecesOf .w64 toString [("lsn", Agi.Off.lsn)] ++
    piecesOf .w32 toString [("pad", Agi.Off.crc + 4)] ++
    [tailPiece "tail" Agi.Off.past n], crcOthers id Agi.Off.crc)]

/-- The fields of an AGFL of `n` bytes. -/
def agflBlocks (n : ℕ) : List Block :=
  [(piecesOf .w32 toString [("magicnum", Agfl.Off.magicnum), ("seqno", Agfl.Off.seqno)],
    [uuidOther Agfl.Off.uuid]),
  (piecesOf .w64 toString [("lsn", Agfl.Off.lsn)] ++ [slotsPiece n],
    crcOthers id Agfl.Off.crc)]

/-- The fields of an inode of `n` bytes. -/
def inodeBlocks (n : ℕ) : List Block :=
  [(piecesOf .w16 hex [("magic", Inode.Off.magic)] ++
    piecesOf .w16 (digits 8 0) [("mode", Inode.Off.mode)] ++
    piecesOf .w8 toString [("version", Inode.Off.version), ("format", Inode.Off.format)] ++
    piecesOf .w16 toString [("metatype", Inode.Off.metatype)] ++
    piecesOf .w32 toString [("uid", Inode.Off.uid), ("gid", Inode.Off.gid),
      ("nlink", Inode.Off.nlink)] ++
    [projidPiece Inode.Off.projidLo] ++
    piecesOf .w64 toString [("big_nextents", Inode.Off.bigNextents)],
    [timeOther "atime" Inode.Off.atime, timeOther "mtime" Inode.Off.mtime,
      timeOther "ctime" Inode.Off.ctime, timeOther "crtime" Inode.Off.crtime]),
  (piecesOf .w64 toString [("size", Inode.Off.size), ("nblocks", Inode.Off.nblocks)] ++
    piecesOf .w32 toString [("extsize", Inode.Off.extsize),
      ("nextents", Inode.Off.nextents)] ++
    piecesOf .w16 toString [("anextents", Inode.Off.anextents)] ++
    piecesOf .w8 toString [("forkoff", Inode.Off.forkoff), ("aformat", Inode.Off.aformat)] ++
    piecesOf .w32 toString [("dmevmask", Inode.Off.dmevmask)] ++
    piecesOf .w16 toString [("dmstate", Inode.Off.dmstate)] ++
    piecesOf .w16 hex [("flags", Inode.Off.flags)],
    [("gen", .incidental, fun b => toString (be32 b Inode.Off.gen))]),
  (piecesOf .w32 toString [("next_unlinked", Inode.Off.nextUnlinked)] ++
    piecesOf .w64 toString [("changecount", Inode.Off.changecount), ("lsn", Inode.Off.lsn)] ++
    piecesOf .w64 hex [("flags2", Inode.Off.flags2)] ++
    piecesOf .w32 toString [("cowextsize", Inode.Off.cowextsize)] ++
    [trimmedPiece "pad2" (Inode.Off.cowextsize + 4) Inode.Off.crtime] ++
    piecesOf .w64 toString [("ino", Inode.Off.ino)], [uuidOther Inode.Off.uuid]),
  ([tailPiece "literal" Inode.coreSize n], crcOthers id Inode.Off.crc)]

/-- The fields of a record's header of `n` bytes. -/
def recordBlocks (n : ℕ) : List Block :=
  [(piecesOf .w32 hex [("magicno", Log.Off.magicno), ("cycle", Log.Off.cycle),
      ("version", Log.Off.version), ("len", Log.Off.len), ("crc", Log.Off.crc),
      ("prev_block", Log.Off.prevBlock), ("num_logops", Log.Off.numLogops),
      ("cycle_data0", Log.Off.cycleData), ("fmt", Log.Off.fmt), ("size", Log.Off.size)] ++
    piecesOf .w64 hex [("lsn", Log.Off.lsn), ("tail_lsn", Log.Off.tailLsn)],
    [uuidOther Log.Off.fsUuid]),
  ([tailPiece "rest" (Log.Off.size + 4) n], [])]

/-- The fields of a structure of `n` bytes. -/
def Kind.blocks : Kind → ℕ → List Block
  | superblock => sbBlocks
  | agf => agfBlocks
  | agi => agiBlocks
  | agfl => agflBlocks
  | inode => inodeBlocks
  | record => recordBlocks

/-- The pieces. -/
def Kind.pieces (k : Kind) (n : ℕ) : List Piece := (k.blocks n).flatMap Prod.fst

/-- The other fields. -/
def Kind.others (k : Kind) (n : ℕ) : List Other := (k.blocks n).flatMap Prod.snd

/-- The names of all of them. -/
def Kind.names (k : Kind) (n : ℕ) : List String :=
  (k.blocks n).flatMap fun r => r.1.map Piece.name ++ r.2.map Prod.fst

/-- The columns of the structure `p`. -/
def Kind.columns (k : Kind) (p : String) (n : ℕ) : List Column :=
  (k.blocks n).flatMap fun r => r.1.map (Piece.column p) ++ r.2.map (otherColumn p)

/-- The dump of the structure `p` in `b`. -/
def Kind.dump (k : Kind) (p : String) (b : Buf) : Dump :=
  match k with
  | .superblock => dumpSb p b b.length
  | .agf => dumpAgf p b
  | .agi => dumpAgi p b
  | .agfl => dumpAgfl p b
  | .inode => dumpInode p b
  | .record => (dumpRecord b bbsize).filter fun e => e.key ≠ "log.record"

section Dumps

variable {p : String} {b : Buf} {off n : ℕ}

lemma key_append (p name : String) : s!"{p}.{name}" = p ++ ("." ++ name) := String.append_assoc

lemma uuidEntry_eq : uuidEntry p b off = (otherColumn p (uuidOther off)).entry b := by
  rw [uuidEntry, otherColumn, Column.entry, key_append]
  rfl

lemma crcFields_eq {part : Buf → Buf} : crcFields p (part b) off =
    (crcOthers part off).map fun c => (otherColumn p c).entry b := by
  have hkey : s!"{p}.crc" = toString p ++ toString "." ++ toString "crc" := (key_append p "crc").symm
  rw [crcFields, hkey]
  rfl

lemma crcFields_id : crcFields p b off =
    (crcOthers id off).map fun c => (otherColumn p c).entry b := @crcFields_eq p b off id

/-- A table is its pieces. -/
lemma map_piecesOf {w : Width} {style : ℕ → String} {names : List (String × ℕ)} :
    (piecesOf w style names).map (fun r => (r.column p).entry b) =
      table p (fun o => style (w.read b o)) names := by
  rw [piecesOf, List.map_map]
  rfl

lemma map_key_columns {k : Kind} :
    (k.columns p n).map Column.key = (k.names n).map fun name => s!"{p}.{name}" := by
  rw [Kind.columns, Kind.names, List.map_flatMap, List.map_flatMap]
  simp only [List.map_append, List.map_map]
  rfl

/-- The names do not depend on the size. -/
lemma names_eq (k : Kind) : k.names n = k.names 0 := by
  cases k <;>
    simp only [Kind.names, Kind.blocks, sbBlocks, agfBlocks, agiBlocks, agflBlocks, inodeBlocks,
      recordBlocks, List.flatMap_cons, List.flatMap_nil, List.map_append, List.map_cons,
      List.map_nil, trimmedPiece, tailPiece, slotsPiece, crcOthers]

lemma names_nodup (k : Kind) : (k.names n).Nodup := by
  rw [names_eq]
  cases k <;> decide +kernel

lemma columns_nodup (k : Kind) : ((k.columns p n).map Column.key).Nodup := by
  rw [map_key_columns]
  refine (names_nodup k).map fun s t h => ?_
  have hlist := congrArg String.toList h
  simp only [key_append, String.toList_append] at hlist
  exact String.toList_injective (List.append_cancel_left (List.append_cancel_left hlist))

lemma map_columns {k : Kind} : (k.columns p n).map (Column.entry · b) =
    (k.blocks n).flatMap fun r => r.1.map (fun r => (r.column p).entry b) ++
      r.2.map (fun c => (otherColumn p c).entry b) := by
  rw [Kind.columns, List.map_flatMap]
  simp only [List.map_append, List.map_map]
  rfl

lemma entry_trimmedPiece {name : String} {lo hi : ℕ} :
    ((trimmedPiece name lo hi).column p).entry b = entry p name (hexTrimmed (slice b lo hi)) := rfl

lemma entry_tailPiece {name : String} {lo : ℕ} :
    ((tailPiece name lo n).column p).entry b = entry p name (hexTrimmed (b.drop lo)) := rfl

lemma entry_projidPiece : ((projidPiece off).column p).entry b =
    entry p "projid" (toString (be16 b (off + 2) <<< 16 ||| be16 b off)) := rfl

lemma table_singleton {render : ℕ → String} {name : String} :
    table p render [(name, off)] = [entry p name (render off)] := rfl

lemma entry_timeOther {name : String} : (otherColumn p (timeOther name off)).entry b =
    ⟨s!"{p}.{name}", timeStr (Inode.decodeTime (be64 b off)
      (decide (be64 b Inode.Off.flags2 &&& Inode.diflag2Bigtime ≠ 0))), .incidental⟩ := rfl

/-- **The dump of a structure is its columns.** -/
lemma dumpSb_eq : dumpSb p b n = (Kind.superblock.columns p n).map (Column.entry · b) := by
  have hblocks : Kind.superblock.blocks n = sbBlocks n := rfl
  have hcrc : crcFields p (b.take n) Sb.Off.crc =
      (crcOthers (·.take n) Sb.Off.crc).map fun c => (otherColumn p c).entry b := crcFields_eq
  delta dumpSb
  dsimp only
  rw [uuidEntry_eq, hcrc, map_columns, hblocks]
  delta sbBlocks
  simp only [List.flatMap_cons, List.flatMap_nil, List.map_append, map_piecesOf, List.append_assoc,
    List.append_nil, Width.read, List.map_cons, List.map_nil, entry_trimmedPiece]

lemma dumpAgf_eq : dumpAgf p b = (Kind.agf.columns p n).map (Column.entry · b) := by
  rw [dumpAgf, uuidEntry_eq, crcFields_id]
  rfl

lemma dumpAgi_eq : dumpAgi p b = (Kind.agi.columns p n).map (Column.entry · b) := by
  rw [dumpAgi, uuidEntry_eq, crcFields_id]
  rfl

lemma dumpAgfl_eq : dumpAgfl p b = (Kind.agfl.columns p n).map (Column.entry · b) := by
  rw [dumpAgfl, uuidEntry_eq, crcFields_id]
  rfl

lemma dumpInode_eq : dumpInode p b = (Kind.inode.columns p n).map (Column.entry · b) := by
  have hblocks : Kind.inode.blocks n = inodeBlocks n := rfl
  have hgen : (otherColumn p ("gen", .incidental, fun b => toString (be32 b Inode.Off.gen))).entry b
      = ⟨s!"{p}.gen", toString (be32 b Inode.Off.gen), .incidental⟩ := by
    rw [otherColumn, Column.entry, key_append]
    rfl
  have hprojid : Inode.Off.projidLo + 2 = Inode.Off.projidHi := rfl
  delta dumpInode
  dsimp only
  rw [uuidEntry_eq, crcFields_id, map_columns, hblocks]
  delta inodeBlocks
  simp only [List.flatMap_cons, List.flatMap_nil, List.map_append, map_piecesOf, List.append_assoc,
    List.append_nil, Width.read, List.map_cons, List.map_nil, entry_trimmedPiece, entry_tailPiece,
    entry_projidPiece, entry_timeOther, table_singleton, hgen, hprojid, List.cons_append,
    List.nil_append]

/-- The header of a record is a record of one sector. -/
lemma dumpRecord_eq (hb : b.length = bbsize) : (dumpRecord b bbsize).filter
    (fun e => e.key ≠ "log.record") =
      (Kind.record.columns "log.header" n).map (Column.entry · b) := by
  have hwhole : dumpRecord b bbsize = (Kind.record.columns "log.header" n).map (Column.entry · b)
      ++ [entry "log" "record" (hexTrimmed (slice b bbsize (min bbsize b.length)))] := by
    rw [dumpRecord, List.take_of_length_le hb.le, uuidEntry_eq]
    rfl
  have hkeys : ∀ name ∈ Kind.record.names 0, "log.header" ++ "." ++ name ≠ "log.record" := by
    decide +kernel
  have hlast : [entry "log" "record" (hexTrimmed (slice b bbsize (min bbsize b.length)))].filter
      (fun e => e.key ≠ "log.record") = [] := by
    refine List.filter_eq_nil_iff.mpr fun e he => ?_
    have hkey : toString "log" ++ toString "." ++ toString "record" = "log.record" := by decide
    rw [List.mem_singleton.mp he, entry, hkey]
    simp
  rw [hwhole, List.filter_append, hlast, List.append_nil, List.filter_eq_self.mpr fun e he => ?_]
  · obtain ⟨c, hc, rfl⟩ := List.mem_map.mp he
    have hmem : c.key ∈ (Kind.record.columns "log.header" n).map Column.key :=
      List.mem_map.mpr ⟨c, hc, rfl⟩
    rw [map_key_columns, names_eq] at hmem
    obtain ⟨name, hname, hkey⟩ := List.mem_map.mp hmem
    have hne : toString "log.header" ++ toString "." ++ toString name ≠ "log.record" :=
      hkeys name hname
    rw [hkey] at hne
    exact decide_eq_true hne

end Dumps

/-! ### The bytes they tell -/

/-- The sizes of a structure: whole sectors of 512 bytes, an inode core with what follows it, and
the header of a record. -/
def Kind.Sized : Kind → ℕ → Prop
  | inode, n => Inode.coreSize ≤ n
  | record, n => n = bbsize
  | _, n => 512 ∣ n ∧ 0 < n

/-- The bytes that are not judged: the UUID, the checksum, and of an inode the times and the
generation.  The checksum of a record is judged. -/
def Kind.ignored : Kind → List (ℕ × ℕ)
  | superblock => [(Sb.Off.uuid, 16), (Sb.Off.crc, 4)]
  | agf => [(Agf.Off.uuid, 16), (Agf.Off.crc, 4)]
  | agi => [(Agi.Off.uuid, 16), (Agi.Off.crc, 4)]
  | agfl => [(Agfl.Off.uuid, 16), (Agfl.Off.crc, 4)]
  | inode => [(Inode.Off.uuid, 16), (Inode.Off.crc, 4), (Inode.Off.atime, 8),
      (Inode.Off.mtime, 8), (Inode.Off.ctime, 8), (Inode.Off.crtime, 8), (Inode.Off.gen, 4)]
  | record => [(Log.Off.fsUuid, 16)]

/-- The other bytes that no piece tells: the unlinked buckets of an AGI, and of a record the cycle
data of its sectors but the first. -/
def Kind.missed : Kind → List (ℕ × ℕ)
  | agi => [(Agi.Off.unlinked, 4 * unlinkedBuckets)]
  | record => [(Log.Off.cycleData + 4, Log.Off.fmt - (Log.Off.cycleData + 4))]
  | _ => []

/-- Where the last piece starts. -/
def Kind.rest : Kind → ℕ
  | superblock => Sb.Off.past
  | agf => Agf.Off.crc + 4
  | agi => Agi.Off.past
  | agfl => Agfl.Off.bno
  | inode => Inode.coreSize
  | record => Log.Off.size + 4

/-- The place is in one of the ranges. -/
def Within (l : List (ℕ × ℕ)) (i : ℕ) : Prop := ∃ r ∈ l, r.1 ≤ i ∧ i < r.1 + r.2

instance (l : List (ℕ × ℕ)) (i : ℕ) : Decidable (Within l i) :=
  inferInstanceAs (Decidable (∃ r ∈ l, r.1 ≤ i ∧ i < r.1 + r.2))

/-- Where the pieces are, but the last. -/
def Kind.spans (k : Kind) : List (ℕ × ℕ) := ((k.pieces 0).map fun r => (r.off, r.len)).dropLast

section Bytes

variable {k : Kind} {n i : ℕ} {a b : Buf}

lemma map_pieces_span (k : Kind) (n : ℕ) :
    (k.pieces n).map (fun r => (r.off, r.len)) = k.spans ++ [(k.rest, n - k.rest)] := by
  cases k <;> rfl

lemma rest_le (hn : k.Sized n) : k.rest ≤ n := by
  have hsector : 512 ∣ n ∧ 0 < n → 512 ≤ n := fun ⟨hdvd, hpos⟩ => Nat.le_of_dvd hpos hdvd
  cases k with
  | superblock => exact le_trans (by decide) (hsector hn)
  | agf => exact le_trans (by decide) (hsector hn)
  | agi => exact le_trans (by decide) (hsector hn)
  | agfl => exact le_trans (by decide) (hsector hn)
  | inode => exact hn
  | record =>
      obtain rfl : n = bbsize := hn
      decide

/-- Up to the last piece every byte is in one of the ranges. -/
lemma within_of_lt (k : Kind) : ∀ i < k.rest, Within k.spans i ∨ Within (k.ignored ++ k.missed) i := by
  cases k <;> decide +kernel

/-- The ranges do not meet. -/
lemma spans_apart (k : Kind) : ∀ s ∈ k.spans, s.1 + s.2 ≤ k.rest ∧
    ∀ h ∈ k.ignored ++ k.missed, s.1 + s.2 ≤ h.1 ∨ h.1 + h.2 ≤ s.1 := by
  cases k <;> decide +kernel

lemma ignored_before (k : Kind) : ∀ h ∈ k.ignored ++ k.missed, h.1 + h.2 ≤ k.rest := by
  cases k <;> decide +kernel

/-- Every byte but those in the ranges is the same. -/
def AgreeOutside (l : List (ℕ × ℕ)) (a b : Buf) : Prop :=
  ∀ i < a.length, ¬ Within l i → byteAt a i = byteAt b i

/-- **The pieces tell every byte that is judged and not missed.** -/
theorem pieces_agree_iff (hn : k.Sized n) (ha : a.length = n) :
    (∀ r ∈ k.pieces n, SameAt r.off r.len a b) ↔ AgreeOutside (k.ignored ++ k.missed) a b := by
  have hrest := rest_le hn
  have hspans : (∀ r ∈ k.pieces n, SameAt r.off r.len a b) ↔
      ∀ s ∈ k.spans ++ [(k.rest, n - k.rest)], SameAt s.1 s.2 a b := by
    rw [← map_pieces_span, List.forall_mem_map]
  rw [hspans, List.forall_mem_append, List.forall_mem_singleton]
  constructor
  · rintro ⟨hfixed, hlast⟩ i hi hout
    rw [ha] at hi
    rcases Nat.lt_or_ge i k.rest with hlt | hge
    · rcases within_of_lt k i hlt with ⟨s, hs, hl, hr⟩ | hin
      · exact hfixed s hs i hl hr
      · exact absurd hin hout
    · exact hlast i hge (by omega)
  · intro h
    constructor
    · intro s hs i hl hr
      obtain ⟨hbefore, hapart⟩ := spans_apart k s hs
      refine h i (by omega) ?_
      rintro ⟨t, ht, hl', hr'⟩
      have htapart := hapart t ht
      omega
    · intro i hl hr
      refine h i (by omega) ?_
      rintro ⟨t, ht, hl', hr'⟩
      have htbefore := ignored_before k t ht
      omega

/-- Every piece of the list is told by its bytes, and tells them. -/
def AllExact (n : ℕ) (l : List Piece) : Prop := ∀ r ∈ l, r.Exact n

lemma allExact_nil : AllExact n [] := fun _ h => (by cases h)

lemma allExact_cons {r : Piece} {l : List Piece} :
    AllExact n (r :: l) ↔ r.Exact n ∧ AllExact n l := List.forall_mem_cons

lemma allExact_append {l m : List Piece} :
    AllExact n (l ++ m) ↔ AllExact n l ∧ AllExact n m := List.forall_mem_append

/-- **Every piece of a structure is told by its bytes, and tells them.** -/
theorem pieces_exact (hn : k.Sized n) : AllExact n (k.pieces n) := by
  have hdec : ∀ w names, AllExact n (piecesOf w toString names) := fun _ =>
    piecesOf_exact toString_injective
  have hhex : ∀ w names, AllExact n (piecesOf w hex names) := fun _ => piecesOf_exact hex_injective
  have hoct : ∀ w names, AllExact n (piecesOf w (digits 8 0) names) := fun _ =>
    piecesOf_exact (digits_injective (by norm_num) (by norm_num))
  cases k with
  | agfl =>
      have hslots : (slotsPiece n).Exact n := slots_exact ((by norm_num : 4 ∣ 512).trans hn.1)
      simp only [Kind.pieces, Kind.blocks, agflBlocks, List.flatMap_cons, List.flatMap_nil,
        List.append_nil, allExact_append, allExact_cons, allExact_nil, hdec, hslots, and_self]
  | superblock =>
      simp only [Kind.pieces, Kind.blocks, sbBlocks, List.flatMap_cons, List.flatMap_nil,
        List.append_nil, allExact_append, allExact_cons, allExact_nil, hdec, hhex, trimmed_exact,
        and_self]
  | agf =>
      simp only [Kind.pieces, Kind.blocks, agfBlocks, List.flatMap_cons, List.flatMap_nil,
        List.append_nil, allExact_append, allExact_cons, allExact_nil, hdec, trimmed_exact,
        tail_exact, and_self]
  | agi =>
      simp only [Kind.pieces, Kind.blocks, agiBlocks, List.flatMap_cons, List.flatMap_nil,
        List.append_nil, allExact_append, allExact_cons, allExact_nil, hdec, tail_exact, and_self]
  | inode =>
      simp only [Kind.pieces, Kind.blocks, inodeBlocks, List.flatMap_cons, List.flatMap_nil,
        List.append_nil, allExact_append, allExact_cons, allExact_nil, hdec, hhex, hoct,
        trimmed_exact, tail_exact, projid_exact, and_self]
  | record =>
      simp only [Kind.pieces, Kind.blocks, recordBlocks, List.flatMap_cons, List.flatMap_nil,
        List.append_nil, allExact_append, allExact_cons, allExact_nil, hhex, tail_exact, and_self]

/-- What is missed is all that is left. -/
lemma agreeOutside_ignored_iff (hn : k.Sized a.length) : AgreeOutside k.ignored a b ↔
    AgreeOutside (k.ignored ++ k.missed) a b ∧ ∀ h ∈ k.missed, SameAt h.1 h.2 a b := by
  have hapart : ∀ h ∈ k.missed, ∀ t ∈ k.ignored, h.1 + h.2 ≤ t.1 ∨ t.1 + t.2 ≤ h.1 := by
    cases k <;> decide +kernel
  have hrest := rest_le hn
  constructor
  · intro h
    refine ⟨fun i hi hout => h i hi ?_, fun t ht i hl hr => h i ?_ ?_⟩
    · rintro ⟨t, ht, hin⟩
      exact hout ⟨t, List.mem_append_left _ ht, hin⟩
    · have hbefore := ignored_before k t (List.mem_append_right _ ht)
      omega
    · rintro ⟨u, hu, hl', hr'⟩
      have hut := hapart t ht u hu
      omega
  · rintro ⟨h, hmissed⟩ i hi hout
    by_cases hin : Within k.missed i
    · obtain ⟨t, ht, hl, hr⟩ := hin
      exact hmissed t ht i hl hr
    · refine h i hi ?_
      rintro ⟨t, ht, hl, hr⟩
      rcases List.mem_append.mp ht with hmem | hmem
      · exact hout ⟨t, hmem, hl, hr⟩
      · exact hin ⟨t, hmem, hl, hr⟩

end Bytes

/-! ### What is missed -/

section Missed

variable {k : Kind} {p : String} {n : ℕ} {a b : Buf}

/-- Where the structure is in the dump. -/
def Kind.place : Kind → String → String
  | record, _ => "log.header"
  | _, p => p

lemma dump_eq (hn : k.Sized n) (ha : a.length = n) :
    k.dump p a = (k.columns (k.place p) n).map (Column.entry · a) := by
  cases k with
  | superblock =>
      rw [Kind.dump, ha]
      exact dumpSb_eq
  | agf => exact dumpAgf_eq
  | agi => exact dumpAgi_eq
  | agfl => exact dumpAgfl_eq
  | inode => exact dumpInode_eq
  | record => exact dumpRecord_eq (ha.trans hn)

/-- The columns are the pieces and the other fields. -/
lemma forall_mem_columns {P : Column → Prop} : (∀ c ∈ k.columns p n, P c) ↔
    (∀ r ∈ k.pieces n, P (r.column p)) ∧ ∀ c ∈ k.others n, P (otherColumn p c) := by
  rw [Kind.columns, Kind.pieces, Kind.others]
  constructor
  · intro h
    constructor
    · intro r hr
      obtain ⟨block, hblock, hmem⟩ := List.mem_flatMap.mp hr
      exact h _ (List.mem_flatMap.mpr ⟨block, hblock, List.mem_append_left _
        (List.mem_map_of_mem hmem)⟩)
    · intro c hc
      obtain ⟨block, hblock, hmem⟩ := List.mem_flatMap.mp hc
      exact h _ (List.mem_flatMap.mpr ⟨block, hblock, List.mem_append_right _
        (List.mem_map_of_mem hmem)⟩)
  · rintro ⟨hpieces, hothers⟩ c hc
    obtain ⟨block, hblock, hmem⟩ := List.mem_flatMap.mp hc
    rcases List.mem_append.mp hmem with hmem | hmem
    · obtain ⟨r, hr, rfl⟩ := List.mem_map.mp hmem
      exact hpieces r (List.mem_flatMap.mpr ⟨block, hblock, hr⟩)
    · obtain ⟨o, ho, rfl⟩ := List.mem_map.mp hmem
      exact hothers o (List.mem_flatMap.mpr ⟨block, hblock, ho⟩)

/-- **When the dumps of two structures are alike.** -/
theorem alike_dump_iff (hn : k.Sized n) (ha : a.length = n) (hb : b.length = n) :
    Alike (k.dump p a) (k.dump p b) ↔ AgreeOutside (k.ignored ++ k.missed) a b ∧
      ∀ c ∈ k.others n, c.2.1 = .structural → c.2.2 a = c.2.2 b := by
  rw [dump_eq hn ha, dump_eq hn hb, alike_iff (columns_nodup k), forall_mem_columns,
    ← pieces_agree_iff hn ha]
  refine and_congr ?_ Iff.rfl
  refine forall₂_congr fun r hr => ?_
  have hexact := pieces_exact hn r hr a b ha hb
  exact (forall_prop_of_true rfl).trans hexact

lemma usedBuckets_text : String.intercalate "," ((usedBuckets a).map toString) =
    String.intercalate "," ((usedBuckets b).map toString) ↔ usedBuckets a = usedBuckets b := by
  have hseparable : ∀ l : List ℕ, ∀ s ∈ l.map toString, s ≠ "" ∧ ',' ∉ s.toList := by
    intro l s hs
    obtain ⟨v, -, rfl⟩ := List.mem_map.mp hs
    rw [Nat.toString_eq_ofList_toDigits]
    refine ⟨fun hempty => ?_, ?_⟩
    · have hlist := congrArg String.toList hempty
      rw [String.toList_ofList] at hlist
      exact Nat.toDigits_ne_nil hlist
    · rw [String.toList_ofList]
      exact not_mem_toDigits (by decide) v
  constructor
  · intro h
    exact List.map_injective_iff.mpr toString_injective
      (separated_inj (hseparable _) (hseparable _) h)
  · intro h
    rw [h]

/-- Two structures that compare alike though they differ: AGIs with the same inodes in other
unlinked buckets, and records with other cycle data after the first. -/
def Kind.Misses : Kind → Buf → Buf → Prop
  | agi, a, b => AgreeOutside (Kind.agi.ignored ++ Kind.agi.missed) a b ∧
      usedBuckets a = usedBuckets b ∧
      Crc.verify a Agi.Off.crc = Crc.verify b Agi.Off.crc ∧
      ¬ SameAt Agi.Off.unlinked (4 * unlinkedBuckets) a b
  | record, a, b => AgreeOutside (Kind.record.ignored ++ Kind.record.missed) a b ∧
      ¬ SameAt (Log.Off.cycleData + 4) (Log.Off.fmt - (Log.Off.cycleData + 4)) a b
  | _, _, _ => False

/-- The other structural fields of an AGI. -/
lemma forall_others_agi : (∀ c ∈ Kind.agi.others n, c.2.1 = .structural → c.2.2 a = c.2.2 b) ↔
    usedBuckets a = usedBuckets b ∧ Crc.verify a Agi.Off.crc = Crc.verify b Agi.Off.crc := by
  have hothers : Kind.agi.others n = [("unlinked", .structural, fun b =>
      String.intercalate "," ((usedBuckets b).map toString)), uuidOther Agi.Off.uuid] ++
      crcOthers id Agi.Off.crc := rfl
  have hbool : ∀ x y : Bool, toString x = toString y ↔ x = y := by decide
  rw [hothers, crcOthers, ← usedBuckets_text, ← hbool]
  simp [uuidOther]

/-- The record has none. -/
lemma forall_others_record : ∀ c ∈ Kind.record.others n, c.2.1 = .structural → c.2.2 a = c.2.2 b := by
  have hothers : Kind.record.others n = [uuidOther Log.Off.fsUuid] := rfl
  rw [hothers]
  simp [uuidOther]

/-- A sector of ones with the magic number of an AGI. -/
def emptyAgi : Buf := splice (List.replicate 512 0xff) Agi.Off.magicnum (toBeBytes 4 Agi.magic)

lemma length_emptyAgi : emptyAgi.length = 512 := by
  rw [emptyAgi, length_splice, List.length_replicate]

/-- An AGI with one inode, in one of the unlinked buckets. -/
def unlinkedAt (bucket : ℕ) : Buf :=
  Crc.stamp (splice emptyAgi (Agi.Off.unlinked + 4 * bucket) (toBeBytes 4 5)) Agi.Off.crc

lemma length_unlinkedAt (bucket : ℕ) : (unlinkedAt bucket).length = 512 := by
  rw [unlinkedAt, Crc.length_stamp, length_splice, length_emptyAgi]

lemma byteAt_unlinkedAt {bucket i : ℕ} (hi : i < Agi.Off.crc ∨ Agi.Off.crc + 4 ≤ i) :
    byteAt (unlinkedAt bucket) i =
      byteAt (splice emptyAgi (Agi.Off.unlinked + 4 * bucket) (toBeBytes 4 5)) i := by
  rw [unlinkedAt, Crc.stamp_eq_splice]
  exact byteAt_splice_of_not_mem (by simpa using hi)

lemma usedBuckets_unlinkedAt {bucket : ℕ} (hb : bucket < 2) :
    usedBuckets (unlinkedAt bucket) = [5] := by
  have hcrc : Agi.Off.unlinked + 4 * 64 ≤ Agi.Off.crc := by decide
  have hsame : usedBuckets (unlinkedAt bucket) =
      usedBuckets (splice emptyAgi (Agi.Off.unlinked + 4 * bucket) (toBeBytes 4 5)) := by
    rw [usedBuckets, usedBuckets, List.map_congr_left fun i hi => ?_]
    refine be32_eq_iff.mpr fun j hl hr => ?_
    have hi' := List.mem_range.mp hi
    exact byteAt_unlinkedAt (.inl (by omega))
  have hcases : ∀ bucket < 2, usedBuckets (splice emptyAgi (Agi.Off.unlinked + 4 * bucket)
      (toBeBytes 4 5)) = [5] := by decide +kernel
  rw [hsame]
  exact hcases bucket hb

/-- Of an AGF only the checksum's verdict. -/
lemma forall_others_agf : (∀ c ∈ Kind.agf.others n, c.2.1 = .structural → c.2.2 a = c.2.2 b) ↔
    Crc.verify a Agf.Off.crc = Crc.verify b Agf.Off.crc := by
  have hothers : Kind.agf.others n = [uuidOther Agf.Off.uuid] ++ crcOthers id Agf.Off.crc := rfl
  have hbool : ∀ x y : Bool, toString x = toString y ↔ x = y := by decide
  rw [hothers, crcOthers, ← hbool]
  simp [uuidOther]

/-- A sector of zeroes with the magic number of an AGF. -/
def emptyAgf : Buf := splice (List.replicate 512 0) Agf.Off.magicnum (toBeBytes 4 Agf.magic)

/-- An AGF with a UUID of one byte. -/
def agfOf (byte : UInt8) : Buf :=
  Crc.stamp (splice emptyAgf Agf.Off.uuid (List.replicate 16 byte)) Agf.Off.crc

lemma length_agfOf (byte : UInt8) : (agfOf byte).length = 512 := by
  rw [agfOf, Crc.length_stamp, length_splice, emptyAgf, length_splice, List.length_replicate]

lemma byteAt_agfOf {byte : UInt8} {i : ℕ} (hi : i < Agf.Off.crc ∨ Agf.Off.crc + 4 ≤ i) :
    byteAt (agfOf byte) i = byteAt (splice emptyAgf Agf.Off.uuid (List.replicate 16 byte)) i := by
  rw [agfOf, Crc.stamp_eq_splice]
  exact byteAt_splice_of_not_mem (by simpa using hi)

lemma verify_agfOf (byte : UInt8) : Crc.verify (agfOf byte) Agf.Off.crc = true :=
  Crc.verify_stamp (by
    rw [length_splice, emptyAgf, length_splice, List.length_replicate]
    decide)

/-- Two of them agree but for their UUIDs and checksums. -/
lemma agreeOutside_agfOf (byte byte' : UInt8) :
    AgreeOutside (Kind.agf.ignored ++ Kind.agf.missed) (agfOf byte) (agfOf byte') := by
  intro i _ hout
  have hapart : ∀ r ∈ Kind.agf.ignored ++ Kind.agf.missed, ¬ (r.1 ≤ i ∧ i < r.1 + r.2) :=
    fun r hr hin => hout ⟨r, hr, hin⟩
  have hnotCrc := hapart (Agf.Off.crc, 4) (by decide)
  have hnotUuid := hapart (Agf.Off.uuid, 16) (by decide)
  dsimp only at hnotCrc hnotUuid
  rw [byteAt_agfOf (by omega), byteAt_agfOf (by omega),
    byteAt_splice_of_not_mem (by rw [List.length_replicate]; omega),
    byteAt_splice_of_not_mem (by rw [List.length_replicate]; omega)]

/-- **What the comparison misses.**  Two structures of one size without a structural difference
agree in every byte that is judged, but for the unlinked buckets of AGIs and the cycle data of
records. -/
theorem missesNothing_iff (k : Kind) (p : String) (a b : Buf) (hn : k.Sized a.length)
    (hlen : a.length = b.length) :
    (Alike (k.dump p a) (k.dump p b) → AgreeOutside k.ignored a b) ↔ ¬ k.Misses a b := by
  rw [alike_dump_iff hn rfl hlen.symm, agreeOutside_ignored_iff hn]
  have hnothing : k.missed = [] → AgreeOutside (k.ignored ++ k.missed) a b →
      AgreeOutside (k.ignored ++ k.missed) a b ∧ ∀ h ∈ k.missed, SameAt h.1 h.2 a b :=
    fun hmissed h => ⟨h, by simp [hmissed]⟩
  cases k with
  | agi =>
      rw [forall_others_agi, Kind.Misses]
      simp only [Kind.missed, List.forall_mem_singleton]
      tauto
  | record =>
      rw [Kind.Misses]
      simp only [Kind.missed, List.forall_mem_singleton]
      constructor
      · rintro h ⟨hagree, hdiffer⟩
        exact hdiffer (h ⟨hagree, forall_others_record⟩).2
      · rintro h ⟨hagree, -⟩
        exact ⟨hagree, not_not.mp fun hdiffer => h ⟨hagree, hdiffer⟩⟩
  | superblock => exact iff_of_true (fun h => hnothing rfl h.1) id
  | agf => exact iff_of_true (fun h => hnothing rfl h.1) id
  | agfl => exact iff_of_true (fun h => hnothing rfl h.1) id
  | inode => exact iff_of_true (fun h => hnothing rfl h.1) id

/-- Two AGFs that have only their UUIDs and checksums of their own compare alike, and agree in all
other bytes. -/
theorem missesNothing_agf : byteAt (agfOf 1) Agf.Off.uuid ≠ byteAt (agfOf 2) Agf.Off.uuid ∧
    Alike (Kind.agf.dump "ag[0].agf" (agfOf 1)) (Kind.agf.dump "ag[0].agf" (agfOf 2)) ∧
    AgreeOutside Kind.agf.ignored (agfOf 1) (agfOf 2) := by
  have hsized : Kind.agf.Sized (agfOf 1).length := by
    rw [length_agfOf]
    exact ⟨by norm_num, by norm_num⟩
  have hlen : (agfOf 1).length = (agfOf 2).length := by rw [length_agfOf, length_agfOf]
  have huuid : ∀ byte, byteAt (agfOf byte) Agf.Off.uuid = byte := fun byte => by
    have hempty : emptyAgf.length = 512 := by rw [emptyAgf, length_splice, List.length_replicate]
    rw [byteAt_agfOf (.inl (by decide)), byteAt_splice_of_mem le_rfl
      (by rw [List.length_replicate]; decide) (by rw [hempty]; decide), Nat.sub_self]
    rfl
  have halike : Alike (Kind.agf.dump "ag[0].agf" (agfOf 1)) (Kind.agf.dump "ag[0].agf" (agfOf 2)) :=
    (alike_dump_iff hsized rfl hlen.symm).mpr
      ⟨agreeOutside_agfOf 1 2, forall_others_agf.mpr ((verify_agfOf 1).trans (verify_agfOf 2).symm)⟩
  have hagree : AgreeOutside Kind.agf.ignored (agfOf 1) (agfOf 2) :=
    (missesNothing_iff .agf "ag[0].agf" (agfOf 1) (agfOf 2) hsized hlen).mpr (fun h => h) halike
  rw [huuid, huuid]
  exact ⟨by decide, halike, hagree⟩

/-- The same inode in the first unlinked bucket and in the second compares alike. -/
theorem missesSomething : ¬ ∀ (k : Kind) (p : String) (a b : Buf), k.Sized a.length →
    a.length = b.length → Alike (k.dump p a) (k.dump p b) → AgreeOutside k.ignored a b := by
  intro h
  have hsized : Kind.agi.Sized (unlinkedAt 0).length := by
    rw [length_unlinkedAt]
    exact ⟨by norm_num, by norm_num⟩
  have hlen : (unlinkedAt 0).length = (unlinkedAt 1).length := by
    rw [length_unlinkedAt, length_unlinkedAt]
  have hverify : ∀ bucket, Crc.verify (unlinkedAt bucket) Agi.Off.crc = true := fun bucket =>
    Crc.verify_stamp (by
      rw [length_splice, length_emptyAgi]
      decide)
  have hcrc : Agi.Off.crc = 312 := rfl
  have hunlinked : Agi.Off.unlinked = 40 := rfl
  have halike : Alike (Kind.agi.dump "ag[0].agi" (unlinkedAt 0))
      (Kind.agi.dump "ag[0].agi" (unlinkedAt 1)) := by
    refine (alike_dump_iff hsized rfl hlen.symm).mpr ⟨fun i hi hout => ?_,
      forall_others_agi.mpr ⟨?_, ?_⟩⟩
    · have hapart : ∀ r ∈ Kind.agi.ignored ++ Kind.agi.missed, ¬ (r.1 ≤ i ∧ i < r.1 + r.2) :=
        fun r hr hin => hout ⟨r, hr, hin⟩
      have hnotCrc := hapart (Agi.Off.crc, 4) (by decide)
      have hnotBuckets := hapart (Agi.Off.unlinked, 4 * unlinkedBuckets) (by decide)
      have hbuckets : 4 * unlinkedBuckets = 256 := rfl
      have hfive : (toBeBytes 4 5).length = 4 := rfl
      rw [byteAt_unlinkedAt (by omega), byteAt_unlinkedAt (by omega),
        byteAt_splice_of_not_mem (by omega), byteAt_splice_of_not_mem (by omega)]
    · rw [usedBuckets_unlinkedAt (by norm_num), usedBuckets_unlinkedAt (by norm_num)]
    · rw [hverify, hverify]
  have hsame := h .agi "ag[0].agi" _ _ hsized hlen halike 43
    (by rw [length_unlinkedAt]; norm_num) (by decide)
  rw [byteAt_unlinkedAt (by omega), byteAt_unlinkedAt (by omega)] at hsame
  exact absurd hsame (by decide +kernel)

end Missed

end MkfsXfs.Inspect
