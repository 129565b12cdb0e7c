import MkfsXfs.Admin.Labels
import MkfsXfs.Admin.Refusals
import MkfsXfs.Format.Whole
import MkfsXfs.Inspect.TreeWalk

/-!
The blocks of a formatted filesystem as calls go over them, once its geometry was read.

* `Setup.readGeo`: the geometry as it is read back; `Formatted.agOf` its AGs.
* `Look`: an operation that looks at whole blocks; `Setup.OnLog`: one on whole blocks of the log.
* `Formatted.dumpAgs_look`, `dumpLog_look`: a dump looks at whole blocks.
* `Formatted.findTail_look`, `clearLog_safe`: so does the search of the log, and its clear stays
  in it.
-/

namespace MkfsXfs

open Checked Sb Inspect

/-- The geometry that is read back, with the features `x`. -/
def Setup.readGeo (s : Setup) (x : ℕ) : Geo := { s.g.geo with incompat := x }

/-! ### The AGs as they are read -/

/-- The blocks of an AG for a reader. -/
lemma Setup.agLen_eq {s : Setup} {agno x len : ℕ} (hlen : s.g.agBlocks agno = .ok len) :
    (s.readGeo x).agLen agno = .ok len := by
  rw [Geometry.agBlocks] at hlen
  obtain ⟨last, hlast, hlen⟩ := bind_eq_ok.mp hlen
  have hlast' : (sub (s.readGeo x).agcount 1 : Exec ℕ) = .ok last := hlast
  rw [Geo.agLen, hlast', ok_bind]
  split_ifs at hlen ⊢ with heq
  · obtain ⟨before, hbefore, hsub⟩ := bind_eq_ok.mp hlen
    obtain ⟨-, rfl⟩ := fit_eq_ok.mp hbefore
    exact hsub
  · exact hlen

namespace Formatted

variable {params : Params} {size : UInt64} {logical physical : UInt32} {id : Identity}
  {order : List ℕ} {s : Setup} {agno agbno n x : ℕ} {op : DevOp} {α β : Type}

section Geometry

variable (f : Formatted params size logical physical id order s)

include f

/-- An operation on an extent of blocks. -/
lemma whole_extent (he : s.g.HasExtent agno agbno n) (hoff : op.offset = s.g.agbToByte agno agbno)
    (hlen : ∃ k ≤ n, op.len = k * s.g.bs) : op.Whole s.g.bs size.toNat :=
  f.accepted.whole_extent size.toNat_lt f.covered he hoff hlen

/-- Where a block is for a reader. -/
lemma byte_eq (hb : s.g.HasBlock agno agbno) :
    (s.readGeo x).byte agno agbno = s.g.agbToByte agno agbno := by
  have hle := f.accepted.byte_le size.toNat_lt (Nat.le_of_lt f.covered) hb
  have hsize := (Nat.mul_le_mul_right s.g.blocksize f.accepted.dblocks_le).trans
    f.accepted.asked_mul_le
  have hlt := size.toNat_lt
  have hbs : 0 < s.g.blocksize := f.accepted.blocksize_pos
  change (s.g.agbToByte agno agbno) % 2 ^ 64 = _
  exact Nat.mod_eq_of_lt (by omega)

/-- An AG, for the walk over its btrees. -/
lemma agOf (hag : agno < s.g.agcount) : ∃ len, (s.readGeo x).AgOf agno len ∧
    ∀ agbno < len, s.g.HasExtent agno agbno 1 := by
  obtain ⟨len, hlen, hmin⟩ := f.agsMin agno hag
  have hge := agMinBlocks_ge f.accepted.blocklog_le
  have hle := f.accepted.len_le size.toNat_lt hag hlen
  have hc := f.covered
  refine ⟨len, ⟨Setup.agLen_eq hlen, by omega, ?_, fun agbno hlt => ?_⟩,
    fun agbno hlt => ⟨hag, len, hlen, hlt⟩⟩
  · change agno * s.g.agsize + len ≤ s.g.dblocks
    rw [Geometry.Covered] at hc
    rcases Nat.lt_or_ge (agno + 1) s.g.agcount with hbefore | hlast
    · have hstep : (agno + 1) * s.g.agsize ≤ (s.g.agcount - 1) * s.g.agsize :=
        Nat.mul_le_mul_right _ (by omega)
      rw [Nat.succ_mul] at hstep
      omega
    · obtain ⟨-, rfl⟩ := (Geometry.agBlocks_last_eq_ok (by omega)
        (f.accepted.dblocks_lt size.toNat_lt)).mp hlen
      obtain rfl : agno = s.g.agcount - 1 := by omega
      omega
  · rw [f.byte_eq ⟨hag, len, hlen, hlt⟩, f.accepted.agbToByte_eq]
    rfl

end Geometry

end Formatted

/-! ### Operations -/

/-- The operation looks at whole blocks, and writes nothing. -/
structure Look (bs size : ℕ) (op : DevOp) : Prop where
  whole : op.Whole bs size
  quiet : Quiet op

/-- The operation is on whole blocks of the log. -/
structure Setup.OnLog (s : Setup) (size : ℕ) (op : DevOp) : Prop where
  whole : op.Whole s.g.bs size
  start : s.logAt ≤ op.offset
  room : op.offset + op.len ≤ s.logAt + s.g.logblocks * s.g.bs

/-- It writes in the log only. -/
lemma Setup.OnLog.inside {s : Setup} {size a : ℕ} {op : DevOp} (h : s.OnLog size op)
    (ha : op.Touches a) : s.logAt ≤ a ∧ a < s.logAt + s.g.logblocks * s.g.bs := by
  have hstart := h.start
  have hroom := h.room
  cases op with
  | readAt off n => exact ha.elim
  | writeAt off buf => exact ⟨hstart.trans ha.1, ha.2.trans_le hroom⟩
  | writeZeroes off n => exact ⟨hstart.trans ha.1, ha.2.trans_le hroom⟩
  | flush => exact ha.elim

lemma look_read {bs size off n : ℕ} (h : (DevOp.readAt off n).Whole bs size) :
    Look bs size (.readAt off n) := ⟨h, fun _ => id⟩

lemma look_flush (bs size : ℕ) : Look bs size .flush := ⟨DevOp.whole_flush _ _, fun _ => id⟩

namespace Formatted

variable {params : Params} {size : UInt64} {logical physical : UInt32} {id : Identity}
  {order : List ℕ} {s : Setup} {agno n x : ℕ} {op : DevOp}

section Superblocks

variable (f : Formatted params size logical physical id order s)

include f

/-- The block size of the device is that of its first sector. -/
lemma sector_le : max logical.toNat 512 ≤ s.g.bs ∧ s.g.bs ≤ size.toNat := by
  have hpos := f.agcount_pos
  have hblock : 1 * s.g.bs ≤ s.g.preallocBlocks * s.g.bs :=
    Nat.mul_le_mul_right _ (by have := f.accepted.preallocBlocks_bounds; omega)
  have hle := f.head_le hpos
  exact ⟨f.accepted.logical_le.trans f.accepted.sectsize_le, by omega⟩

/-- A superblock block. -/
lemma whole_superblock (hag : agno < s.g.agcount) {op : DevOp}
    (hoff : op.offset = s.g.geo.headAt agno) (hlen : op.len = s.g.bs) :
    op.Whole s.g.bs size.toNat := by
  have hpos := f.accepted.preallocBlocks_bounds
  exact f.whole_extent (f.accepted.extent_head f.agsMin hag) (hoff.trans f.headAt_eq)
    ⟨1, by omega, by rw [Nat.one_mul, hlen]⟩

end Superblocks

section Log

variable (f : Formatted params size logical physical id order s)

include f

/-- The log starts past the first sector. -/
lemma logAt_ge : 512 ≤ s.logAt := by
  have hblock := f.sector_le.1
  have hafter := f.fits.after
  have hpos := f.accepted.preallocBlocks_bounds
  have hone : 1 * s.g.bs ≤ (s.g.logagno * s.g.agsize + s.g.logAgbno) * s.g.bs :=
    Nat.mul_le_mul_right _ (by omega)
  have hat : s.logAt = (s.g.logagno * s.g.agsize + s.g.logAgbno) * s.g.bs :=
    f.accepted.agbToByte_eq
  omega

/-- Whole blocks of the log. -/
lemma on_log {a k : ℕ} {op : DevOp} (hoff : op.offset = s.logAt + a) (hlen : op.len = k)
    (ha : s.g.bs ∣ a) (hk : s.g.bs ∣ k) (hroom : a + k ≤ s.g.logblocks * s.g.bs) :
    s.OnLog size.toNat op := by
  have hlog := f.log_le
  have hat : s.g.bs ∣ s.logAt := f.accepted.bs_dvd_agbToByte
  refine ⟨⟨?_, ?_, by omega⟩, by omega, by omega⟩
  · rw [hoff]
    exact dvd_add hat ha
  · rwa [hlen]

lemma readGeo_logExtent : (s.readGeo x).logExtent =
    .ok (s.logAt, s.g.logblocks * s.g.bs / bbsize) := f.logExtent

/-- The reader of the log. -/
lemma readGeo_reader : LogReader.new (s.readGeo x) = .ok ⟨s.logAt, _, f.total_le⟩ := by
  rw [LogReader.new, f.readGeo_logExtent, ok_bind]
  exact dif_pos f.total_le

/-- The search of the log. -/
lemma findTail_look : (LogReader.findTail ⟨s.logAt, _, f.total_le⟩).Safe
    (Look s.g.bs size.toNat) Own (fun _ => True) := by
  obtain ⟨hbbs, -⟩ := f.bbs_eq
  have hsafe := LogReader.drive_windows (r := ⟨s.logAt, _, f.total_le⟩) (E := Own)
    (Log.findTail_safe (fun _ => .of_refusal trivial) .panic f.total_le) .panic
  refine Prog.Safe.mono hsafe (fun op hop => ?_) (fun _ h => h) fun _ _ => trivial
  obtain ⟨winAt, hdvd, hle, rfl⟩ := hop
  have hwindow : s.g.bs ∣ window := f.accepted.bs_dvd_two_pow (n := 18) (by decide)
  dsimp only at hle ⊢
  rw [hbbs] at hle ⊢
  have hrest : s.g.bs ∣ s.g.logblocks * s.g.bs - winAt :=
    Nat.dvd_sub (dvd_mul_left _ _) (hwindow.trans hdvd)
  exact look_read (f.on_log (k := min window (s.g.logblocks * s.g.bs - winAt)) rfl rfl
    (hwindow.trans hdvd) (dvd_min hwindow hrest) (by omega)).whole

omit f in
/-- A clear writes the whole log. -/
lemma clearTotal_eq {sunit bbs : ℕ} (hfirst : Fs.firstLen sunit ≤ 512) (hbbs : 512 ≤ bbs) :
    Fs.clearTotal sunit bbs = bbs * bbsize := by
  have hmax : bdstratSize / bbsize = 512 := by decide
  have hsum : 512 * bbsize + (bbs - 512) * bbsize = bbs * bbsize := by
    rw [← Nat.add_mul, Nat.add_sub_cancel' hbbs]
  have hle : Fs.firstLen sunit * bbsize ≤ 512 * bbsize := Nat.mul_le_mul_right _ hfirst
  rw [Fs.clearTotal, hmax, min_eq_left hbbs, Nat.add_sub_cancel' hle, hsum]

/-- The clear of the log is in the log. -/
lemma clearLog_safe {fs : Fs} (hfs : fs.geo = s.readGeo x) (uuid : Uuid) (cycle : ℕ) :
    (fs.clearLog uuid cycle).Safe (s.OnLog size.toNat) Own (fun _ => True) := by
  obtain ⟨hbbs, -⟩ := f.bbs_eq
  obtain ⟨hge, hle, hwhole⟩ := f.accepted.bs_bounds
  have hext : fs.geo.logExtent = .ok (s.logAt, s.g.logblocks * s.g.bs / bbsize) := by
    rw [hfs]
    exact f.readGeo_logExtent
  have hsunit : fs.geo.logsunit = s.g.geo.logsunit := by rw [hfs]; rfl
  have hchunk : s.g.bs ∣ MkfsXfs.chunk := f.accepted.bs_dvd_two_pow (n := 22) (by decide)
  have htotal := f.total_le
  have hfirst : Fs.firstLen fs.geo.logsunit ≤ 512 := by
    rw [hsunit, firstLen_eq]
    exact Log.recordLen_le (f.logsunit_le.trans (by decide))
  have hall : Fs.clearTotal fs.geo.logsunit (s.g.logblocks * s.g.bs / bbsize) =
      s.g.logblocks * s.g.bs := by
    rw [clearTotal_eq hfirst ((by decide : 512 ≤ totalRecBbs).trans htotal), hbbs]
  have hzero : s.OnLog size.toNat (.writeZeroes s.logAt
      (s.g.logblocks * s.g.bs / bbsize * bbsize)) := by
    rw [hbbs]
    exact f.on_log (Nat.add_zero _).symm rfl (dvd_zero _) (dvd_mul_left _ _) (Nat.zero_add _).le
  have hpieces : Chunked (s.OnLog size.toNat) s.logAt (Fs.clearTotal fs.geo.logsunit
      (s.g.logblocks * s.g.bs / bbsize)) := fun logAt buf hdvd hlen hroom => by
    rw [hall] at hroom
    exact f.on_log rfl hlen (hchunk.trans hdvd) hchunk hroom
  refine clearLog_pieces .panic (fun _ => .of_refusal trivial) fs uuid cycle hext hzero
    hpieces (fun logAt k buf hdvd hk hlen => ?_) fun logAt buf hdvd hlen => ?_
  · -- The first record is filled up to a block.
    have hup : k ≤ roundup k s.g.bs := le_divCeil_mul (by omega)
    have hblock : fs.geo.blocksize = s.g.bs := by rw [hfs]; rfl
    rw [hblock, Nat.add_sub_cancel' hup] at hlen
    have hmul : Fs.firstLen fs.geo.logsunit * bbsize ≤
        s.g.logblocks * s.g.bs / bbsize * bbsize := Nat.mul_le_mul_right _ (by
      have htwo := totalRecBbs_eq
      omega)
    have hrest : s.g.bs ∣ s.g.logblocks * s.g.bs - logAt :=
      Nat.dvd_sub (dvd_mul_left _ _) (hchunk.trans hdvd)
    have hroom := roundup_le (by omega : 0 < s.g.bs) hrest (by omega : k ≤ _)
    exact f.on_log rfl hlen (hchunk.trans hdvd) (dvd_mul_left _ _) (by omega)
  · rw [hall] at hlen
    have hrest : buf.length = s.g.logblocks * s.g.bs - logAt := by omega
    refine f.on_log rfl hrest (hchunk.trans hdvd) ?_ (by omega)
    exact Nat.dvd_sub (dvd_mul_left _ _) (hchunk.trans hdvd)

end Log

section Dump

variable (f : Formatted params size logical physical id order s)

include f

/-- Blocks of an AG. -/
lemma look_blocks {agbno k : ℕ} (he : s.g.HasExtent agno agbno n) (hk : k ≤ n) :
    Look s.g.bs size.toNat (.readAt (s.g.agbToByte agno agbno) (k * s.g.bs)) :=
  look_read (f.whole_extent he rfl ⟨k, hk, rfl⟩)

lemma dumpTree_look (hag : agno < s.g.agcount) (t : Tree) (root : ℕ) :
    (dumpTree (s.readGeo x) agno t root).Safe (Look s.g.bs size.toNat) Own (fun _ => True) := by
  obtain ⟨len, hof, hblock⟩ := f.agOf (x := x) hag
  refine (dumpTree_safe hof root).mono (fun op hop => ?_) (fun e he => ?_) fun _ h => h
  · obtain ⟨agbno, hlt, rfl⟩ := hop
    have hlook := f.look_blocks (hblock agbno hlt) le_rfl
    rw [f.accepted.agbToByte_eq, Nat.one_mul] at hlook
    exact hlook
  · obtain ⟨msg, rfl⟩ := he
    exact .of_refusal trivial

lemma dumpTreeIf_look (hag : agno < s.g.agcount) (on : Bool) (t : Tree) (root : ℕ) :
    (dumpTreeIf on (s.readGeo x) agno t root).Safe (Look s.g.bs size.toNat) Own
      (fun _ => True) := by
  rw [dumpTreeIf]
  split
  · exact (f.dumpTree_look hag t root).bind fun _ _ => trivial
  · trivial

lemma readInode_look (hag : agno < s.g.agcount) (startino agino : ℕ) :
    (readInode (s.readGeo x) agno startino agino).Safe (Look s.g.bs size.toNat) Own
      (fun _ => True) := by
  obtain ⟨len, hof, hblock⟩ := f.agOf (x := x) hag
  rw [readInode]
  refine Prog.Safe.bind (Q := fun _ => True) (safe_ofExcept_of (fun e he => ?_) fun _ _ => trivial)
    fun r _ => ?_
  · rw [inodeAt, shr64, Inspect.shl64] at he
    split_ifs at he
    · cases he
    · cases he
      exact .panic
  · obtain ⟨agbno, slot⟩ := r
    rw [hof.agLen]
    refine Prog.Safe.bind (Q := (· = len)) rfl fun len' hlen => ?_
    subst hlen
    split
    · exact .of_refusal trivial
    · rename_i hin
      have hlt := Nat.not_le.1 hin
      have hlook := f.look_blocks (hblock agbno hlt) le_rfl
      rw [f.accepted.agbToByte_eq, Nat.one_mul] at hlook
      rw [hof.byte agbno hlt]
      refine (safe_readAt (Q := fun _ => True) hlook fun _ _ => trivial).bind fun block _ => ?_
      refine Prog.Safe.bind (Q := fun _ => True) (safe_ofExcept_of (fun e he => ?_)
        fun _ _ => trivial) fun ino _ => ?_
      · rw [inodeNumber, Inspect.shl64] at he
        split_ifs at he
        · cases he
        · cases he
          exact .panic
      · refine Prog.Safe.bind (Q := fun _ => True) (safe_ofExcept_of (fun e he => ?_)
          fun _ _ => trivial) fun b _ => trivial
        rw [sliceAt] at he
        split_ifs at he
        cases he
        exact .panic

lemma dumpInodes_look (hag : agno < s.g.agcount) (startino : ℕ) : ∀ is : List ℕ,
    (dumpInodes (s.readGeo x) agno startino is).Safe (Look s.g.bs size.toNat) Own (fun _ => True)
  | [] => trivial
  | i :: is => (f.readInode_look hag startino (startino + i)).bind fun _ _ =>
      (dumpInodes_look hag startino is).bind fun _ _ => trivial

lemma dumpChunks_look (hag : agno < s.g.agcount) (sparse : Bool) : ∀ chunks : List Buf,
    (dumpChunks (s.readGeo x) agno sparse chunks).Safe (Look s.g.bs size.toNat) Own
      (fun _ => True)
  | [] => trivial
  | _ :: chunks => (f.dumpInodes_look hag _ _).bind fun _ _ =>
      (dumpChunks_look hag sparse chunks).bind fun _ _ => trivial

lemma dumpTrees_look (hag : agno < s.g.agcount) (agf agi : Buf) :
    (dumpTrees (s.readGeo x) agno agf agi).Safe (Look s.g.bs size.toNat) Own (fun _ => True) := by
  rw [dumpTrees]
  refine (f.dumpTree_look hag bnobt _).bind fun _ _ => ?_
  refine (f.dumpTree_look hag cntbt _).bind fun _ _ => ?_
  refine (f.dumpTreeIf_look hag _ rmapbt _).bind fun _ _ => ?_
  refine (f.dumpTreeIf_look hag _ refcbt _).bind fun _ _ => ?_
  refine (f.dumpTree_look hag inobt _).bind fun _ _ => ?_
  refine (f.dumpTreeIf_look hag _ finobt _).bind fun _ _ => ?_
  exact (f.dumpChunks_look hag _ _).bind fun _ _ => trivial

lemma dumpAg_look (hag : agno < s.g.agcount) :
    (dumpAg (s.readGeo x) agno).Safe (Look s.g.bs size.toNat) Own (fun _ => True) := by
  obtain ⟨len, hof, -⟩ := f.agOf (x := x) hag
  have hlook := f.look_blocks (f.accepted.extent_head f.agsMin hag) s.g.headerBlocks_le
  have hbyte : (s.readGeo x).byte agno 0 = s.g.agbToByte agno 0 := by
    rw [hof.byte 0 hof.pos, f.accepted.agbToByte_eq]
    rfl
  rw [dumpAg, hbyte]
  refine (safe_readAt (Q := fun _ => True) hlook fun _ _ => trivial).bind fun head _ => ?_
  dsimp only
  split
  · trivial
  · exact (f.dumpTrees_look hag _ _).bind fun _ _ => trivial

lemma dumpAgs_look : ∀ n agno, agno + n ≤ s.g.agcount →
    (dumpAgs (s.readGeo x) agno n).Safe (Look s.g.bs size.toNat) Own (fun _ => True)
  | 0, _, _ => trivial
  | n + 1, agno, hn => (f.dumpAg_look (by omega)).bind fun _ _ =>
      (dumpAgs_look n (agno + 1) (by omega)).bind fun _ _ => trivial

/-- The scan of the log from block to block. -/
lemma scanLog_look (pos : ℕ) (hdvd : s.g.bs ∣ pos) :
    (scanLog (s.readGeo x) s.logAt (s.g.logblocks * s.g.bs) pos).Safe (Look s.g.bs size.toNat) Own
      (fun _ => True) := by
  induction hk : s.g.logblocks * s.g.bs - pos using Nat.strong_induction_on generalizing pos with
  | _ k ih =>
      rw [scanLog]
      split
      · rename_i hlt
        have hscan : s.g.bs ∣ scanSize := f.accepted.bs_dvd_two_pow (n := 20) (by decide)
        have hpos := scanSize_pos
        have hrest : s.g.bs ∣ s.g.logblocks * s.g.bs - pos := Nat.dvd_sub (dvd_mul_left _ _) hdvd
        have hmin := dvd_min hscan hrest
        refine (safe_fit .panic _ _).bind fun off hoff => ?_
        subst hoff
        refine (safe_readAt (Q := fun _ => True) (look_read (f.on_log
          (k := min scanSize (s.g.logblocks * s.g.bs - pos)) rfl rfl hdvd hmin (by omega)).whole)
          fun _ _ => trivial).bind fun buf _ => ?_
        exact (ih _ (by omega) _ (dvd_add hdvd hmin) rfl).bind fun _ _ => trivial
      · trivial

lemma dumpLog_look :
    (dumpLog (s.readGeo x)).Safe (Look s.g.bs size.toNat) Own (fun _ => True) := by
  have hb := f.accepted.hasBlock_log f.fits
  obtain ⟨-, hag, hagb⟩ := f.accepted.fsb size.toNat_lt hb
  have hat : (s.readGeo x).byte ((s.readGeo x).logstart >>> (s.readGeo x).agblklog)
      ((s.readGeo x).logstart &&& (2 ^ (s.readGeo x).agblklog - 1)) = s.logAt := by
    have hag' : (s.readGeo x).logstart >>> (s.readGeo x).agblklog = s.g.logagno := hag
    have hagb' : (s.readGeo x).logstart &&& (2 ^ (s.readGeo x).agblklog - 1) = s.g.logAgbno := hagb
    rw [hag', hagb', f.byte_eq hb]
    rfl
  have hfirst : Look s.g.bs size.toNat (.readAt s.logAt s.g.bs) := by
    have hone : 1 * s.g.bs ≤ s.g.logblocks * s.g.bs :=
      Nat.mul_le_mul_right _ f.accepted.logblocks_pos
    exact look_read (f.on_log (k := s.g.bs) (Nat.add_zero _).symm rfl (dvd_zero _) dvd_rfl
      (by omega)).whole
  rw [dumpLog, hat]
  refine (safe_readAt (Q := fun _ => True) hfirst fun _ _ => trivial).bind fun first _ => ?_
  exact (f.scanLog_look s.g.bs dvd_rfl).bind fun _ _ => trivial

end Dump

end Formatted

end MkfsXfs
