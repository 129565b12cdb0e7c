import MkfsXfs.Format.Interrupted

/-!
What a format leaves does not depend on what was on the disk, nor on the order in which the
heads of the AGs are completed.

* `Accepted.extent_apart`, `Accepted.extent_le`: extents of blocks on the device.
* `Setup.Separate`: the heads, the log and the root inode chunk do not meet.
* `Setup.ops`, `run_format`: on a healthy disk a format is its operations.
* `Disk.bytes_apply_unique`: a byte that operations agree on.
* `format_determined`: the metadata are a function of the parameters and the device.
-/

namespace MkfsXfs

open Checked

/-! ### Extents of blocks -/

/-- The `n` blocks from block `agbno` of an AG on are blocks of it. -/
structure Geometry.HasExtent (g : Geometry) (agno agbno n : ℕ) : Prop where
  agno_lt : agno < g.agcount
  inside : ∃ len, g.agBlocks agno = .ok len ∧ agbno + n ≤ len

/-- A range of bytes. -/
structure ByteRange where
  start : ℕ
  len : ℕ

namespace ByteRange

/-- The range holds the byte at `a`. -/
def Holds (r : ByteRange) (a : ℕ) : Prop := r.start ≤ a ∧ a < r.start + r.len

/-- The two ranges have no byte in common. -/
def Disjoint (r r' : ByteRange) : Prop := ∀ a, r.Holds a → ¬ r'.Holds a

lemma Disjoint.symm {r r' : ByteRange} (h : r.Disjoint r') : r'.Disjoint r :=
  fun a ha ha' => h a ha' ha

lemma disjoint_of_le {r r' : ByteRange} (h : r.start + r.len ≤ r'.start) : r.Disjoint r' := by
  rintro a ⟨-, hlt⟩ ⟨hle, -⟩
  omega

end ByteRange

section Blocks

variable {params : Params} {dev logical physical : ℕ} {g : Geometry} {agno agbno n : ℕ}

/-- Extents of blocks in order do not meet. -/
lemma Accepted.extent_apart (h : Accepted params dev logical physical g) (hdev : dev < 2 ^ 64)
    {agno' agbno' : ℕ} (he : g.HasExtent agno agbno n)
    (hord : agno < agno' ∨ agno = agno' ∧ agbno + n ≤ agbno') :
    g.agbToByte agno agbno + n * g.bs ≤ g.agbToByte agno' agbno' := by
  obtain ⟨len, hlen, hin⟩ := he.inside
  have hle := h.len_le hdev he.agno_lt hlen
  have hbs : g.bs = g.blocksize := rfl
  rw [h.agbToByte_eq, h.agbToByte_eq, hbs, ← Nat.add_mul]
  refine Nat.mul_le_mul_right _ ?_
  rcases hord with hord | ⟨rfl, hord⟩
  · have hstep : (agno + 1) * g.agsize ≤ agno' * g.agsize := Nat.mul_le_mul_right _ hord
    rw [Nat.succ_mul] at hstep
    omega
  · omega

/-- Extents of blocks are on the device. -/
lemma Accepted.extent_le (h : Accepted params dev logical physical g) (hdev : dev < 2 ^ 64)
    (hc : g.Covered) (he : g.HasExtent agno agbno n) :
    g.agbToByte agno agbno + n * g.bs ≤ dev := by
  obtain ⟨len, hlen, hin⟩ := he.inside
  have hag := he.agno_lt
  have hsize := (Nat.mul_le_mul_right g.blocksize h.dblocks_le).trans h.asked_mul_le
  refine le_trans ?_ hsize
  have hbs : g.bs = g.blocksize := rfl
  rw [h.agbToByte_eq, hbs, ← Nat.add_mul]
  refine Nat.mul_le_mul_right _ ?_
  rw [Geometry.Covered] at hc
  rcases Nat.lt_or_ge (agno + 1) g.agcount with hbefore | hlast
  · have hle := h.len_le hdev hag hlen
    have hstep : (agno + 1) * g.agsize ≤ (g.agcount - 1) * g.agsize :=
      Nat.mul_le_mul_right _ (by omega)
    rw [Nat.succ_mul] at hstep
    omega
  · have hd : g.dblocks < 2 ^ 64 := by
      have h1 := h.dblocks_le
      have h2 := h.asked_lt hdev
      rw [h.askedBlocks_eq] at h2
      omega
    obtain ⟨hle, rfl⟩ := (Geometry.agBlocks_last_eq_ok (by omega) hd).mp hlen
    obtain rfl : agno = g.agcount - 1 := by omega
    omega

end Blocks

/-! ### The places of the metadata -/

namespace Setup

variable (s : Setup)

/-- Where the head of an AG goes. -/
def headRange (agno : ℕ) : ByteRange := ⟨s.g.agbToByte agno 0, s.g.preallocBlocks * s.g.bs⟩

/-- Where the log goes. -/
def logRange : ByteRange := ⟨s.logAt, s.g.logblocks * s.g.bs⟩

/-- Where the root inode chunk goes. -/
def chunkRange : ByteRange :=
  ⟨s.g.agbToByte 0 s.g.rootChunkAgbno, s.g.chunkBlocks * s.g.bs⟩

/-- What is written in place of the heads, the log and the root inode chunk is as long as they
are, and the three do not meet. -/
structure Separate : Prop where
  head : ∀ agno < s.g.agcount, ∃ head, s.head agno = .ok head ∧
    head.length = (s.headRange agno).len
  log : ∃ first, s.logBlock = .ok first ∧ first.length = s.g.bs ∧ s.g.bs ≤ s.logRange.len
  chunk : ∀ agbno inodes, s.chunk = .ok (agbno, inodes) → agbno = s.g.rootChunkAgbno ∧
    inodes.length = s.chunkRange.len
  finished : ∃ head, s.finishedHead = .ok head ∧ head.length = s.g.headerBlocks * s.g.bs ∧
    s.g.headerBlocks * s.g.bs ≤ (s.headRange 0).len
  heads : ∀ agno < s.g.agcount, ∀ agno' < s.g.agcount, agno ≠ agno' →
    (s.headRange agno).Disjoint (s.headRange agno')
  head_log : ∀ agno < s.g.agcount, (s.headRange agno).Disjoint s.logRange
  head_chunk : ∀ agno < s.g.agcount, (s.headRange agno).Disjoint s.chunkRange
  log_chunk : s.logRange.Disjoint s.chunkRange

end Setup

section Separate

variable {params : Params} {dev logical physical : ℕ} {s : Setup}

/-- The preallocated blocks are blocks of their AG. -/
lemma Accepted.extent_head (h : Accepted params dev logical physical s.g)
    (hmin : s.g.AgsMin) {agno : ℕ} (hag : agno < s.g.agcount) :
    s.g.HasExtent agno 0 s.g.preallocBlocks := by
  obtain ⟨len, hlen, hge⟩ := hmin agno hag
  have hp := h.preallocBlocks_bounds
  have hm := agMinBlocks_ge h.blocklog_le
  exact ⟨hag, len, hlen, by omega⟩

/-- The log's blocks are blocks of its AG. -/
lemma Geometry.LogFits.extent {g : Geometry} (hlog : g.LogFits) :
    g.HasExtent g.logagno g.logAgbno g.logblocks := ⟨hlog.agno_lt, hlog.inside⟩

/-- The root inode chunk is in AG 0. -/
lemma Accepted.extent_chunk (h : Accepted params dev logical physical s.g) :
    s.g.HasExtent 0 s.g.rootChunkAgbno s.g.chunkBlocks := by
  have hn := h.agcount_ge
  have hs := h.agsize_ge
  have hchunk := h.rootChunk_bounds
  exact ⟨by omega, s.g.agsize, Geometry.agBlocks_of_lt (by omega), by omega⟩

/-- The stripe unit of a log with sectors larger than a basic block is a block. -/
lemma Geometry.logsunit_wide {g : Geometry} (hw : g.lsectsize > 512) (hbs : 0 < g.blocksize) :
    g.logsunit = g.blocksize := by
  rw [Geometry.logsunit, Geometry.lsunitBytes, if_pos hw]
  cases hb : g.blocksize with
  | zero => omega
  | succ n => rfl

/-- A log with sectors of a basic block has no stripe unit. -/
lemma Geometry.logsunit_narrow {g : Geometry} (hw : ¬ g.lsectsize > 512) : g.logsunit = 1 := by
  rw [Geometry.logsunit, Geometry.lsunitBytes, if_neg hw]
  rfl

/-- A block is whole basic blocks, at least two. -/
lemma Accepted.bs_bounds {g : Geometry} (h : Accepted params dev logical physical g) :
    1024 ≤ g.bs ∧ g.bs ≤ 16384 ∧ g.bs % 512 = 0 := by
  have hbs : g.bs = 2 ^ g.blocklog := h.blocksize
  have hge : 2 ^ 10 ≤ 2 ^ g.blocklog := Nat.pow_le_pow_right (by norm_num) h.blocklog_ge
  have hle : 2 ^ g.blocklog ≤ 2 ^ 14 := Nat.pow_le_pow_right (by norm_num) h.blocklog_le
  have hdvd : 2 ^ 9 ∣ 2 ^ g.blocklog := pow_dvd_pow 2 (le_trans (by norm_num) h.blocklog_ge)
  rw [hbs]
  exact ⟨hge, hle, Nat.mod_eq_zero_of_dvd hdvd⟩

/-- The log's first record takes a block at most. -/
lemma Accepted.firstRecord_le (h : Accepted params dev logical physical s.g) :
    (Log.firstRecord s.id.uuid (Log.clearSunit s.g.logsunit
      (if s.g.sectsize > 512 then s.g.lsectsize else 0))).length ≤ s.g.bs := by
  obtain ⟨hge, hle, hwhole⟩ := h.bs_bounds
  rw [Log.firstRecord, Log.length_record, bbsize]
  by_cases hwide : s.g.sectsize > 512
  · have hunit : s.g.logsunit = s.g.bs :=
      Geometry.logsunit_wide (by rwa [h.lsectsize]) h.blocksize_pos
    rw [hunit, Log.clearSunit, if_neg (by omega), Log.recordLen_eq_max (by omega), bbsize, divCeil]
    omega
  · have hunit : s.g.logsunit = 1 := Geometry.logsunit_narrow (by rwa [h.lsectsize])
    rw [hunit, if_neg hwide, Log.clearSunit, if_pos rfl, Log.recordLen_zero]
    exact hge

/-- The log's first block holds its first record. -/
lemma Accepted.logBlock_ok (h : Accepted params dev logical physical s.g) :
    ∃ first, s.logBlock = .ok first ∧ first.length = s.g.bs := by
  have hle := h.firstRecord_le
  refine ⟨splice (List.replicate s.g.bs 0) 0 (Log.firstRecord s.id.uuid (Log.clearSunit
    s.g.logsunit (if s.g.sectsize > 512 then s.g.lsectsize else 0))), ?_,
    by rw [length_splice, List.length_replicate]⟩
  rw [Setup.logBlock, copyInto, if_pos]
  rwa [Nat.zero_add, List.length_replicate]

/-- Every AG has its plan. -/
lemma Setup.plan_ok (h : Accepted params dev logical physical s.g) (hdev : dev < 2 ^ 64)
    (hmin : s.g.AgsMin) (hplans : planAll s.g = .ok s.plans) {agno : ℕ}
    (hag : agno < s.g.agcount) :
    ∃ plan, s.plan agno = .ok plan ∧ plan.Of s.g agno ∧ planAg s.g agno = .ok plan := by
  obtain ⟨hlen, -⟩ := h.planned_at hdev hmin hplans
  have hlt : agno < s.plans.length := by omega
  have hplan : s.plan agno = .ok s.plans[agno] := by
    rw [Setup.plan, List.getElem?_eq_getElem hlt]
  have hmade := (Setup.plan_eq_ok hplans hplan).2
  exact ⟨_, hplan, h.plan_of hdev hmin hag hmade, hmade⟩

/-- The head of an AG is made, whatever its superblock says. -/
lemma Setup.agHead_ok (h : Accepted params dev logical physical s.g) (hdev : dev < 2 ^ 64)
    (hmin : s.g.AgsMin) (hplans : planAll s.g = .ok s.plans) {agno : ℕ}
    (hag : agno < s.g.agcount) (sbs : SbState) :
    ∃ plan head, s.plan agno = .ok plan ∧ agHead s.g plan s.id.uuid sbs = .ok head ∧
      head.length = s.g.preallocBlocks * s.g.bs := by
  obtain ⟨plan, hplan, hp, hmade⟩ := Setup.plan_ok h hdev hmin hplans hag
  obtain ⟨agf, -, -, -, -, heq⟩ := hp.agHead_eq h hmade
  refine ⟨plan, _, hplan, heq s.id.uuid sbs, ?_⟩
  rw [length_putFields, List.length_replicate]

/-- **The metadata of a format do not meet.** -/
lemma Setup.separate (h : Accepted params dev logical physical s.g) (hdev : dev < 2 ^ 64)
    (hmin : s.g.AgsMin) (hlog : s.g.LogFits) (hplans : planAll s.g = .ok s.plans) :
    s.Separate := by
  have hn := h.agcount_ge
  have hchunkAt := h.rootChunk_bounds.1
  have hlogno := h.logagno
  have hbytes := Nat.mul_le_mul_right s.g.bs s.g.headerBlocks_le
  constructor
  · intro agno hag
    obtain ⟨plan, head, hplan, hhead, hlen⟩ :=
      Setup.agHead_ok h hdev hmin hplans hag (s.agSbs agno)
    refine ⟨head, ?_, hlen⟩
    rw [Setup.head, hplan, ok_bind, hhead]
  · obtain ⟨first, hfirst, hlen⟩ := h.logBlock_ok
    have hblocks : 1 * s.g.bs ≤ s.g.logblocks * s.g.bs :=
      Nat.mul_le_mul_right _ h.logblocks_pos
    rw [Nat.one_mul] at hblocks
    exact ⟨first, hfirst, hlen, hblocks⟩
  · intro agbno inodes hchunk
    rw [Setup.chunk] at hchunk
    obtain ⟨plan, hplan, hchunk⟩ := bind_eq_ok.mp hchunk
    obtain ⟨-, hmade⟩ := Setup.plan_eq_ok hplans hplan
    obtain ⟨hp, -⟩ := h.plan_zero hdev hmade
    have hat := hp.planned.chunk
    rw [hp.agno_eq, if_pos rfl] at hat
    simp only [hat] at hchunk
    obtain ⟨inodes', hinodes, hpair⟩ := bind_eq_ok.mp hchunk
    obtain ⟨rfl, rfl⟩ := Prod.mk.inj (Except.ok.inj hpair)
    exact ⟨rfl, h.length_rootChunk hinodes⟩
  · obtain ⟨plan, head, hplan, hhead, hlen⟩ :=
      Setup.agHead_ok h hdev hmin hplans (show 0 < s.g.agcount by omega) s.finished
    refine ⟨head.take (s.g.headerBlocks * s.g.bs), ?_, ?_, hbytes⟩
    · rw [Setup.finishedHead, hplan, ok_bind, hhead]
      rfl
    · rw [List.length_take, hlen, min_eq_left hbytes]
  · intro agno hag agno' hag' hne
    rcases Nat.lt_or_gt_of_ne hne with hlt | hgt
    · exact ByteRange.disjoint_of_le
        (h.extent_apart hdev (h.extent_head hmin hag) (.inl hlt))
    · exact (ByteRange.disjoint_of_le
        (h.extent_apart hdev (h.extent_head hmin hag') (.inl hgt))).symm
  · intro agno hag
    have hhead := h.extent_head hmin hag
    rcases Nat.lt_trichotomy agno s.g.logagno with hlt | heq | hgt
    · exact ByteRange.disjoint_of_le (h.extent_apart hdev hhead (.inl hlt))
    · have hafter : 0 + s.g.preallocBlocks ≤ s.g.logAgbno := by
        rw [Nat.zero_add]
        exact hlog.after
      exact ByteRange.disjoint_of_le (h.extent_apart hdev hhead (.inr ⟨heq, hafter⟩))
    · exact (ByteRange.disjoint_of_le (h.extent_apart hdev hlog.extent (.inl hgt))).symm
  · intro agno hag
    have hhead := h.extent_head hmin hag
    rcases Nat.eq_zero_or_pos agno with rfl | hpos
    · exact ByteRange.disjoint_of_le
        (h.extent_apart hdev hhead (.inr ⟨rfl, by omega⟩))
    · exact (ByteRange.disjoint_of_le (h.extent_apart hdev h.extent_chunk (.inl hpos))).symm
  · exact (ByteRange.disjoint_of_le
      (h.extent_apart hdev h.extent_chunk (.inl (by omega)))).symm

end Separate

/-! ### A format on a healthy disk -/

/-- What was made, nothing when it failed. -/
def made (x : Exec Buf) : Buf :=
  match x with
  | .ok b => b
  | .error _ => []

namespace Setup

variable (s : Setup)

/-- The operations that zero the ends of the device. -/
def zeroOps (size : ℕ) : List DevOp :=
  let devEnd := size / s.g.bs * s.g.bs
  let tail := (devEnd - whackSize) / s.g.bs * s.g.bs
  [.writeZeroes 0 (min whackSize devEnd), .writeZeroes tail (devEnd - tail)]

/-- The operations that write the log. -/
def logOps : List DevOp :=
  [.writeZeroes s.logAt (s.g.logblocks * s.g.bs), .writeAt s.logAt (made s.logBlock)]

/-- The operation that writes the head of an AG. -/
def headOp (agno : ℕ) : DevOp := .writeAt (s.g.agbToByte agno 0) (made (s.head agno))

/-- The operations that write the root inode chunk, and the last write. -/
def lastOps : List DevOp :=
  match s.chunk with
  | .ok (agbno, inodes) =>
      [.writeAt (s.g.agbToByte 0 agbno) inodes, .flush, .writeAt 0 (made s.finishedHead), .flush]
  | .error _ => []

/-- The operations of a format. -/
def ops (size : ℕ) (order : List ℕ) : List DevOp :=
  s.zeroOps size ++ (s.logOps ++ (order.map s.headOp ++ s.lastOps))

/-- The result of a format. -/
def result : Exec Report := s.chunk >>= fun _ => .ok s.report

end Setup

section Healthy

variable {dev : Device} {d : Disk} {α β : Type} {p : DevM α} {f : α → DevM β} {a : α}
  {r : Exec β} {op : DevOp} {ops ops' : List DevOp} {s : Setup}

lemma Disk.apply_healthy (hd : d.Healthy) : (d.apply ops).Healthy := by
  refine Disk.apply_of_keeps (P := Disk.Healthy) (fun op _ d hd => ?_) hd
  cases op <;> exact hd

/-- A sequence of programs that are their operations. -/
lemma run_seq (hp : dev.run p d = (.ok a, d.apply ops))
    (hf : dev.run (f a) (d.apply ops) = (r, (d.apply ops).apply ops')) :
    dev.run (p >>= f) d = (r, d.apply (ops ++ ops')) := by
  rw [Device.run_bind_ok hp, hf, Disk.apply_append]

lemma run_writeAt_apply {off : ℕ} {buf : Buf} (hd : d.Healthy) (h : off + buf.length ≤ dev.size) :
    dev.run (writeAt off buf) d = (.ok (), d.apply [.writeAt off buf]) := Device.run_writeAt hd h

lemma run_writeZeroes_apply {off n : ℕ} (hd : d.Healthy) (h : off + n ≤ dev.size) :
    dev.run (writeZeroes off n) d = (.ok (), d.apply [.writeZeroes off n]) :=
  Device.run_writeZeroes hd h

lemma run_flush_apply (hd : d.Healthy) : dev.run flush d = (.ok (), d.apply [.flush]) :=
  Device.run_flush hd

lemma Setup.run_zeroEnds {size : ℕ} (hd : d.Healthy) (hsize : size ≤ dev.size) :
    dev.run (s.zeroEnds size) d = (.ok (), d.apply (s.zeroOps size)) := by
  have hend : size / s.g.bs * s.g.bs ≤ size := Nat.div_mul_le_self _ _
  have htail : (size / s.g.bs * s.g.bs - whackSize) / s.g.bs * s.g.bs
      ≤ size / s.g.bs * s.g.bs - whackSize := Nat.div_mul_le_self _ _
  exact run_seq (run_writeZeroes_apply hd (by omega))
    (run_writeZeroes_apply (Disk.apply_healthy hd) (by omega))

lemma Setup.run_writeLog (hs : s.Separate) (hd : d.Healthy)
    (hlog : s.logRange.start + s.logRange.len ≤ dev.size) :
    dev.run s.writeLog d = (.ok (), d.apply s.logOps) := by
  obtain ⟨first, hfirst, hlen, hle⟩ := hs.log
  have hmade : made s.logBlock = first := by rw [hfirst]; rfl
  have hin : s.logAt + s.g.logblocks * s.g.bs ≤ dev.size := hlog
  have hfirstIn : s.logAt + first.length ≤ dev.size := by
    rw [hlen]
    exact le_trans (Nat.add_le_add_left hle _) hlog
  rw [Setup.logOps, hmade, Setup.writeLog, hfirst]
  exact run_seq (run_writeZeroes_apply hd hin)
    (run_writeAt_apply (Disk.apply_healthy hd) hfirstIn)

lemma Setup.run_writeHeads (hs : s.Separate)
    (hin : ∀ agno < s.g.agcount, (s.headRange agno).start + (s.headRange agno).len ≤ dev.size)
    {order : List ℕ} (horder : ∀ agno ∈ order, agno < s.g.agcount) (hd : d.Healthy) :
    dev.run (s.writeHeads order) d = (.ok (), d.apply (order.map s.headOp)) := by
  induction order generalizing d with
  | nil => rfl
  | cons agno order ih =>
      have hag := horder agno List.mem_cons_self
      obtain ⟨head, hhead, hlen⟩ := hs.head agno hag
      have hmade : made (s.head agno) = head := by rw [hhead]; rfl
      have hbounds : s.g.agbToByte agno 0 + head.length ≤ dev.size := by
        rw [hlen]
        exact hin agno hag
      have hone : dev.run (s.writeHead agno) d = (.ok (), d.apply [s.headOp agno]) := by
        rw [Setup.headOp, hmade, Setup.writeHead, hhead]
        exact run_writeAt_apply hd hbounds
      exact run_seq hone (ih (fun agno' h' => horder agno' (List.mem_cons_of_mem agno h'))
        (Disk.apply_healthy hd))

/-- The end of a format: the root inode chunk and the last write, when the chunk is made. -/
lemma Setup.run_last (hs : s.Separate) (hd : d.Healthy)
    (hchunk : s.chunkRange.start + s.chunkRange.len ≤ dev.size)
    (hhead : (s.headRange 0).len ≤ dev.size) :
    dev.run (s.writeChunk >>= fun _ => s.finish >>= fun _ => Prog.pure s.report) d
      = (s.result, d.apply s.lastOps) := by
  cases hc : s.chunk with
  | error e =>
      have hops : s.lastOps = [] := by rw [Setup.lastOps, hc]
      have hresult : s.result = .error e := by rw [Setup.result, hc]; rfl
      rw [hops, hresult, Setup.writeChunk, hc]
      rfl
  | ok r =>
      obtain ⟨agbno, inodes⟩ := r
      obtain ⟨rfl, hlen⟩ := hs.chunk agbno inodes hc
      obtain ⟨head, hfin, hflen, hfle⟩ := hs.finished
      have hmade : made s.finishedHead = head := by rw [hfin]; rfl
      have hops : s.lastOps = [.writeAt (s.g.agbToByte 0 s.g.rootChunkAgbno) inodes, .flush] ++
          ([.writeAt 0 head, .flush] ++ []) := by
        rw [Setup.lastOps, hc, ← hmade]
        rfl
      have hresult : s.result = .ok s.report := by rw [Setup.result, hc]; rfl
      have hin : s.g.agbToByte 0 s.g.rootChunkAgbno + inodes.length ≤ dev.size := by
        rw [hlen]
        exact hchunk
      have hfirst : dev.run s.writeChunk d = (.ok (), d.apply
          [.writeAt (s.g.agbToByte 0 s.g.rootChunkAgbno) inodes, .flush]) := by
        rw [Setup.writeChunk, hc]
        exact run_seq (run_writeAt_apply hd hin) (run_flush_apply (Disk.apply_healthy hd))
      have hlast : ∀ d : Disk, d.Healthy →
          dev.run s.finish d = (.ok (), d.apply [.writeAt 0 head, .flush]) := by
        intro d hd
        rw [Setup.finish, hfin]
        exact run_seq (run_writeAt_apply hd (by omega)) (run_flush_apply (Disk.apply_healthy hd))
      rw [hops, hresult]
      exact run_seq hfirst (run_seq (hlast _ (Disk.apply_healthy hd)) rfl)

end Healthy

section Whole

variable {params : Params} {size : UInt64} {logical physical : UInt32} {id : Identity}
  {order : List ℕ} {s : Setup} {d : Disk}

/-- **On a healthy disk a format is its operations.** -/
lemma run_format (hs : setup params size logical physical id = .ok s) (hmin : s.g.AgsMin)
    (hlog : s.g.LogFits) (horder : ∀ agno ∈ order, agno < s.g.agcount) (hd : d.Healthy) :
    (Device.ofSize size logical).run (format params size logical physical id order) d
      = (s.result, d.apply (s.ops size.toNat order)) := by
  obtain ⟨hg, hplans, -, -⟩ := setup_eq_ok.mp hs
  have h := compute_eq_ok.mp hg
  have hdev := size.toNat_lt
  have hc := h.covered_of_min hdev hmin
  have hsep := Setup.separate h hdev hmin hlog hplans
  have hheads : ∀ agno < s.g.agcount, (s.headRange agno).start + (s.headRange agno).len
      ≤ (Device.ofSize size logical).size := fun agno hag =>
    h.extent_le hdev hc (h.extent_head hmin hag)
  have hzero : (s.headRange 0).len ≤ (Device.ofSize size logical).size := by
    have hn := h.agcount_ge
    exact le_trans (Nat.le_add_left _ _) (hheads 0 (by omega))
  rw [format_eq hs, Setup.ops, Setup.body]
  simp only [bind_assoc]
  refine run_seq (Setup.run_zeroEnds hd le_rfl) ?_
  refine run_seq (Setup.run_writeLog hsep (Disk.apply_healthy hd)
    (h.extent_le hdev hc hlog.extent)) ?_
  have hd₂ : ((d.apply (s.zeroOps size.toNat)).apply s.logOps).Healthy :=
    Disk.apply_healthy (Disk.apply_healthy hd)
  refine run_seq (Setup.run_writeHeads hsep hheads horder hd₂) ?_
  exact Setup.run_last hsep (Disk.apply_healthy hd₂) (h.extent_le hdev hc h.extent_chunk) hzero

end Whole

/-! ### What is left -/

/-- The byte at `a` is in the head of an AG, in the log or in the root inode chunk. -/
def Setup.Metadata (s : Setup) (a : ℕ) : Prop :=
  (∃ agno < s.g.agcount, (s.headRange agno).Holds a) ∨ s.logRange.Holds a ∨
    (∃ r, s.chunk = .ok r) ∧ s.chunkRange.Holds a

section Left

variable {s : Setup} {op : DevOp} {agno a size : ℕ}

/-- Writing the head of an AG touches its range. -/
lemma Setup.Separate.touches_head (hs : s.Separate) (hag : agno < s.g.agcount) :
    (s.headOp agno).Touches a ↔ (s.headRange agno).Holds a := by
  obtain ⟨head, hhead, hlen⟩ := hs.head agno hag
  have hmade : made (s.head agno) = head := by rw [hhead]; rfl
  rw [Setup.headOp, hmade, DevOp.Touches, hlen]
  rfl

/-- The last operations touch the root inode chunk and the header blocks of AG 0. -/
lemma Setup.Separate.touches_last (hs : s.Separate) (hop : op ∈ s.lastOps) (htouch : op.Touches a) :
    (∃ inodes, s.chunk = .ok (s.g.rootChunkAgbno, inodes) ∧ s.chunkRange.Holds a ∧
      op = .writeAt (s.g.agbToByte 0 s.g.rootChunkAgbno) inodes) ∨
    (∃ r, s.chunk = .ok r) ∧ a < s.g.headerBlocks * s.g.bs ∧
      op = .writeAt 0 (made s.finishedHead) := by
  rw [Setup.lastOps] at hop
  cases hc : s.chunk with
  | error e =>
      rw [hc] at hop
      cases hop
  | ok r =>
      obtain ⟨agbno, inodes⟩ := r
      obtain ⟨rfl, hlen⟩ := hs.chunk agbno inodes hc
      obtain ⟨head, hfin, hflen, -⟩ := hs.finished
      have hmade : made s.finishedHead = head := by rw [hfin]; rfl
      simp only [hc, List.mem_cons, List.not_mem_nil, or_false] at hop
      rcases hop with rfl | rfl | rfl | rfl
      · rw [DevOp.Touches, hlen] at htouch
        exact .inl ⟨inodes, rfl, htouch, rfl⟩
      · exact htouch.elim
      · rw [DevOp.Touches, hmade, hflen, Nat.zero_add] at htouch
        exact .inr ⟨⟨_, rfl⟩, htouch.2, rfl⟩
      · exact htouch.elim

/-- The last write touches the header blocks of AG 0. -/
lemma Setup.Separate.finish_mem (hs : s.Separate) (hc : ∃ r, s.chunk = .ok r)
    (ha : a < s.g.headerBlocks * s.g.bs) :
    DevOp.writeAt 0 (made s.finishedHead) ∈ s.lastOps ∧
      (DevOp.writeAt 0 (made s.finishedHead)).Touches a := by
  obtain ⟨⟨agbno, inodes⟩, hc⟩ := hc
  obtain ⟨head, hfin, hflen, -⟩ := hs.finished
  have hmade : made s.finishedHead = head := by rw [hfin]; rfl
  refine ⟨by rw [Setup.lastOps, hc]; simp, Nat.zero_le a, ?_⟩
  rwa [Nat.zero_add, hmade, hflen]

/-- The header blocks of AG 0 are in its head. -/
lemma Setup.Separate.holds_header (hs : s.Separate) (ha : a < s.g.headerBlocks * s.g.bs) :
    (s.headRange 0).Holds a := by
  obtain ⟨head, -, -, hle⟩ := hs.finished
  have hstart : (s.headRange 0).start = 0 := by
    rw [Setup.headRange, Geometry.agbToByte, Nat.zero_mul, Nat.zero_add, Nat.zero_shiftLeft]
  refine ⟨?_, ?_⟩ <;> omega

variable {order : List ℕ}

/-- A byte of the header blocks of AG 0 is left by the last write. -/
lemma Setup.Separate.left_header (hs : s.Separate) (hpos : 0 < s.g.agcount)
    (hc : ∃ r, s.chunk = .ok r) (ha : a < s.g.headerBlocks * s.g.bs) (d : Disk) :
    (d.apply (order.map s.headOp ++ s.lastOps)).bytes a = byteAt (made s.finishedHead) a := by
  obtain ⟨hmem, htouch⟩ := hs.finish_mem hc ha
  rw [Disk.apply_append]
  refine Disk.bytes_apply_unique ⟨_, hmem, htouch⟩ fun op hop htouch => ?_
  rcases hs.touches_last hop htouch with ⟨inodes, -, hchunk, -⟩ | ⟨-, -, rfl⟩
  · exact absurd hchunk (hs.head_chunk 0 hpos a (hs.holds_header ha))
  · rw [DevOp.byte, Nat.sub_zero]

/-- Any other byte in the head of an AG is left by that AG's operation. -/
lemma Setup.Separate.left_body (hs : s.Separate) (hag : agno < s.g.agcount)
    (hfin : ¬ ((∃ r, s.chunk = .ok r) ∧ a < s.g.headerBlocks * s.g.bs))
    (ha : (s.headRange agno).Holds a) (horder : ∀ i, i ∈ order ↔ i < s.g.agcount) (d : Disk) :
    (d.apply (order.map s.headOp ++ s.lastOps)).bytes a =
      byteAt (made (s.head agno)) (a - (s.headRange agno).start) := by
  have hmem : s.headOp agno ∈ order.map s.headOp ++ s.lastOps :=
    List.mem_append_left _ (List.mem_map_of_mem ((horder agno).mpr hag))
  refine Disk.bytes_apply_unique ⟨_, hmem, (hs.touches_head hag).mpr ha⟩ fun op hop htouch => ?_
  rcases List.mem_append.mp hop with hhead | hlast
  · obtain ⟨i, hi, rfl⟩ := List.mem_map.mp hhead
    have hi' := (horder i).mp hi
    by_cases heq : i = agno
    · rw [heq]
      rfl
    · exact absurd ha (hs.heads i hi' agno hag heq a ((hs.touches_head hi').mp htouch))
  · rcases hs.touches_last hlast htouch with ⟨inodes, -, hchunk, -⟩ | ⟨hc, hlt, -⟩
    · exact absurd hchunk (hs.head_chunk agno hag a ha)
    · exact absurd ⟨hc, hlt⟩ hfin

/-- A byte in the head of an AG is written by that AG's operation, or by the last write. -/
lemma Setup.Separate.left_head (hs : s.Separate) (hag : agno < s.g.agcount) (hpos : 0 < s.g.agcount)
    (ha : (s.headRange agno).Holds a) : ∃ v, ∀ (d : Disk) (order : List ℕ),
      (∀ i, i ∈ order ↔ i < s.g.agcount) →
      (d.apply (order.map s.headOp ++ s.lastOps)).bytes a = v := by
  by_cases hfin : (∃ r, s.chunk = .ok r) ∧ a < s.g.headerBlocks * s.g.bs
  · exact ⟨_, fun d order _ => hs.left_header hpos hfin.1 hfin.2 d⟩
  · exact ⟨_, fun d order horder => hs.left_body hag hfin ha horder d⟩

/-- Nothing after the log touches it. -/
lemma Setup.Separate.log_untouched (hs : s.Separate) (hpos : 0 < s.g.agcount)
    (ha : s.logRange.Holds a) (horder : ∀ i ∈ order, i < s.g.agcount) :
    ∀ op ∈ order.map s.headOp ++ s.lastOps, ¬ op.Touches a := by
  intro op hop htouch
  rcases List.mem_append.mp hop with hhead | hlast
  · obtain ⟨i, hi, rfl⟩ := List.mem_map.mp hhead
    have hi' := horder i hi
    exact hs.head_log i hi' a ((hs.touches_head hi').mp htouch) ha
  · rcases hs.touches_last hlast htouch with ⟨inodes, -, hchunk, -⟩ | ⟨-, hlt, -⟩
    · exact hs.log_chunk a ha hchunk
    · exact hs.head_log 0 hpos a (hs.holds_header hlt) ha

/-- A byte of the log is written with its first block, or zeroed. -/
lemma Setup.Separate.left_log (hs : s.Separate) (hpos : 0 < s.g.agcount)
    (ha : s.logRange.Holds a) (horder : ∀ i, i ∈ order ↔ i < s.g.agcount) (d : Disk) :
    (d.apply (s.logOps ++ (order.map s.headOp ++ s.lastOps))).bytes a =
      if a < s.logAt + s.g.bs then byteAt (made s.logBlock) (a - s.logAt) else 0 := by
  obtain ⟨first, hfirst, hlen, hle⟩ := hs.log
  have hmade : made s.logBlock = first := by rw [hfirst]; rfl
  have hzero : (DevOp.writeZeroes s.logAt (s.g.logblocks * s.g.bs)).Touches a := ha
  have hrest := hs.log_untouched hpos ha fun i hi => (horder i).mp hi
  split_ifs with hblock
  · have htouch : (DevOp.writeAt s.logAt (made s.logBlock)).Touches a := by
      rw [hmade, DevOp.Touches, hlen]
      exact ⟨ha.1, hblock⟩
    rw [Setup.logOps, List.cons_append, Disk.apply_cons]
    refine Disk.bytes_apply_unique ⟨_, List.mem_cons_self, htouch⟩ fun op hop hop' => ?_
    rcases List.mem_cons.mp hop with rfl | hmem
    · rfl
    · exact absurd hop' (hrest op hmem)
  · rw [Setup.logOps, List.cons_append, List.cons_append]
    refine Disk.bytes_apply_unique ⟨_, List.mem_cons_self, hzero⟩ fun op hop hop' => ?_
    rcases List.mem_cons.mp hop with rfl | hop
    · rfl
    rcases List.mem_cons.mp hop with rfl | hmem
    · rw [hmade, DevOp.Touches, hlen] at hop'
      exact absurd hop'.2 hblock
    · exact absurd hop' (hrest op hmem)

/-- A byte of the root inode chunk is written with it. -/
lemma Setup.Separate.left_chunk (hs : s.Separate) (hpos : 0 < s.g.agcount) {agbno : ℕ} {inodes : Buf}
    (hc : s.chunk = .ok (agbno, inodes)) (ha : s.chunkRange.Holds a) (d : Disk) :
    (d.apply s.lastOps).bytes a = byteAt inodes (a - s.chunkRange.start) := by
  obtain ⟨rfl, hlen⟩ := hs.chunk agbno inodes hc
  have htouch : (DevOp.writeAt (s.g.agbToByte 0 s.g.rootChunkAgbno) inodes).Touches a := by
    rw [DevOp.Touches, hlen]
    exact ha
  have hmem : DevOp.writeAt (s.g.agbToByte 0 s.g.rootChunkAgbno) inodes ∈ s.lastOps := by
    rw [Setup.lastOps, hc]
    exact List.mem_cons_self
  refine Disk.bytes_apply_unique ⟨_, hmem, htouch⟩ fun op hop htouch => ?_
  rcases hs.touches_last hop htouch with ⟨inodes', hc', -, rfl⟩ | ⟨-, hlt, -⟩
  · obtain ⟨-, rfl⟩ := Prod.mk.inj (Except.ok.inj (hc.symm.trans hc'))
    rfl
  · exact absurd ha (hs.head_chunk 0 hpos a (hs.holds_header hlt))

/-- **Every byte of the metadata is fixed.** -/
lemma Setup.Separate.left (hs : s.Separate) (hpos : 0 < s.g.agcount) (ha : s.Metadata a) :
    ∃ v, ∀ (d : Disk) (order : List ℕ), (∀ i, i ∈ order ↔ i < s.g.agcount) →
      (d.apply (s.ops size order)).bytes a = v := by
  rcases ha with ⟨agno, hag, hhead⟩ | hlog | ⟨hc, hchunk⟩
  · obtain ⟨v, hv⟩ := hs.left_head hag hpos hhead
    refine ⟨v, fun d order horder => ?_⟩
    rw [Setup.ops, Disk.apply_append, Disk.apply_append]
    exact hv _ order horder
  · refine ⟨if a < s.logAt + s.g.bs then byteAt (made s.logBlock) (a - s.logAt) else 0,
      fun d order horder => ?_⟩
    rw [Setup.ops, Disk.apply_append]
    exact hs.left_log hpos hlog horder _
  · obtain ⟨⟨agbno, inodes⟩, hc⟩ := hc
    refine ⟨byteAt inodes (a - s.chunkRange.start), fun d order horder => ?_⟩
    rw [Setup.ops, Disk.apply_append, Disk.apply_append, Disk.apply_append]
    exact hs.left_chunk hpos hc hchunk _

end Left

/-- **The metadata of a format do not depend on what was on the disk, nor on the order in which
the heads of the AGs are completed.**  The heads are written to ranges of their own, apart from
the log and the root inode chunk; the result and every byte of the metadata are fixed by the
parameters and the device. -/
theorem format_determined (params : Params) (size : UInt64) (logical physical : UInt32)
    (id : Identity) (s : Setup) (hs : setup params size logical physical id = .ok s)
    (hmin : s.g.AgsMin) (hlog : s.g.LogFits) :
    s.Separate ∧ ∃ (result : Exec Report) (image : ℕ → UInt8), ∀ (d : Disk) (order : List ℕ),
      d.Healthy → Unordered agConcurrency (List.range s.g.agcount) order →
      ∃ d', (Device.ofSize size logical).run (format params size logical physical id order) d
        = (result, d') ∧ ∀ a, s.Metadata a → d'.bytes a = image a := by
  obtain ⟨hg, hplans, -, -⟩ := setup_eq_ok.mp hs
  have h := compute_eq_ok.mp hg
  have hn := h.agcount_ge
  have hsep := Setup.separate h size.toNat_lt hmin hlog hplans
  have hfixed : ∀ a, ∃ v, s.Metadata a → ∀ (d : Disk) (order : List ℕ),
      (∀ i, i ∈ order ↔ i < s.g.agcount) → (d.apply (s.ops size.toNat order)).bytes a = v := by
    intro a
    by_cases ha : s.Metadata a
    · obtain ⟨v, hv⟩ := hsep.left (by omega) ha
      exact ⟨v, fun _ => hv⟩
    · exact ⟨0, fun h => absurd h ha⟩
  choose image himage using hfixed
  refine ⟨hsep, s.result, image, fun d order hd horder => ?_⟩
  have hmem : ∀ i, i ∈ order ↔ i < s.g.agcount := fun i => by
    rw [horder.perm.mem_iff, List.mem_range]
  exact ⟨_, run_format hs hmin hlog (fun i hi => (hmem i).mp hi) hd,
    fun a ha => himage a ha d order hmem⟩

/-- The metadata of 512 MiB. -/
theorem format_determined_512m : setup512m.Separate ∧ ∃ (result : Exec Report)
    (image : ℕ → UInt8), ∀ (d : Disk) (order : List ℕ), d.Healthy →
      Unordered agConcurrency (List.range setup512m.g.agcount) order →
      ∃ d', (Device.ofSize 536870912 512).run (format {} 536870912 512 512 setup512m.id order) d
        = (result, d') ∧ ∀ a, setup512m.Metadata a → d'.bytes a = image a :=
  format_determined {} 536870912 512 512 setup512m.id setup512m setup_512m agsMin_geo512m
    logFits_geo512m

end MkfsXfs
