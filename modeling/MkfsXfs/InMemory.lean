import MkfsXfs.Admin.Endures
import MkfsXfs.Sparse

/-!
A format and the calls after it on the device held in memory (`MemDevice` in `src/device.rs`).

* `Mirrors`: chunks that hold what a healthy disk does.  `Mirrors.step`: an operation that the
  device in memory admits is answered alike, and leaves them so.
* `format_in_memory`: a format and all calls after it run alike on the device in memory, strict
  or not, and on the disk.
* `format_resident`: what a format holds memory for is its metadata, not the device.
-/

namespace MkfsXfs

open Checked Inspect

/-- The chunks hold what the disk does, and nothing fails on the disk. -/
structure Mirrors (m : Chunks) (d : Disk) : Prop where
  shows : MemDevice.Shows m d
  healthy : d.Healthy

/-- The device in memory of that size with sectors of that size, strict or not. -/
def MemDevice.ofSize (strict : Bool) (size : UInt64) (logical : UInt32) : MemDevice :=
  ⟨size.toNat, logical.toNat, strict, size.toNat_lt⟩

/-- A program has one result in memory and on a disk, and leaves the same bytes. -/
structure RunsAlike {α : Type} (mem : MemDevice) (dev : Device) (p : DevM α) (m : Chunks)
    (d : Disk) : Prop where
  result : (Prog.run mem.step p m).1 = (dev.run p d).1
  mirrors : Mirrors (Prog.run mem.step p m).2 (dev.run p d).2

section Step

variable {strict : Bool} {size : UInt64} {logical : UInt32} {m : Chunks} {d : Disk} {op : DevOp}
  {bs sector : ℕ}

/-- Whole blocks and the first sector are admitted. -/
lemma MemDevice.admits_of_later (hdvd : logical.toNat ∣ bs) (hsector : logical.toNat ∣ sector)
    (hroom : sector ≤ size.toNat) (hop : op = .readAt 0 sector ∨ op.Whole bs size.toNat) :
    (MemDevice.ofSize strict size logical).Admits op.offset op.len := by
  rcases hop with rfl | hwhole
  · rw [← Nat.zero_add sector] at hroom
    exact ⟨hroom, fun _ => ⟨dvd_zero _, hsector⟩⟩
  · exact admits_of_whole hdvd hwhole

/-- **An operation that is admitted is done alike** in memory and on the disk. -/
lemma Mirrors.step (hpos : 0 < logical.toNat)
    (hreach : (MemDevice.ofSize strict size logical).reach ≤ 2 ^ 64 - memChunk)
    (hop : (MemDevice.ofSize strict size logical).Admits op.offset op.len) (h : Mirrors m d) :
    ((MemDevice.ofSize strict size logical).step op m).1 =
        ((Device.ofSize size logical).step op d).1 ∧
      Mirrors ((MemDevice.ofSize strict size logical).step op m).2
        ((Device.ofSize size logical).step op d).2 := by
  have hroom : op.offset + op.len ≤ (Device.ofSize size logical).size := hop.1
  have hflat := MemDevice.step_lockstep hpos hreach op h.shows
  rw [MemDevice.flatStep_of_admits hop] at hflat
  rw [Device.step_healthy op h.healthy hroom]
  exact ⟨hflat.1, hflat.2, @Disk.apply_healthy d [op] h.healthy⟩

/-- **A program that issues such operations runs alike.** -/
lemma Mirrors.runsAlike {α : Type} {p : DevM α} (hpos : 0 < logical.toNat)
    (hreach : (MemDevice.ofSize strict size logical).reach ≤ 2 ^ 64 - memChunk)
    (hdvd : logical.toNat ∣ bs) (hsector : logical.toNat ∣ sector) (hroom : sector ≤ size.toNat)
    (hp : ∀ op ∈ Prog.issued (Device.ofSize size logical).step p d,
      op = .readAt 0 sector ∨ op.Whole bs size.toNat) (h : Mirrors m d) :
    RunsAlike (MemDevice.ofSize strict size logical) (Device.ofSize size logical) p m d := by
  have hsim : ∀ op m d, (op = .readAt 0 sector ∨ op.Whole bs size.toNat) → Mirrors m d →
      ((MemDevice.ofSize strict size logical).step op m).1 =
          ((Device.ofSize size logical).step op d).1 ∧
        Mirrors ((MemDevice.ofSize strict size logical).step op m).2
          ((Device.ofSize size logical).step op d).2 := fun op m d hop hmd =>
    hmd.step hpos hreach (MemDevice.admits_of_later hdvd hsector hroom hop)
  obtain ⟨hresult, hmirrors⟩ := Prog.run_lockstep_issued hsim h hp
  exact ⟨hresult, hmirrors⟩

end Step

namespace Formatted

variable {params : Params} {size : UInt64} {logical physical : UInt32} {id : Identity}
  {order : List ℕ} {s : Setup} {strict : Bool} {m : Chunks} {d : Disk}

section Calls

variable (f : Formatted params size logical physical id order s)
  (hpow : logical.toNat.isPowerOfTwo)
  (hreach : (MemDevice.ofSize strict size logical).reach ≤ 2 ^ 64 - memChunk)

include f hpow hreach

/-- **The calls after a format run in memory as they do on a disk.** -/
lemma call_in_memory (h : Mirrors m d) (hd : s.Shown d.bytes) {α : Type} {p : DevM α}
    {call : Call} (hp : ∀ d, Prog.issued (Device.ofSize size logical).step p d =
      Prog.issued (Device.ofSize size logical).step (call.prog (Device.ofSize size logical)) d) :
    RunsAlike (MemDevice.ofSize strict size logical) (Device.ofSize size logical) p m d := by
  have hroom := f.sector_le
  refine h.runsAlike (Nat.pos_of_isPowerOfTwo hpow) hreach (f.accepted.logical_dvd hpow)
    (dvd_sector hpow) (by omega) fun op hop => ?_
  rw [hp] at hop
  exact (f.call_run (E := fun _ => True) (Device.serves _) (fun _ _ => trivial)
    (fun _ _ _ _ _ => trivial) hd call).1 op hop

/-- So do any number of them. -/
lemma leave_in_memory (h : Mirrors m d) (hd : s.Shown d.bytes) (calls : List Call) :
    Mirrors (Call.leave (MemDevice.ofSize strict size logical).step (Device.ofSize size logical)
        calls m)
      (Call.leave (Device.ofSize size logical).step (Device.ofSize size logical) calls d) := by
  induction calls generalizing m d with
  | nil => exact h
  | cons call calls ih =>
      exact ih (f.call_in_memory hpow hreach h hd fun _ => rfl).mirrors
        (f.leave_shown (Device.serves _) hd [call])

end Calls

end Formatted

/-- **A format and the calls after it run in memory as they do on a disk.**  The device held in
memory, strict or not, answers the format and all calls after it, dumps and looks at the log
with what they return, as a disk on which nothing fails does, and it holds the same bytes. -/
theorem format_in_memory (params : Params) (size : UInt64) (logical physical : UInt32)
    (id : Identity) (s : Setup) (hs : setup params size logical physical id = .ok s)
    (hpow : logical.toNat.isPowerOfTwo) (strict : Bool)
    (hreach : (MemDevice.ofSize strict size logical).reach ≤ 2 ^ 64 - memChunk) (order : List ℕ)
    (horder : Unordered agConcurrency (List.range s.g.agcount) order) (m : Chunks) (d : Disk)
    (hmd : Mirrors m d) :
    RunsAlike (MemDevice.ofSize strict size logical) (Device.ofSize size logical)
      (format params size logical physical id order) m d ∧
    ∀ m₀ d₀ report, Prog.run (MemDevice.ofSize strict size logical).step
        (format params size logical physical id order) m = (.ok report, m₀) →
      (Device.ofSize size logical).run (format params size logical physical id order) d =
        (.ok report, d₀) →
      ∀ (calls : List Call) m₁ d₁, Call.leave (MemDevice.ofSize strict size logical).step
          (Device.ofSize size logical) calls m₀ = m₁ →
        Call.leave (Device.ofSize size logical).step (Device.ofSize size logical) calls d₀ = d₁ →
        RunsAlike (MemDevice.ofSize strict size logical) (Device.ofSize size logical)
          (dump (Device.ofSize size logical)) m₁ d₁ ∧
        RunsAlike (MemDevice.ofSize strict size logical) (Device.ofSize size logical)
          (logState (Device.ofSize size logical)) m₁ d₁ ∧
        ∀ call : Call, RunsAlike (MemDevice.ofSize strict size logical)
          (Device.ofSize size logical) (call.prog (Device.ofSize size logical)) m₁ d₁ := by
  have hacc := compute_eq_ok.mp (setup_eq_ok.mp hs).1
  have hmem : ∀ i, i ∈ order ↔ i < s.g.agcount := fun i => by
    rw [horder.perm.mem_iff, List.mem_range]
  have hformat : RunsAlike (MemDevice.ofSize strict size logical) (Device.ofSize size logical)
      (format params size logical physical id order) m d := by
    have hmin := setup_agsMin hs
    refine hmd.runsAlike (Nat.pos_of_isPowerOfTwo hpow) hreach (hacc.logical_dvd hpow)
      (dvd_zero _) (Nat.zero_le _) fun op hop => .inr ?_
    exact (format_run (E := fun _ => True) hs hmin (fun i hi => (hmem i).mp hi)
      (fun _ _ => trivial) fun _ _ _ _ _ => trivial).1 op hop
  refine ⟨hformat, ?_⟩
  rintro m₀ d₀ report hm₀ hd₀ calls m₁ d₁ rfl rfl
  obtain ⟨f, -, hshown⟩ := Formatted.of_run hs horder hd₀
  have hmirrors : Mirrors m₀ d₀ := by
    have hboth := hformat.mirrors
    rwa [hm₀, hd₀] at hboth
  have hleft := f.leave_in_memory hpow hreach hmirrors hshown calls
  have hshown' : s.Shown (Call.leave (Device.ofSize size logical).step
      (Device.ofSize size logical) calls d₀).bytes :=
    f.leave_shown (Device.serves (Device.ofSize size logical)) hshown calls
  have hdump : ∀ d, Prog.issued (Device.ofSize size logical).step
      (dump (Device.ofSize size logical)) d = Prog.issued (Device.ofSize size logical).step
        (Call.dump.prog (Device.ofSize size logical)) d := fun d =>
    (Prog.issued_map fun _ => ()).symm
  have hlog : ∀ d, Prog.issued (Device.ofSize size logical).step
      (logState (Device.ofSize size logical)) d = Prog.issued (Device.ofSize size logical).step
        (Call.logState.prog (Device.ofSize size logical)) d := fun d =>
    (Prog.issued_map fun _ => ()).symm
  refine ⟨f.call_in_memory hpow hreach hleft hshown' hdump,
    f.call_in_memory hpow hreach hleft hshown' hlog, fun call => ?_⟩
  have hcall : ∀ d, Prog.issued (Device.ofSize size logical).step
      (call.prog (Device.ofSize size logical)) d = Prog.issued (Device.ofSize size logical).step
        (call.prog (Device.ofSize size logical)) d := fun _ => rfl
  exact f.call_in_memory hpow hreach hleft hshown' hcall

/-- A strict device of 512 MiB in memory, given a label and another UUID, is dumped as the disk
is. -/
theorem format_in_memory_512m : ∃ m₀ d₀,
    Prog.run (MemDevice.ofSize true 536870912 512).step
      (format {} 536870912 512 512 setup512m.id [0, 1, 2, 3]) Chunks.empty =
        (.ok setup512m.report, m₀) ∧
    (Device.ofSize 536870912 512).run
      (format {} 536870912 512 512 setup512m.id [0, 1, 2, 3]) Disk.blank =
        (.ok setup512m.report, d₀) ∧
    RunsAlike (MemDevice.ofSize true 536870912 512) (Device.ofSize 536870912 512)
      (dump (Device.ofSize 536870912 512))
      (Call.leave (MemDevice.ofSize true 536870912 512).step (Device.ofSize 536870912 512)
        [.setLabel "data", .setUuid zeroUuid] m₀)
      (Call.leave (Device.ofSize 536870912 512).step (Device.ofSize 536870912 512)
        [.setLabel "data", .setUuid zeroUuid] d₀) := by
  obtain ⟨d₀, hrun⟩ := exists_run_512m
  have hblank : Mirrors Chunks.empty Disk.blank := ⟨fun _ => rfl, rfl⟩
  have hreach : (MemDevice.ofSize true 536870912 512).reach ≤ 2 ^ 64 - memChunk :=
    (MemDevice.reach_le _).trans (by decide)
  obtain ⟨hformat, hcalls⟩ := format_in_memory {} 536870912 512 512 setup512m.id setup512m
    setup_512m ⟨9, rfl⟩ true hreach [0, 1, 2, 3] unordered_512m Chunks.empty
    Disk.blank hblank
  have hmem : (Prog.run (MemDevice.ofSize true 536870912 512).step
      (format {} 536870912 512 512 setup512m.id [0, 1, 2, 3]) Chunks.empty).1 =
        .ok setup512m.report := hformat.result.trans (congrArg Prod.fst hrun)
  obtain ⟨m₀, hm₀⟩ : ∃ m₀, Prog.run (MemDevice.ofSize true 536870912 512).step
      (format {} 536870912 512 512 setup512m.id [0, 1, 2, 3]) Chunks.empty =
        (.ok setup512m.report, m₀) := by
    rw [← hmem]
    exact ⟨_, Prod.mk.eta.symm⟩
  exact ⟨m₀, d₀, hm₀, hrun, (hcalls m₀ d₀ setup512m.report hm₀ hrun
    [.setLabel "data", .setUuid zeroUuid] _ _ rfl rfl).1⟩

/-! ### Memory -/

/-- The chunks that a range of bytes meets. -/
def ByteRange.chunks (r : ByteRange) : Finset ℕ :=
  Finset.Icc (r.start / memChunk) ((r.start + r.len) / memChunk)

lemma ByteRange.mem_chunks {r : ByteRange} {a : ℕ} (h : r.Holds a) : a / memChunk ∈ r.chunks :=
  Finset.mem_Icc.mpr ⟨Nat.div_le_div_right h.1, Nat.div_le_div_right h.2.le⟩

lemma ByteRange.card_chunks_le (r : ByteRange) : r.chunks.card ≤ r.len / memChunk + 2 := by
  have hc : memChunk = 65536 := rfl
  rw [chunks, Nat.card_Icc, hc]
  omega

namespace Setup

variable (s : Setup)

/-- Where the first record of the log goes. -/
def recordRange : ByteRange := ⟨s.logAt, s.g.bs⟩

/-- The chunks that the metadata meets. -/
def metaChunks : Finset ℕ :=
  (Finset.range s.g.agcount).biUnion (fun agno => (s.headRange agno).chunks) ∪
    (s.recordRange.chunks ∪ s.chunkRange.chunks)

/-- A bound on their number. -/
def metaChunkCount : ℕ :=
  s.g.agcount * (s.g.preallocBlocks * s.g.bs / memChunk + 2) +
    ((s.g.bs / memChunk + 2) + (s.g.chunkBlocks * s.g.bs / memChunk + 2))

lemma card_metaChunks_le : s.metaChunks.card ≤ s.metaChunkCount := by
  have hheads : ((Finset.range s.g.agcount).biUnion fun agno => (s.headRange agno).chunks).card ≤
      (Finset.range s.g.agcount).card * (s.g.preallocBlocks * s.g.bs / memChunk + 2) :=
    Finset.card_biUnion_le_card_mul _ _ _ fun agno _ => (s.headRange agno).card_chunks_le
  rw [Finset.card_range] at hheads
  refine (Finset.card_union_le _ _).trans (Nat.add_le_add hheads ?_)
  refine (Finset.card_union_le _ _).trans (Nat.add_le_add ?_ ?_)
  · exact s.recordRange.card_chunks_le
  · exact s.chunkRange.card_chunks_le

end Setup

/-- What is written inside a range fills chunks that the range meets. -/
lemma ByteRange.of_fills {r : ByteRange} {off idx : ℕ} {buf : Buf} (hstart : r.start = off)
    (hlen : buf.length ≤ r.len) (h : (DevOp.writeAt off buf).Fills idx) : idx ∈ r.chunks := by
  obtain ⟨a, rfl, hlo, hhi, -⟩ := h
  exact ByteRange.mem_chunks ⟨by omega, by omega⟩

/-- What the operation writes that is not zero is in chunks that the metadata meets. -/
def Setup.FillsMeta (s : Setup) (op : DevOp) : Prop := ∀ idx, op.Fills idx → idx ∈ s.metaChunks

section Resident

variable {params : Params} {size : UInt64} {logical physical : UInt32} {id : Identity}
  {order : List ℕ} {s : Setup} {agno off n : ℕ} {buf : Buf}

lemma Setup.fillsMeta_writeZeroes : s.FillsMeta (.writeZeroes off n) := fun _ h => h.elim

lemma Setup.fillsMeta_flush : s.FillsMeta .flush := fun _ h => h.elim

lemma Setup.fillsMeta_head (hag : agno < s.g.agcount) (hstart : (s.headRange agno).start = off)
    (hlen : buf.length ≤ (s.headRange agno).len) : s.FillsMeta (.writeAt off buf) := fun _ h =>
  Finset.mem_union_left _ (Finset.mem_biUnion.mpr
    ⟨agno, Finset.mem_range.mpr hag, ByteRange.of_fills hstart hlen h⟩)

lemma Setup.writeHeads_fills (hsep : s.Separate) (horder : ∀ agno ∈ order, agno < s.g.agcount) :
    (s.writeHeads order).Safe s.FillsMeta (fun _ => True) (fun _ => True) := by
  induction order with
  | nil => trivial
  | cons agno order ih =>
      have hag := horder agno List.mem_cons_self
      obtain ⟨head, hok, hlen⟩ := hsep.head agno hag
      have hone : (s.writeHead agno).Safe s.FillsMeta (fun _ => True) (fun _ => True) := by
        rw [writeHead, hok]
        exact safe_writeAt (Setup.fillsMeta_head hag rfl hlen.le) trivial
      exact hone.bind fun _ _ => ih fun a ha => horder a (List.mem_cons_of_mem agno ha)

lemma Setup.writeLog_fills (hsep : s.Separate) :
    s.writeLog.Safe s.FillsMeta (fun _ => True) (fun _ => True) := by
  obtain ⟨first, hfirst, hlen, -⟩ := hsep.log
  have hfills : s.FillsMeta (.writeAt s.logAt first) := fun _ h => Finset.mem_union_right _
    (Finset.mem_union_left _ (@ByteRange.of_fills s.recordRange _ _ _ rfl hlen.le h))
  rw [writeLog, hfirst]
  exact (safe_writeZeroes (Q := fun _ => True) Setup.fillsMeta_writeZeroes trivial).bind
    fun _ _ => safe_writeAt hfills trivial

lemma Setup.writeChunk_fills (hsep : s.Separate) :
    s.writeChunk.Safe s.FillsMeta (fun _ => True) (fun _ => True) := by
  rw [writeChunk]
  refine Prog.Safe.bind (Q := fun r => s.chunk = .ok r)
    (safe_ofExcept_of (fun _ _ => trivial) fun r hr => hr) fun r hr => ?_
  obtain ⟨agbno, inodes⟩ := r
  obtain ⟨rfl, hlen⟩ := hsep.chunk agbno inodes hr
  have hfills : s.FillsMeta (.writeAt (s.g.agbToByte 0 s.g.rootChunkAgbno) inodes) := fun _ h =>
    Finset.mem_union_right _ (Finset.mem_union_right _
      (@ByteRange.of_fills s.chunkRange _ _ _ rfl hlen.le h))
  exact (safe_writeAt (Q := fun _ => True) hfills trivial).bind fun _ _ =>
    safe_flush Setup.fillsMeta_flush trivial

/-- What a format writes that is not zero is its metadata. -/
lemma format_fills (hs : setup params size logical physical id = .ok s)
    (horder : ∀ agno ∈ order, agno < s.g.agcount) :
    (format params size logical physical id order).Safe s.FillsMeta (fun _ => True)
      (fun _ => True) := by
  have hacc := compute_eq_ok.mp (setup_eq_ok.mp hs).1
  have hplans := (setup_eq_ok.mp hs).2.1
  have hmin := setup_agsMin hs
  have hsep := Setup.separate hacc size.toNat_lt hmin (hacc.logFits size.toNat_lt hplans) hplans
  have hzero : 0 < s.g.agcount := by
    have := hacc.agcount_ge
    omega
  obtain ⟨head, hfin, hlen, hle⟩ := hsep.finished
  have hfinish : s.finish.Safe s.FillsMeta (fun _ => True) (fun _ => True) := by
    have hstart : (s.headRange 0).start = 0 := by
      change s.g.agbToByte 0 0 = 0
      rw [hacc.agbToByte_eq, Nat.zero_mul, Nat.zero_add, Nat.zero_mul]
    rw [Setup.finish, hfin]
    exact (safe_writeAt (Q := fun _ => True)
      (Setup.fillsMeta_head hzero hstart (hlen.trans_le hle)) trivial).bind fun _ _ =>
        safe_flush Setup.fillsMeta_flush trivial
  have hends : (s.zeroEnds size.toNat).Safe s.FillsMeta (fun _ => True) (fun _ => True) :=
    (safe_writeZeroes (Q := fun _ => True) Setup.fillsMeta_writeZeroes trivial).bind fun _ _ =>
      safe_writeZeroes Setup.fillsMeta_writeZeroes trivial
  rw [format_eq hs, Setup.body]
  refine Prog.Safe.bind (Q := fun _ => True) ?_ fun _ _ => hfinish.bind fun _ _ => trivial
  exact hends.bind fun _ _ => (Setup.writeLog_fills hsep).bind fun _ _ =>
    (Setup.writeHeads_fills hsep horder).bind fun _ _ => Setup.writeChunk_fills hsep

end Resident

/-- **A format holds memory for its metadata, not for the device.**  Whether it succeeds or not,
the chunks that a device in memory holds after it meet the head of an AG, the first record of
the log or the root inode chunk, and there are no more of them than these can meet. -/
theorem format_resident (params : Params) (size : UInt64) (logical physical : UInt32)
    (id : Identity) (s : Setup) (hs : setup params size logical physical id = .ok s)
    (hpos : 0 < logical.toNat) (strict : Bool)
    (hreach : (MemDevice.ofSize strict size logical).reach ≤ 2 ^ 64 - memChunk) (order : List ℕ)
    (horder : Unordered agConcurrency (List.range s.g.agcount) order) (r : Exec Report)
    (m₀ : Chunks) (hrun : Prog.run (MemDevice.ofSize strict size logical).step
      (format params size logical physical id order) Chunks.empty = (r, m₀)) :
    (∀ idx, (m₀ idx).isSome = true → idx ∈ s.metaChunks) ∧
    (MemDevice.ofSize strict size logical).resident m₀ ≤ s.metaChunkCount * memChunk := by
  have hags : ∀ agno ∈ order, agno < s.g.agcount := fun agno hag => by
    rwa [horder.perm.mem_iff, List.mem_range] at hag
  have hheld : ∀ idx, (m₀ idx).isSome = true → idx ∈ s.metaChunks := by
    have hkept := ((format_fills hs hags).run
      (h := (MemDevice.ofSize strict size logical).step)
      (fun m => ∀ idx, (m idx).isSome = true → idx ∈ s.metaChunks)
      (fun op m hop hm => ⟨fun idx hidx => ?_, fun _ _ => trivial⟩) (s := Chunks.empty) nofun).1
    · rwa [hrun] at hkept
    · rcases (MemDevice.held_step hpos hreach op).mp hidx with ⟨-, hfill⟩ | ⟨hsome, -⟩
      · exact hop idx hfill
      · exact hm idx hsome
  refine ⟨hheld, Nat.mul_le_mul_right _ ?_⟩
  have hsub : (m₀.keys 0 (MemDevice.ofSize strict size logical).chunkCount).toFinset ⊆
      s.metaChunks := fun idx hidx => by
    rw [List.mem_toFinset, Chunks.mem_keys] at hidx
    exact hheld idx hidx.2.2
  have hcard := Finset.card_le_card hsub
  rw [List.toFinset_card_of_nodup Chunks.nodup_keys] at hcard
  exact hcard.trans s.card_metaChunks_le

/-- A format of 512 MiB in memory. -/
theorem format_resident_512m :
    (MemDevice.ofSize true 536870912 512).resident
      (Prog.run (MemDevice.ofSize true 536870912 512).step
        (format {} 536870912 512 512 setup512m.id [0, 1, 2, 3]) Chunks.empty).2 ≤
      setup512m.metaChunkCount * memChunk := by
  have hreach : (MemDevice.ofSize true 536870912 512).reach ≤ 2 ^ 64 - memChunk :=
    (MemDevice.reach_le _).trans (by decide)
  have hpos : 0 < (512 : UInt32).toNat := by decide
  exact (format_resident {} 536870912 512 512 setup512m.id setup512m setup_512m
    hpos true hreach [0, 1, 2, 3] unordered_512m _ _ Prod.mk.eta.symm).2

end MkfsXfs
