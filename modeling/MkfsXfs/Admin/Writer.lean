import MkfsXfs.Admin.Open

/-!
What the log writer leaves on the disk.

* `Pushed`: the run of a writer that has been given the stream `S`: its whole chunks are on
  the disk and the rest is in the buffer, or the device ended before a chunk.
  `Pushed.bind` composes runs along `++`.
* `run_drain`, `run_push`, `run_pushZeroes`: each operation of the writer pushes its bytes.
* `Fs.recordsStream`, `run_clearRecords`: the chain of records as one stream.
* `run_finish`: what is left goes out last.
-/

namespace MkfsXfs

open Checked

/-- The whole chunks of `n` bytes. -/
def whole (n : ℕ) : ℕ := n / chunk * chunk

lemma whole_le (n : ℕ) : whole n ≤ n := Nat.div_mul_le_self n chunk

lemma lt_whole_add (n : ℕ) : n < whole n + chunk := Nat.lt_div_mul_add (by decide)

lemma whole_mono {m n : ℕ} (h : m ≤ n) : whole m ≤ whole n :=
  Nat.mul_le_mul_right _ (Nat.div_le_div_right h)

/-- What lies between two chunks. -/
lemma whole_eq_of_lt {m n : ℕ} (hm : whole m = m) (hl : m ≤ n) (hr : n < m + chunk) :
    whole n = m := by
  obtain ⟨k, rfl⟩ : ∃ k, m = k * chunk := ⟨_, hm.symm⟩
  rw [whole, Nat.div_eq_of_lt_le hl (by rwa [Nat.succ_mul])]

lemma whole_add_chunk {m : ℕ} (hm : whole m = m) : whole (m + chunk) = m + chunk := by
  rw [whole, Nat.add_div_right m (by decide), Nat.succ_mul]
  exact congrArg (· + chunk) hm

/-- Rounding up stays below a multiple. -/
lemma roundup_le {n m c : ℕ} (hm : 0 < m) (hc : m ∣ c) (hn : n ≤ c) : roundup n m ≤ c := by
  obtain ⟨k, rfl⟩ := hc
  have hceil : divCeil n m ≤ k := by
    rw [divCeil, ← Nat.lt_succ_iff, Nat.div_lt_iff_lt_mul hm, Nat.succ_mul, Nat.mul_comm]
    omega
  rw [roundup, Nat.mul_comm]
  exact Nat.mul_le_mul_left m hceil

lemma whole_whole (n : ℕ) : whole (whole n) = whole n := by
  rw [whole, whole, Nat.mul_div_left _ (by decide)]

/-- The writer after `S` was pushed. -/
def LogWriter.after (start : ℕ) (S : Buf) : LogWriter :=
  ⟨start, whole S.length, S.drop (whole S.length)⟩

section Pushed

variable {α β : Type} {dev : Device} {d : Disk} {start : ℕ} {S T : Buf}

/-- The run ended in an error, the chunks of `S` that the device has room for being written. -/
def Stopped (dev : Device) (d : Disk) (start : ℕ) (S : Buf)
    (r : Except (Fault Error) α × Disk) : Prop :=
  ∃ e, r = (.error e, d.put start (S.take (min (whole S.length) (whole (dev.size - start)))))

/-- `S` was pushed: the device has room for its whole chunks and holds them, or the run ended
with those it has room for. -/
def Pushed (dev : Device) (d : Disk) (start : ℕ) (S : Buf)
    (r : Except (Fault Error) LogWriter × Disk) : Prop :=
  if whole S.length ≤ dev.size - start then
    r = (.ok (LogWriter.after start S), d.put start (S.take (whole S.length)))
  else Stopped dev d start S r

/-- What stopped for want of room would have stopped later too. -/
lemma Stopped.append {r : Except (Fault Error) α × Disk} {r' : Except (Fault Error) β × Disk}
    (hr : Stopped dev d start S r) (hroom : dev.size - start < whole S.length)
    (hr' : ∀ e d', r = (.error e, d') → r' = (.error e, d')) :
    Stopped dev d start (S ++ T) r' := by
  have hmono : whole S.length ≤ whole (S ++ T).length :=
    whole_mono (by rw [List.length_append]; omega)
  have hS := whole_le S.length
  have hle := whole_le (dev.size - start)
  obtain ⟨e, he⟩ := hr
  refine ⟨e, (hr' e _ he).trans ?_⟩
  rw [min_eq_right (by omega), min_eq_right (by omega), List.take_append_of_le_length (by omega)]

/-- **Runs compose along `++`**: where the rest pushes `T` after `S`, both push `S ++ T`. -/
lemma Pushed.bind {p : DevM LogWriter} {f : LogWriter → DevM LogWriter}
    {d₀ : Disk} (hp : Pushed dev d start S (dev.run p d₀))
    (hf : whole S.length ≤ dev.size - start → Pushed dev d start (S ++ T)
      (dev.run (f (LogWriter.after start S)) (d.put start (S.take (whole S.length))))) :
    Pushed dev d start (S ++ T) (dev.run (p >>= f) d₀) := by
  rw [Pushed] at hp
  split at hp
  · rename_i hroom
    rw [Device.run_bind_ok hp]
    exact hf hroom
  · rename_i hroom
    have hmono : whole S.length ≤ whole (S ++ T).length :=
      whole_mono (by rw [List.length_append]; omega)
    rw [Pushed, if_neg (by omega)]
    exact hp.append (by omega) fun e d' he => Device.run_bind_error he

/-- The same where the rest stops. -/
lemma Pushed.bind_stopped {p : DevM LogWriter} {f : LogWriter → DevM α} {d₀ : Disk}
    (hp : Pushed dev d start S (dev.run p d₀))
    (hf : whole S.length ≤ dev.size - start → Stopped dev d start (S ++ T)
      (dev.run (f (LogWriter.after start S)) (d.put start (S.take (whole S.length))))) :
    Stopped dev d start (S ++ T) (dev.run (p >>= f) d₀) := by
  rw [Pushed] at hp
  split at hp
  · rename_i hroom
    rw [Device.run_bind_ok hp]
    exact hf hroom
  · exact hp.append (by omega) fun e d' he => Device.run_bind_error he

/-- What stopped goes no further. -/
lemma Stopped.bind {p : DevM α} {f : α → DevM β} {d₀ : Disk}
    (hp : Stopped dev d start S (dev.run p d₀)) :
    Stopped dev d start S (dev.run (p >>= f) d₀) := by
  obtain ⟨e, hrun⟩ := hp
  exact ⟨e, Device.run_bind_error hrun⟩

/-- Draining a buffer behind the chunks `P`. -/
lemma run_drain (dev : Device) (start : ℕ) (hd : d.Healthy) (P b : Buf)
    (hP : whole P.length = P.length) (hroom : P.length ≤ dev.size - start) :
    Pushed dev d start (P ++ b)
      (dev.run (LogWriter.drain ⟨start, P.length, b⟩) (d.put start P)) := by
  induction hk : b.length using Nat.strong_induction_on generalizing P b with
  | _ k ih =>
      have hlen : (P ++ b).length = P.length + b.length := List.length_append
      have hchunk_pos : 0 < chunk := by decide
      have hsize := dev.size_lt
      rw [LogWriter.drain]
      dsimp only
      split
      · rename_i hchunk
        have htake : (b.take chunk).length = chunk := List.length_take_of_le hchunk
        by_cases hfits : P.length + chunk ≤ dev.size - start
        · -- The chunk is written, and the rest follows by induction.
          have hstep : dev.run (writeAt (start + P.length) (b.take chunk)) (d.put start P) =
              (.ok (), d.put start (P ++ b.take chunk)) := by
            have hsize : start + P.length + (b.take chunk).length ≤ dev.size := by omega
            rw [Device.run_writeAt (Disk.put_healthy.2 hd) hsize, Disk.put_put]
          have hnext := ih (b.drop chunk).length (by rw [List.length_drop]; omega)
            (P ++ b.take chunk) (b.drop chunk)
            (by rw [List.length_append, htake]; exact whole_add_chunk hP)
            (by rw [List.length_append, htake]; exact hfits) rfl
          rw [List.append_assoc, List.take_append_drop, List.length_append, htake] at hnext
          have hoff : (fit 64 (start + P.length) : Exec ℕ) = .ok (start + P.length) :=
            fit_of_lt (by omega)
          have hrun := Device.run_bind_ok (f := fun _ =>
            LogWriter.drain ⟨start, P.length + chunk, b.drop chunk⟩) hstep
          rw [hoff]
          exact hrun ▸ hnext
        · -- The chunk does not fit: nothing more is written.
          have hstop : ∃ e, dev.run (do
              let offset ← Prog.ofExcept (fit 64 (start + P.length))
              writeAt offset (b.take chunk)
              LogWriter.drain ⟨start, P.length + chunk, b.drop chunk⟩) (d.put start P) =
                (.error e, d.put start P) := by
            rw [fit]
            split
            · have hout : dev.size < start + P.length + (b.take chunk).length := by omega
              exact ⟨_, (Device.run_bind_ok rfl).trans (Device.run_bind_error
                (Device.run_writeAt_outOfBounds (Disk.put_healthy.2 hd) hout))⟩
            · exact ⟨_, rfl⟩
          obtain ⟨e, hrun⟩ := hstop
          have hwhole : whole (dev.size - start) = P.length :=
            whole_eq_of_lt hP hroom (by omega)
          have hmore : P.length + chunk ≤ whole (P ++ b).length := by
            rw [← whole_add_chunk hP]
            exact whole_mono (by omega)
          rw [Pushed, if_neg (by omega)]
          refine ⟨e, hrun.trans ?_⟩
          rw [min_eq_right (by omega), hwhole, List.take_left]
      · rename_i hchunk
        have hwhole : whole (P ++ b).length = P.length :=
          whole_eq_of_lt hP (by omega) (by omega)
        rw [Pushed, hwhole, if_pos hroom, LogWriter.after, hwhole, List.take_left, List.drop_left]
        rfl

/-- Pushing `T` behind `S`. -/
lemma run_push (dev : Device) (start : ℕ) (hd : d.Healthy)
    (hroom : whole S.length ≤ dev.size - start) (T : Buf) :
    Pushed dev d start (S ++ T)
      (dev.run ((LogWriter.after start S).push T) (d.put start (S.take (whole S.length)))) := by
  have htake : (S.take (whole S.length)).length = whole S.length :=
    List.length_take_of_le (whole_le _)
  have hdrain := run_drain dev start hd (S.take (whole S.length))
    (S.drop (whole S.length) ++ T)
    (by rw [htake]; exact whole_whole _) (by omega)
  rw [← List.append_assoc, List.take_append_drop, htake] at hdrain
  exact hdrain

/-- Pushing `n` zeroes behind `S`. -/
lemma run_pushZeroes (dev : Device) (start : ℕ) (hd : d.Healthy)
    (hroom : whole S.length ≤ dev.size - start) (n : ℕ) :
    Pushed dev d start (S ++ List.replicate n 0)
      (dev.run ((LogWriter.after start S).pushZeroes n)
        (d.put start (S.take (whole S.length)))) := by
  induction n using Nat.strong_induction_on generalizing S with
  | _ n ih =>
      rw [LogWriter.pushZeroes]
      split
      · rename_i hpos
        have hmin : 0 < min n chunk := lt_min hpos (by decide)
        have hsplit : S ++ List.replicate n (0 : UInt8) =
            (S ++ List.replicate (min n chunk) 0) ++ List.replicate (n - min n chunk) 0 := by
          rw [List.append_assoc, List.replicate_append_replicate,
            Nat.add_sub_cancel' (min_le_left _ _)]
        rw [hsplit]
        exact Pushed.bind (f := fun w => w.pushZeroes (n - min n chunk))
          (run_push dev start hd hroom _) fun hroom' => ih (n - min n chunk) (by omega) hroom'
      · rename_i hzero
        have h0 : n = 0 := by omega
        rw [h0, List.replicate_zero, List.append_nil, Pushed, if_pos hroom]
        rfl

/-- All of `S` is on the disk, or the device is too short for it. -/
def Written (dev : Device) (d : Disk) (start : ℕ) (S : Buf)
    (r : Except (Fault Error) Unit × Disk) : Prop :=
  if S.length ≤ dev.size - start then r = (.ok (), d.put start S)
  else Stopped dev d start S r

/-- The last write, of at most a chunk behind the chunks `P`. -/
lemma run_finish (dev : Device) (start : ℕ) (hd : d.Healthy) (P b : Buf)
    (hP : whole P.length = P.length) (hroom : P.length ≤ dev.size - start) (hb : b.length ≤ chunk) :
    Written dev d start (P ++ b)
      (dev.run (LogWriter.finish ⟨start, P.length, b⟩) (d.put start P)) := by
  have hlen : (P ++ b).length = P.length + b.length := List.length_append
  have hsize := dev.size_lt
  have hchunk_pos : 0 < chunk := by decide
  rw [LogWriter.finish]
  dsimp only
  split
  · rename_i hne
    have hpos : 0 < b.length := List.length_pos_iff.2 hne
    rw [Written]
    split
    · have hoff : (fit 64 (start + P.length) : Exec ℕ) = .ok (start + P.length) :=
        fit_of_lt (by omega)
      have hfits : start + P.length + b.length ≤ dev.size := by omega
      rw [hoff, ← Disk.put_put]
      exact (Device.run_bind_ok rfl).trans (Device.run_writeAt (Disk.put_healthy.2 hd) hfits)
    · have hstop : ∃ e, dev.run (do
          let offset ← Prog.ofExcept (fit 64 (start + P.length))
          writeAt offset b) (d.put start P) = (.error e, d.put start P) := by
        rw [fit]
        split
        · have hout : dev.size < start + P.length + b.length := by omega
          exact ⟨_, (Device.run_bind_ok rfl).trans
            (Device.run_writeAt_outOfBounds (Disk.put_healthy.2 hd) hout)⟩
        · exact ⟨_, rfl⟩
      obtain ⟨e, hrun⟩ := hstop
      have hwhole : whole (dev.size - start) = P.length := whole_eq_of_lt hP hroom (by omega)
      have hmore : P.length ≤ whole (P ++ b).length := by
        rw [← hP]
        exact whole_mono (by omega)
      refine ⟨e, hrun.trans ?_⟩
      rw [min_eq_right (by omega), hwhole, List.take_left]
  · rename_i hnil
    rw [not_not.1 hnil, List.append_nil, Written, if_pos hroom]
    rfl

/-- The writer's last write after `S`. -/
lemma Pushed.finish {p : DevM LogWriter} {d₀ : Disk} (hd : d.Healthy)
    (hp : Pushed dev d start S (dev.run p d₀)) :
    Written dev d start S (dev.run (p >>= LogWriter.finish) d₀) := by
  have hS := whole_le S.length
  rw [Pushed] at hp
  split at hp
  · rename_i hroom
    have htake : (S.take (whole S.length)).length = whole S.length := List.length_take_of_le hS
    have hlt := lt_whole_add S.length
    have hfin := run_finish dev start hd (S.take (whole S.length))
      (S.drop (whole S.length)) (by rw [htake]; exact whole_whole _) (by omega)
      (by rw [List.length_drop]; omega)
    rw [List.take_append_drop, htake] at hfin
    rw [Device.run_bind_ok hp]
    exact hfin
  · rename_i hroom
    obtain ⟨e, hrun⟩ := hp
    rw [Written, if_neg (by omega)]
    exact ⟨e, Device.run_bind_error hrun⟩

end Pushed

/-! ### The chain of records -/

namespace Fs

/-- The record of `rlen` blocks of cycle `c` at block `blk`. -/
def fillRecord (uuid : Uuid) (c blk rlen : ℕ) : Buf :=
  Log.record uuid (rlen * bbsize % 2 ^ 32) (Log.lsn c (blk % 2 ^ 32))
    (Log.lsn c ((blk + 2 ^ 64 - rlen) % 2 ^ 64 % 2 ^ 32))

/-- The records of cycle `c` over the `k` blocks from `blk` on, of 512 blocks each but the
last; one block by itself has none. -/
def recordsStream (uuid : Uuid) (c blk k : ℕ) : Buf :=
  if 2 ≤ k then
    fillRecord uuid c blk (min k 512) ++ recordsStream uuid c (blk + min k 512) (k - min k 512)
  else []
termination_by k
decreasing_by omega

/-- A record of 2 to 512 blocks has the blocks asked for, one of a single block two. -/
lemma length_fillRecord (uuid : Uuid) (c blk : ℕ) {rlen : ℕ} (hpos : 1 ≤ rlen) (hle : rlen ≤ 512) :
    (fillRecord uuid c blk rlen).length = max rlen 2 * bbsize := by
  have hmod : rlen * bbsize % 2 ^ 32 = rlen * 512 := by
    rw [bbsize]
    omega
  have hceil : divCeil (rlen * 512) bbsize = rlen := by
    rw [divCeil, bbsize]
    omega
  rw [fillRecord, Log.length_record, hmod, Log.recordLen_eq_max (by omega), hceil]

/-- The blocks of the chain: all of them but a single one left over. -/
lemma length_recordsStream (uuid : Uuid) (c blk k : ℕ) : (recordsStream uuid c blk k).length =
    (if k % 512 = 1 then k - 1 else k) * bbsize := by
  induction k using Nat.strong_induction_on generalizing blk with
  | _ k ih =>
      rw [recordsStream]
      split
      · rw [List.length_append, length_fillRecord _ _ _ (by omega) (by omega), ih _ (by omega),
          ← Nat.add_mul]
        congr 1
        split_ifs <;> omega
      · split_ifs
        · rw [Nat.sub_eq_zero_of_le (by omega), Nat.zero_mul]
          rfl
        · have : k = 0 := by omega
          rw [this, Nat.zero_mul]
          rfl

end Fs

section Records

variable {dev : Device} {d : Disk} {start : ℕ} {S : Buf}

/-- **The chain goes out as one stream**, and stops at a single block left over. -/
lemma run_clearRecords (dev : Device) (start : ℕ) (hd : d.Healthy)
    (hroom : whole S.length ≤ dev.size - start) (uuid : Uuid) (c bbs blk : ℕ) :
    ((bbs - blk) % 512 = 1 →
      Stopped dev d start (S ++ Fs.recordsStream uuid c blk (bbs - blk))
        (dev.run (Fs.clearRecords uuid c bbs blk (min (bbs - blk) 512) (LogWriter.after start S))
          (d.put start (S.take (whole S.length))))) ∧
    ((bbs - blk) % 512 ≠ 1 →
      Pushed dev d start (S ++ Fs.recordsStream uuid c blk (bbs - blk))
        (dev.run (Fs.clearRecords uuid c bbs blk (min (bbs - blk) 512) (LogWriter.after start S))
          (d.put start (S.take (whole S.length))))) := by
  induction hk : bbs - blk using Nat.strong_induction_on generalizing blk S with
  | _ k ih =>
      rcases Nat.lt_or_ge k 2 with hsmall | hbig
      · have hnil : Fs.recordsStream uuid c blk k = [] := by
          rw [Fs.recordsStream]
          exact if_neg (by omega)
        rw [hnil, List.append_nil]
        rcases Nat.eq_zero_or_pos k with h0 | hpos
        · -- The end of the log.
          refine ⟨fun hodd => absurd hodd (by omega), fun _ => ?_⟩
          rw [Fs.clearRecords, dif_neg (by omega), Pushed, if_pos hroom]
          rfl
        · -- One block left: the record would have two.
          have h1 : k = 1 := by omega
          have hlen : (Fs.fillRecord uuid c blk 1).length ≠ 1 * bbsize := by
            rw [Fs.length_fillRecord _ _ _ le_rfl (by omega)]
            decide
          rw [Fs.fillRecord] at hlen
          refine ⟨fun _ => ?_, fun hodd => absurd h1 (by omega)⟩
          rw [h1, Fs.clearRecords, dif_pos (by omega)]
          dsimp only
          rw [min_eq_left (by omega), dif_pos hlen]
          have hle : whole S.length ≤ whole (dev.size - start) := by
            rw [← whole_whole S.length]
            exact whole_mono hroom
          rw [Device.run_fail, Stopped, min_eq_left hle]
          exact ⟨_, rfl⟩
      · have hlen : (Fs.fillRecord uuid c blk (min k 512)).length = min k 512 * bbsize := by
          rw [Fs.length_fillRecord _ _ _ (by omega) (by omega), max_eq_left (by omega)]
        have hleft : (sub bbs (blk + min k 512) : Exec ℕ) = .ok (k - min k 512) := by
          rw [sub, if_pos (by omega)]
          congr 1
          omega
        have hnext : min (k - min k 512) (min k 512) = min (k - min k 512) 512 := by omega
        have hstep := run_push dev start hd hroom (Fs.fillRecord uuid c blk (min k 512))
        have hrest := fun (hroom' : whole (S ++ Fs.fillRecord uuid c blk (min k 512)).length ≤
          dev.size - start) => ih (k - min k 512) (by omega) hroom' (blk + min k 512) (by omega)
        rw [Fs.recordsStream, if_pos hbig, ← List.append_assoc]
        rw [Fs.fillRecord] at hlen hstep hrest ⊢
        rw [Fs.clearRecords, dif_pos (by omega)]
        dsimp only
        rw [dif_neg (not_not.2 hlen), hleft]
        rw [← hnext] at hrest
        exact ⟨fun hodd => hstep.bind_stopped fun hroom' => (hrest hroom').1 (by omega),
          fun hodd => hstep.bind fun hroom' => (hrest hroom').2 (by omega)⟩

end Records

/-! ### The whole clear -/

namespace Fs

/-- The first record, in `cycle`, with the tail `tail`. -/
def firstRecord (fs : Fs) (uuid : Uuid) (cycle tail : ℕ) : Buf :=
  Log.record uuid fs.geo.logsunit (Log.lsn cycle 0) tail

/-- What is written over a zeroed log: the first record, filled up to a block. -/
def firstStream (fs : Fs) (uuid : Uuid) : Buf :=
  let first := fs.firstRecord uuid initCycle (Log.lsn initCycle 0)
  let rest := first.length - whole first.length
  first ++ List.replicate (roundup rest fs.geo.blocksize - rest) 0

/-- What is written over a log of `bbs` blocks past the first cycle: the first record, zeroes
up to block 512, and the chain of the cycle before. -/
def clearStream (fs : Fs) (uuid : Uuid) (cycle bbs : ℕ) : Buf :=
  let first := fs.firstRecord uuid cycle
    (Log.lsn (cycle - 1) ((bbs - firstLen fs.geo.logsunit) % 2 ^ 32))
  first ++ List.replicate (512 * bbsize - first.length) 0 ++
    recordsStream uuid (cycle - 1) 512 (bbs - 512)

end Fs

section ClearLog

variable {dev : Device} {d : Disk} {fs : Fs} {uuid : Uuid} {cycle start bbs : ℕ}

lemma ofExcept_ok_bind {α β : Type} (a : α) (f : α → DevM β) :
    (Prog.ofExcept (.ok a) : DevM α) >>= f = f a := rfl

@[simp] lemma length_firstRecord {tail : ℕ} : (fs.firstRecord uuid cycle tail).length =
    Fs.firstLen fs.geo.logsunit * bbsize := by
  rw [Fs.firstRecord, Log.length_record, firstLen_eq]

/-- The clear of a log in its first cycle, as a program: zeroes, then the first record. -/
lemma clearLog_first (hext : fs.geo.logExtent = .ok (start, bbs)) :
    fs.clearLog uuid initCycle = (do
      writeZeroes start (bbs * bbsize)
      let out ← LogWriter.push (LogWriter.after start [])
        (fs.firstRecord uuid initCycle (Log.lsn initCycle 0))
      (out.padToBlock fs.geo.blocksize).finish) := by
  have htail : Fs.firstTail initCycle bbs (Fs.firstLen fs.geo.logsunit) =
      .ok (Log.lsn initCycle 0) := if_pos rfl
  have hlen : (fs.firstRecord uuid initCycle (Log.lsn initCycle 0)).length =
      Fs.firstLen fs.geo.logsunit * bbsize := length_firstRecord
  rw [Fs.firstRecord] at hlen ⊢
  rw [Fs.clearLog, hext, ofExcept_ok_bind]
  dsimp only
  rw [htail, ofExcept_ok_bind, if_neg (not_not.2 hlen), if_pos rfl]
  rfl

/-- The clear of a log past its first cycle, as a program: the first record, zeroes, and the
chain of records. -/
lemma clearLog_next (hext : fs.geo.logExtent = .ok (start, bbs)) (hc : 1 < cycle)
    (hfirst : Fs.firstLen fs.geo.logsunit ≤ bbs) (hbbs : 512 ≤ bbs) :
    fs.clearLog uuid cycle = (do
      let out ← LogWriter.push (LogWriter.after start []) (fs.firstRecord uuid cycle
        (Log.lsn (cycle - 1) ((bbs - Fs.firstLen fs.geo.logsunit) % 2 ^ 32)))
      let out ← out.zeroesTo (512 * bbsize)
      let out ← Fs.clearRecords uuid (cycle - 1) bbs 512 (min (bbs - 512) 512) out
      out.finish) := by
  have hinit : cycle ≠ initCycle := by
    rw [initCycle]
    omega
  have hpred : (sub cycle 1 : Exec ℕ) = .ok (cycle - 1) := if_pos (by omega)
  have hblock : (sub bbs (Fs.firstLen fs.geo.logsunit) : Exec ℕ) =
      .ok (bbs - Fs.firstLen fs.geo.logsunit) := if_pos hfirst
  have htail : Fs.firstTail cycle bbs (Fs.firstLen fs.geo.logsunit) =
      .ok (Log.lsn (cycle - 1) ((bbs - Fs.firstLen fs.geo.logsunit) % 2 ^ 32)) := by
    rw [Fs.firstTail, if_neg hinit, hpred, hblock]
    rfl
  have hmax : bdstratSize / bbsize = 512 := by decide
  have hlen : (fs.firstRecord uuid cycle (Log.lsn (cycle - 1)
      ((bbs - Fs.firstLen fs.geo.logsunit) % 2 ^ 32))).length =
      Fs.firstLen fs.geo.logsunit * bbsize := length_firstRecord
  rw [Fs.firstRecord] at hlen ⊢
  rw [Fs.clearLog, hext, ofExcept_ok_bind]
  dsimp only
  rw [htail, ofExcept_ok_bind, if_neg (not_not.2 hlen), if_neg hinit, hpred, hmax,
    min_eq_left hbbs]
  rfl

/-- **A log in its first cycle is cleared** by zeroes and the first record. -/
lemma run_clearLog_first (dev : Device) (uuid : Uuid) (hd : d.Healthy)
    (hext : fs.geo.logExtent = .ok (start, bbs))
    (hfits : start + bbs * bbsize ≤ dev.size) :
    Written dev (d.put start (List.replicate (bbs * bbsize) 0)) start (fs.firstStream uuid)
      (dev.run (fs.clearLog uuid initCycle) d) := by
  have hzero : dev.run (writeZeroes start (bbs * bbsize)) d =
      (.ok (), d.put start (List.replicate (bbs * bbsize) 0)) := by
    refine Device.run_writeZeroes hd hfits
  rw [clearLog_first hext, Device.run_bind_ok hzero, Fs.firstStream]
  generalize fs.firstRecord uuid initCycle (Log.lsn initCycle 0) = first
  generalize hd₁ : d.put start (List.replicate (bbs * bbsize) 0) = d₁
  have hd₁' : d₁.Healthy := by
    rw [← hd₁]
    exact hd
  have hpush : Pushed dev d₁ start first (dev.run ((LogWriter.after start []).push first) d₁) := by
    have h := run_push (S := []) dev start hd₁' (Nat.zero_le (dev.size - start)) first
    rwa [List.nil_append, List.take_nil, Disk.put_nil] at h
  have hS := whole_le first.length
  have hrest := lt_whole_add first.length
  have hblock : fs.geo.blocksize ∣ 65536 ∧ 0 < fs.geo.blocksize :=
    ⟨fs.valid.blocksize_dvd, by have := fs.valid.blocksize_ge; omega⟩
  rw [Pushed] at hpush
  split at hpush
  · rename_i hroom
    have htake : (first.take (whole first.length)).length = whole first.length :=
      List.length_take_of_le hS
    have hdrop : (first.drop (whole first.length)).length = first.length - whole first.length :=
      List.length_drop
    have hpad : (first.drop (whole first.length) ++ List.replicate
        (roundup (first.length - whole first.length) fs.geo.blocksize -
          (first.length - whole first.length)) 0).length ≤ chunk := by
      have hround := roundup_le (n := first.length - whole first.length) hblock.2
        (hblock.1.trans ⟨64, rfl⟩ : fs.geo.blocksize ∣ chunk) (by omega)
      rw [List.length_append, hdrop, List.length_replicate]
      omega
    have hfin := run_finish dev start hd₁' _ _
      (by rw [htake]; exact whole_whole _) (by rw [htake]; exact hroom) hpad
    rw [← List.append_assoc, List.take_append_drop, htake] at hfin
    rw [Device.run_bind_ok hpush, LogWriter.padToBlock, LogWriter.after]
    dsimp only
    rw [hdrop]
    exact hfin
  · rename_i hroom
    rw [Written, if_neg (by rw [List.length_append]; omega)]
    exact hpush.append (by omega) fun e d' he => Device.run_bind_error he

/-- A log in its first cycle that the device does not hold is left as it is. -/
lemma run_clearLog_outOfBounds (dev : Device) (uuid : Uuid) (hd : d.Healthy)
    (hext : fs.geo.logExtent = .ok (start, bbs))
    (hfits : dev.size < start + bbs * bbsize) :
    ∃ e, dev.run (fs.clearLog uuid initCycle) d = (.error e, d) := by
  rw [clearLog_first hext]
  exact ⟨_, Device.run_bind_error (Device.run_writeZeroes_outOfBounds hd hfits)⟩

/-- **A log past its first cycle is cleared** by one stream, which stops at a single block
left over. -/
lemma run_clearLog_next (dev : Device) (uuid : Uuid) (hd : d.Healthy)
    (hext : fs.geo.logExtent = .ok (start, bbs)) (hc : 1 < cycle)
    (hfirst : Fs.firstLen fs.geo.logsunit ≤ bbs) (hbbs : 512 ≤ bbs) :
    (bbs % 512 = 1 →
      Stopped dev d start (fs.clearStream uuid cycle bbs) (dev.run (fs.clearLog uuid cycle) d)) ∧
    (bbs % 512 ≠ 1 →
      Written dev d start (fs.clearStream uuid cycle bbs)
        (dev.run (fs.clearLog uuid cycle) d)) := by
  rw [clearLog_next hext hc hfirst hbbs, Fs.clearStream]
  generalize fs.firstRecord uuid cycle
    (Log.lsn (cycle - 1) ((bbs - Fs.firstLen fs.geo.logsunit) % 2 ^ 32)) = first
  have hpush : Pushed dev d start first (dev.run ((LogWriter.after start []).push first) d) := by
    have h := run_push (S := []) dev start hd (Nat.zero_le (dev.size - start)) first
    rwa [List.nil_append, List.take_nil, Disk.put_nil] at h
  have hzeroes : Pushed dev d start (first ++ List.replicate (512 * bbsize - first.length) 0)
      (dev.run ((LogWriter.after start []).push first >>= fun out =>
        out.zeroesTo (512 * bbsize)) d) := by
    refine hpush.bind fun hroom => ?_
    have hat : (LogWriter.after start first).logAt + (LogWriter.after start first).buf.length =
        first.length := by
      rw [LogWriter.after]
      dsimp only
      rw [List.length_drop, Nat.add_sub_cancel' (whole_le _)]
    rw [LogWriter.zeroesTo, hat]
    exact run_pushZeroes dev start hd hroom _
  have hrecords := fun hroom => run_clearRecords
    (S := first ++ List.replicate (512 * bbsize - first.length) 0) dev start hd hroom uuid
    (cycle - 1) bbs 512
  rw [← bind_assoc, ← bind_assoc]
  refine ⟨fun hodd => ?_, fun hodd => ?_⟩
  · exact (hzeroes.bind_stopped fun hroom => (hrecords hroom).1 (by omega)).bind
  · exact (hzeroes.bind fun hroom => (hrecords hroom).2 (by omega)).finish hd

end ClearLog

end MkfsXfs
