import MkfsXfs.Admin.Writer
import MkfsXfs.Log.Append
import MkfsXfs.Log.Cleared

/-!
A cleared log is clean, and in the cycle it was cleared for.

* `firstStream_log`, `clearStream_log`: the basic blocks of what the log clear writes.
* `clearLog_findTail`: the reader on what a successful clear leaves.
* `run_clearLog`: on a healthy disk the clear succeeds.
-/

namespace MkfsXfs

open Checked Log

/-! ### Basic blocks of a stream -/

section Blocks

variable {a b : Buf} {m n p : ℕ}

lemma blockOf_append_left (h : (p + 1) * bbsize ≤ a.length) :
    blockOf (a ++ b) p = blockOf a p := by
  rw [Nat.succ_mul] at h
  rw [blockOf, blockOf, List.drop_append_of_le_length (by omega),
    List.take_append_of_le_length (by rw [List.length_drop]; omega)]

lemma blockOf_append_right (ha : a.length = m * bbsize) (h : m ≤ p) :
    blockOf (a ++ b) p = blockOf b (p - m) := by
  have hle : m * bbsize ≤ p * bbsize := Nat.mul_le_mul_right _ h
  rw [blockOf, blockOf, List.drop_append, List.drop_eq_nil_of_le (by omega), List.nil_append, ha,
    Nat.sub_mul]

lemma blockOf_replicate (h : (p + 1) * bbsize ≤ n) :
    blockOf (List.replicate n 0) p = zeroBlock := by
  rw [Nat.succ_mul] at h
  rw [blockOf, List.drop_replicate, List.take_replicate, zeroBlock]
  congr 1
  omega

end Blocks

/-! ### The chain -/

section Chain

variable {uuid : Uuid} {c blk k q : ℕ}

/-- Block `q` of the chain is in the record that the 512 blocks around it hold. -/
lemma recordsStream_block (hk : k % 512 ≠ 1) (hq : q < k) :
    blockOf (Fs.recordsStream uuid c blk k) q = blockOf (Fs.fillRecord uuid c
      (blk + q / 512 * 512) (min (k - q / 512 * 512) 512)) (q % 512) := by
  induction k using Nat.strong_induction_on generalizing blk q with
  | _ k ih =>
      have hlen : (Fs.fillRecord uuid c blk (min k 512)).length = min k 512 * bbsize := by
        rw [Fs.length_fillRecord _ _ _ (by omega) (by omega), max_eq_left (by omega)]
      rw [Fs.recordsStream, if_pos (by omega)]
      rcases Nat.lt_or_ge q (min k 512) with hin | hout
      · have hq0 : q / 512 = 0 := by omega
        rw [blockOf_append_left (by rw [hlen]; exact Nat.mul_le_mul_right _ hin), hq0,
          Nat.zero_mul, Nat.add_zero, Nat.sub_zero, Nat.mod_eq_of_lt (by omega)]
      · have hmin : min k 512 = 512 := by omega
        have hat : blk + 512 + (q - 512) / 512 * 512 = blk + q / 512 * 512 := by omega
        have hleft : k - 512 - (q - 512) / 512 * 512 = k - q / 512 * 512 := by omega
        have hmod : (q - 512) % 512 = q % 512 := by omega
        rw [blockOf_append_right hlen hout, hmin, ih (k - 512) (by omega) (by omega) (by omega),
          hat, hleft, hmod]

/-- The record of the chain that starts at block `s` of it. -/
lemma recordsStream_recordAt {log : ℕ → Buf} {n s : ℕ} (hn : 512 ≤ n) (hk : n % 512 ≠ 1)
    (hc : c < 2 ^ 32) (hs : 512 ∣ s) (hlo : 512 ≤ s) (hhi : s < n)
    (hlog : ∀ p, 512 ≤ p → p < n →
      log p = blockOf (Fs.recordsStream uuid c 512 (n - 512)) (p - 512)) :
    RecordAt log s c (min (n - s) 512) := by
  obtain ⟨m, rfl⟩ := hs
  have hsunit : min (n - 512 * m) 512 * bbsize % 2 ^ 32 = min (n - 512 * m) 512 * 512 := by
    rw [bbsize]
    omega
  have hceil : divCeil (min (n - 512 * m) 512 * 512) bbsize = min (n - 512 * m) 512 := by
    rw [divCeil, bbsize]
    omega
  have hlen : recordLen (min (n - 512 * m) 512 * bbsize % 2 ^ 32) = min (n - 512 * m) 512 := by
    rw [hsunit, recordLen_eq_max (by omega), hceil, max_eq_left (by omega)]
  have hblocks : ∀ j < recordLen (min (n - 512 * m) 512 * bbsize % 2 ^ 32),
      log (512 * m + j) = blockOf (record uuid (min (n - 512 * m) 512 * bbsize % 2 ^ 32)
        (lsn c (512 * m % 2 ^ 32))
        (lsn c ((512 * m + 2 ^ 64 - min (n - 512 * m) 512) % 2 ^ 64 % 2 ^ 32))) j := by
    intro j hj
    rw [hlen] at hj
    have hdiv : (512 * m + j - 512) / 512 * 512 = 512 * m - 512 := by omega
    have hmod : (512 * m + j - 512) % 512 = j := by omega
    have hat : 512 + (512 * m - 512) = 512 * m := by omega
    have hleft : n - 512 - (512 * m - 512) = n - 512 * m := by omega
    rw [hlog _ (by omega) (by omega), recordsStream_block (by omega) (by omega), hdiv, hmod, hat,
      hleft]
    rfl
  have hrec := RecordAt.ofRecord (by rw [hsunit]; omega) hc (Nat.mod_lt _ (by decide))
    (lsn_lt hc (Nat.mod_lt _ (by decide))) hblocks
  rwa [hlen] at hrec

end Chain

/-! ### The cleared log, block by block -/

section Cleared

variable {fs : Fs} {uuid : Uuid} {c n : ℕ}

lemma length_clearStream (uuid : Uuid) (c : ℕ) (hlen : Fs.firstLen fs.geo.logsunit ≤ 512)
    (hn : 512 ≤ n) (hodd : n % 512 ≠ 1) : (fs.clearStream uuid c n).length = n * bbsize := by
  rw [Fs.clearStream]
  rw [List.length_append, List.length_append, List.length_replicate, length_firstRecord,
    Fs.length_recordsStream, if_neg (by omega), bbsize]
  omega

/-- Past the first cycle: the blocks of the stream are a cleared log. -/
lemma clearStream_log (uuid : Uuid) (hsunit : fs.geo.logsunit ≤ 262144) (hn : 512 ≤ n)
    (hodd : n % 512 ≠ 1) (hpos : 0 < c) (hlt : c + 1 < headerMagic) :
    ClearedLog (blockOf (fs.clearStream uuid (c + 1) n)) n c (recordLen fs.geo.logsunit) := by
  have hc32 : c + 1 < 2 ^ 32 := hlt.trans (by decide)
  have hle := recordLen_le hsunit
  rw [Fs.clearStream, Nat.add_sub_cancel, firstLen_eq]
  generalize htail : lsn c ((n - recordLen fs.geo.logsunit) % 2 ^ 32) = tail
  have htail' : tail < 2 ^ 64 := by
    rw [← htail]
    exact lsn_lt (by omega) (Nat.mod_lt _ (by decide))
  have hfirst : (fs.firstRecord uuid (c + 1) tail).length =
      recordLen fs.geo.logsunit * bbsize := by rw [length_firstRecord, firstLen_eq]
  have hfront : (fs.firstRecord uuid (c + 1) tail ++ List.replicate
      (512 * bbsize - (fs.firstRecord uuid (c + 1) tail).length) 0).length = 512 * bbsize := by
    rw [List.length_append, List.length_replicate, hfirst, bbsize]
    omega
  exact {
    cycle_pos := hpos
    cycle_lt := hlt
    first := RecordAt.ofRecord hsunit hc32 (by decide : 0 < 2 ^ 32) htail' fun j hj => by
      rw [Nat.zero_add, List.append_assoc,
        blockOf_append_left (by rw [hfirst]; exact Nat.mul_le_mul_right _ hj)]
      rfl
    gap := fun p hl hp => by
      have hzero : blockOf (fs.firstRecord uuid (c + 1) tail ++ List.replicate
          (512 * bbsize - (fs.firstRecord uuid (c + 1) tail).length) 0 ++
            Fs.recordsStream uuid c 512 (n - 512)) p = zeroBlock := by
        rw [blockOf_append_left (by rw [hfront]; exact Nat.mul_le_mul_right _ hp),
          blockOf_append_right hfirst hl, blockOf_replicate]
        rw [hfirst, bbsize]
        omega
      rw [hzero]
      exact ⟨by decide, by decide⟩
    chain := fun s hs hlo hhi => recordsStream_recordAt hn hodd (by omega) hs hlo hhi
      fun p hl _ => blockOf_append_right hfront hl }

/-- In the first cycle: over zeroes, the stream is the first record. -/
lemma firstStream_log {d : Disk} {start p : ℕ} (hp : p < n) :
    ((d.put start (List.replicate (n * bbsize) 0)).put start
      (fs.firstStream uuid)).readBuf (start + p * bbsize) bbsize =
    if p < recordLen fs.geo.logsunit then
      blockOf (record uuid fs.geo.logsunit (lsn 1 0) (lsn 1 0)) p else zeroBlock := by
  have hfirst : (fs.firstRecord uuid initCycle (lsn initCycle 0)).length =
      recordLen fs.geo.logsunit * bbsize := by rw [length_firstRecord, firstLen_eq]
  have hblock : (p + 1) * bbsize ≤ n * bbsize := Nat.mul_le_mul_right _ hp
  rw [Nat.succ_mul] at hblock
  rw [Fs.firstStream]
  generalize hpad : roundup _ _ - _ = pad
  split_ifs with hin
  · have hend : (p + 1) * bbsize ≤ recordLen fs.geo.logsunit * bbsize :=
      Nat.mul_le_mul_right _ hin
    rw [Nat.succ_mul] at hend
    rw [Disk.readBuf_put (by rw [List.length_append]; omega)]
    exact blockOf_append_left (by rw [hfirst]; exact Nat.mul_le_mul_right _ hin)
  · have hstart : recordLen fs.geo.logsunit * bbsize ≤ p * bbsize :=
      Nat.mul_le_mul_right _ (Nat.not_lt.1 hin)
    refine Buf.ext (by simp [zeroBlock]) fun i hi => ?_
    rw [Disk.length_readBuf] at hi
    have hzero : byteAt zeroBlock i = 0 := by
      rw [zeroBlock, byteAt_replicate_zero]
    rw [Disk.byteAt_readBuf hi, hzero]
    rcases Nat.lt_or_ge (p * bbsize + i) (recordLen fs.geo.logsunit * bbsize + pad) with hpl | hpr
    · rw [Disk.bytes_put_of_mem (by omega)
        (by rw [List.length_append, List.length_replicate]; omega),
        byteAt_append_right (by omega), byteAt_replicate_zero]
    · rw [Disk.bytes_put_of_not_mem
        (.inr (by rw [List.length_append, List.length_replicate]; omega)),
        Disk.bytes_put_of_mem (by omega) (by rw [List.length_replicate]; omega), byteAt_replicate_zero]

/-- One record over zeroes: the log is clean, in its first cycle. -/
lemma eval_findTail_first (uuid : Uuid) {sunit : ℕ} (hn : totalRecBbs ≤ n)
    (hsunit : sunit ≤ 262144) : (findTail n).eval (fun p => if p < recordLen sunit then
      blockOf (record uuid sunit (lsn 1 0) (lsn 1 0)) p else zeroBlock) =
    .ok { head := recordLen sunit, tail := recordLen sunit, cycle := 1 } := by
  have ht := totalRecBbs_eq
  have hle := recordLen_le hsunit
  have htwo := two_le_recordLen sunit
  have hlap : 0 / n + 1 = 1 := by rw [Nat.zero_div]
  have htail : lsn 1 0 < 2 ^ 64 := by decide
  have hroom : 0 % n + recordLen sunit ≤ n := by
    rw [Nat.zero_mod]
    omega
  have hc : 0 / n + 1 < headerMagic := by
    rw [hlap]
    decide
  let r : Entry n 0 := Entry.ofRecord uuid hsunit (by decide : 0 < 2 ^ 32) htail hroom hc
  have hblock : r.block = blockOf (record uuid sunit (lsn (0 / n + 1) 0) (lsn 1 0)) := rfl
  rw [hlap] at hblock
  have hahead : ∀ p, ahead n 0 p = p := fun p => by
    rw [ahead, Nat.zero_mod, if_pos (Nat.zero_le p), Nat.sub_zero]
  have hover : r.over (fun _ => zeroBlock) = fun p => if p < recordLen sunit then
      blockOf (record uuid sunit (lsn 1 0) (lsn 1 0)) p else zeroBlock := funext fun p => by
    rw [Entry.over, hahead, hblock]
    rfl
  have hfind := (Appended.zeroed.logEnd hn r).eval_findTail hn
  rw [r.recordStart_eq hn, r.tailAt_eq hn] at hfind
  have hrtail : r.tail = (0 + recordLen sunit) % n :=
    Entry.ofRecord_tail hsunit (by decide) htail hroom hc
  have hrlen : r.len = recordLen sunit := rfl
  rw [hrtail, hrlen, Nat.zero_add, Nat.mod_eq_of_lt (by omega), Nat.div_eq_of_lt (by omega)]
    at hfind
  rw [← hover, hfind]

end Cleared

/-! ### The reader on the disk -/

section FindTail

variable {dev : Device} {d d' : Disk} {fs : Fs} {uuid : Uuid} {cycle start bbs : ℕ}

lemma Written.of_ok {S : Buf} (h : Written dev d start S (.ok (), d')) : d' = d.put start S := by
  rw [Written] at h
  split at h
  · exact (Prod.mk.inj h).2
  · obtain ⟨e, he⟩ := h
    cases he

/-- The first cycle: one record over zeroes. -/
lemma findTail_first (hd : d.Healthy) (hext : fs.geo.logExtent = .ok (start, bbs))
    (hn : totalRecBbs ≤ bbs) (hsunit : fs.geo.logsunit ≤ 262144)
    (hrun : dev.run (fs.clearLog uuid initCycle) d = (.ok (), d')) :
    dev.run (LogReader.mk start bbs hn).findTail d' =
      (.ok { head := recordLen fs.geo.logsunit, tail := recordLen fs.geo.logsunit,
             cycle := initCycle }, d') := by
  have hfits : start + bbs * bbsize ≤ dev.size := by
    by_contra hout
    obtain ⟨e, he⟩ := run_clearLog_outOfBounds dev uuid hd hext (Nat.not_le.1 hout)
    rw [he] at hrun
    cases hrun
  have hwritten := run_clearLog_first dev uuid hd hext hfits
  rw [hrun] at hwritten
  have hdisk := hwritten.of_ok
  have hhealthy : d'.Healthy := by
    rw [hdisk]
    exact hd
  rw [LogReader.run_findTail hn hhealthy hfits fun p hp => by rw [hdisk, firstStream_log hp],
    eval_findTail_first uuid hn hsunit]
  rfl

/-- Past the first cycle: the stream is a cleared log. -/
lemma findTail_next (hd : d.Healthy) (hext : fs.geo.logExtent = .ok (start, bbs))
    (hn : totalRecBbs ≤ bbs) (hsunit : fs.geo.logsunit ≤ 262144) (hc : 1 < cycle)
    (hmagic : cycle < headerMagic)
    (hrun : dev.run (fs.clearLog uuid cycle) d = (.ok (), d')) :
    ∃ head, dev.run (LogReader.mk start bbs hn).findTail d' =
      (.ok { head := head, tail := head, cycle := cycle }, d') := by
  have ht := totalRecBbs_eq
  have hle := recordLen_le hsunit
  obtain ⟨c, rfl⟩ : ∃ c, cycle = c + 1 := ⟨cycle - 1, by omega⟩
  have hlen : Fs.firstLen fs.geo.logsunit ≤ 512 := by rwa [firstLen_eq]
  have hwhole := run_clearLog_next dev uuid hd hext hc (by omega) (by omega)
  rw [hrun] at hwhole
  -- A single block left over would have stopped the clear.
  have hodd : bbs % 512 ≠ 1 := fun hodd => by
    obtain ⟨e, he⟩ := hwhole.1 hodd
    cases he
  have hwritten := hwhole.2 hodd
  have hlength := length_clearStream uuid (c + 1) hlen (by omega) hodd
  have hfits : start + bbs * bbsize ≤ dev.size := by
    rw [Written, hlength] at hwritten
    split at hwritten
    · rw [bbsize] at *
      omega
    · obtain ⟨e, he⟩ := hwritten
      cases he
  have hdisk := hwritten.of_ok
  have hhealthy : d'.Healthy := by
    rw [hdisk]
    exact hd
  have hlog : ∀ p < bbs, d'.readBuf (start + p * bbsize) bbsize =
      blockOf (fs.clearStream uuid (c + 1) bbs) p := fun p hp => by
    have hend : (p + 1) * bbsize ≤ bbs * bbsize := Nat.mul_le_mul_right _ hp
    rw [Nat.succ_mul] at hend
    rw [hdisk, Disk.readBuf_put (by omega)]
    rfl
  have hclean := (clearStream_log uuid hsunit (by omega : 512 ≤ bbs) hodd (by omega)
    hmagic).eval_findTail hn
  rw [LogReader.run_findTail hn hhealthy hfits hlog, hclean]
  exact ⟨_, rfl⟩

/-- The first record with its padding is no longer than a full record. -/
lemma length_firstStream_le (uuid : Uuid) (hsunit : fs.geo.logsunit ≤ 262144) :
    (fs.firstStream uuid).length ≤ 512 * bbsize := by
  have hle := recordLen_le hsunit
  have hpos := fs.valid.blocksize_ge
  have hlen : (fs.firstRecord uuid initCycle (lsn initCycle 0)).length =
      recordLen fs.geo.logsunit * bbsize := by rw [length_firstRecord, firstLen_eq]
  have hshort : recordLen fs.geo.logsunit * bbsize ≤ 512 * bbsize := Nat.mul_le_mul_right _ hle
  have hwhole : whole (recordLen fs.geo.logsunit * bbsize) = 0 :=
    whole_eq_of_lt (by decide) (Nat.zero_le _) (hshort.trans_lt (by decide))
  have hdvd : fs.geo.blocksize ∣ 512 * bbsize := fs.valid.blocksize_dvd.trans ⟨4, rfl⟩
  have hround := roundup_le (by omega) hdvd hshort
  rw [Fs.firstStream, List.length_append, List.length_replicate, hlen, hwhole, Nat.sub_zero]
  omega

/-- **A healthy log is cleared**: the clear succeeds, and changes nothing but the log. -/
theorem run_clearLog (dev : Device) (uuid : Uuid) (hd : d.Healthy)
    (hext : fs.geo.logExtent = .ok (start, bbs)) (hn : totalRecBbs ≤ bbs) (hodd : bbs % 512 ≠ 1)
    (hsunit : fs.geo.logsunit ≤ 262144) (hc : 1 ≤ cycle)
    (hfits : start + bbs * bbsize ≤ dev.size) :
    ∃ d', dev.run (fs.clearLog uuid cycle) d = (.ok (), d') ∧ d'.Healthy ∧
      ∀ a, a < start ∨ start + bbs * bbsize ≤ a → d'.bytes a = d.bytes a := by
  have ht := totalRecBbs_eq
  have hle := recordLen_le hsunit
  have hlen : Fs.firstLen fs.geo.logsunit ≤ 512 := by rwa [firstLen_eq]
  have hfull : 512 * bbsize ≤ bbs * bbsize := Nat.mul_le_mul_right _ (by omega)
  rcases Nat.lt_or_ge 1 cycle with hnext | hfirst
  · have hlength := length_clearStream uuid cycle hlen (by omega : 512 ≤ bbs) hodd
    have hwritten := (run_clearLog_next dev uuid hd hext hnext (by omega) (by omega)).2 hodd
    rw [Written, if_pos (by omega)] at hwritten
    exact ⟨_, hwritten, hd, fun a ha => Disk.bytes_put_of_not_mem (by omega)⟩
  · have hone : cycle = initCycle := by
      rw [initCycle]
      omega
    have hlength := length_firstStream_le uuid hsunit
    have hwritten := run_clearLog_first dev uuid hd hext hfits
    rw [Written, if_pos (by omega), ← hone] at hwritten
    refine ⟨_, hwritten, hd, fun a ha => ?_⟩
    rw [Disk.bytes_put_of_not_mem (by omega),
      Disk.bytes_put_of_not_mem (by rw [List.length_replicate]; omega)]

/-- **A cleared log is clean and in its new cycle.**  Whatever the log held before, after a
clear at `cycle` succeeds the reader finds the head at the tail, in `cycle`: the log is not
dirty, and the next clear moves one cycle on. -/
theorem clearLog_findTail (hext : fs.geo.logExtent = .ok (start, bbs)) (hn : totalRecBbs ≤ bbs)
    (hsunit : fs.geo.logsunit ≤ 262144) (uuid : Uuid) (hc : 1 ≤ cycle)
    (hmagic : cycle < headerMagic)
    (hrun : dev.run (fs.clearLog uuid cycle) d = (.ok (), d')) (hd' : d'.Healthy) :
    ∃ s : LogState, dev.run (LogReader.mk start bbs hn).findTail d' = (.ok s, d') ∧
      s.head = s.tail ∧ s.dirty = false ∧ s.cycle = cycle := by
  have hheal := Device.run_heal hrun
  rw [hd'.heal_eq] at hheal
  obtain ⟨head, hfind⟩ : ∃ head, dev.run (LogReader.mk start bbs hn).findTail d' =
      (.ok { head := head, tail := head, cycle := cycle }, d') := by
    rcases Nat.lt_or_ge 1 cycle with hnext | hfirst
    · exact findTail_next d.heal_healthy hext hn hsunit hnext hmagic hheal
    · have hone : cycle = initCycle := by
        rw [initCycle]
        omega
      rw [hone] at hheal ⊢
      exact ⟨_, findTail_first d.heal_healthy hext hn hsunit hheal⟩
  exact ⟨_, hfind, rfl, decide_eq_false (not_not.2 rfl), rfl⟩

/-- A cleared log on a disk of two AGs. -/
theorem clearLog_findTail_twoAgs : ∃ (d' : Disk) (s : LogState),
    devTwoAgs.run (fsTwoAgs.clearLog ⟨List.replicate 16 1, rfl⟩ 2) diskTwoAgs = (.ok (), d') ∧
    devTwoAgs.run (LogReader.mk 4096 4096 (by decide)).findTail d' = (.ok s, d') ∧
    s.head = s.tail ∧ s.dirty = false ∧ s.cycle = 2 := by
  have hext : fsTwoAgs.geo.logExtent = .ok (4096, 4096) := by decide +kernel
  have hhealthy : diskTwoAgs.Healthy := rfl
  obtain ⟨d', hrun, hd', _⟩ := run_clearLog devTwoAgs ⟨List.replicate 16 1, rfl⟩ hhealthy hext
    (by decide) (by decide) (by decide) (by decide : 1 ≤ 2) (by decide)
  obtain ⟨s, hfind⟩ := clearLog_findTail hext (by decide) (by decide) ⟨List.replicate 16 1, rfl⟩
    (by decide) (by decide) hrun hd'
  exact ⟨d', s, hrun, hfind⟩

end FindTail

end MkfsXfs
