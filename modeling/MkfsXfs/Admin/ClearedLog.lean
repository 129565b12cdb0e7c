import MkfsXfs.Admin.Clean

/-!
The bytes of a cleared log (`Fs::clear_log` in `src/admin.rs`).

* `LogLayout`: the record at block 0, zeroes up to block 512, and the records of the cycle
  before, back to back.
* `recordsStream_eq`: the chain of records in closed form.
* `clearLog_layout`: what a successful clear past the first cycle leaves.
-/

namespace MkfsXfs

open Checked Log

/-! ### The layout -/

/-- The blocks of the record that starts at block `512 * m`: 512, or all that are left. -/
def fillLen (bbs m : ℕ) : ℕ := min 512 (bbs - 512 * m)

/-- The record of `cycle` that starts at block `512 * m`: its lsn names its own place, its tail
lies one record length before it. -/
def fillAt (uuid : Uuid) (cycle bbs m : ℕ) : Buf :=
  record uuid (fillLen bbs m * bbsize) (lsn cycle (512 * m)) (lsn cycle (512 * m - fillLen bbs m))

/-- The record at block 0, whose tail is the block that lies its length before the end, in the
cycle before. -/
def firstAt (uuid : Uuid) (sunit cycle bbs : ℕ) : Buf :=
  record uuid sunit (lsn cycle 0) (lsn (cycle - 1) (bbs - recordLen sunit))

/-- A log of `bbs` blocks cleared for `cycle`, byte for byte. -/
def clearedLog (uuid : Uuid) (sunit cycle bbs : ℕ) : Buf :=
  firstAt uuid sunit cycle bbs ++ List.replicate ((512 - recordLen sunit) * bbsize) 0 ++
    (List.range (divCeil (bbs - 512) 512)).flatMap fun m => fillAt uuid (cycle - 1) bbs (m + 1)

/-! ### The chain of records -/

section Chain

variable {uuid : Uuid} {c bbs k m : ℕ}

/-- A record of the chain is the one its place says. -/
lemma fillRecord_eq (hm : 1 ≤ m) (hlt : bbs < 2 ^ 32) (hin : 512 * m < bbs) :
    Fs.fillRecord uuid c (512 * m) (min (bbs - 512 * m) 512) = fillAt uuid c bbs m := by
  have hlen : min (bbs - 512 * m) 512 = fillLen bbs m := by rw [fillLen, min_comm]
  have hle : fillLen bbs m ≤ 512 := by rw [fillLen]; omega
  have hbytes : fillLen bbs m * bbsize % 2 ^ 32 = fillLen bbs m * bbsize := by
    rw [bbsize]
    omega
  have hplace : 512 * m % 2 ^ 32 = 512 * m := by omega
  have htail : (512 * m + 2 ^ 64 - fillLen bbs m) % 2 ^ 64 % 2 ^ 32
      = 512 * m - fillLen bbs m := by omega
  rw [hlen, Fs.fillRecord, hbytes, hplace, htail, fillAt]

/-- **The chain of records in closed form.** -/
lemma recordsStream_eq (hm : 1 ≤ m) (hlt : bbs < 2 ^ 32) (hodd : bbs % 512 ≠ 1) :
    Fs.recordsStream uuid c (512 * m) (bbs - 512 * m)
      = (List.range (divCeil (bbs - 512 * m) 512)).flatMap fun i =>
          fillAt uuid c bbs (i + m) := by
  generalize hk : bbs - 512 * m = k
  induction k using Nat.strong_induction_on generalizing m with
  | _ k ih =>
      rw [Fs.recordsStream]
      rcases Nat.lt_or_ge k 2 with hshort | hlong
      · -- no block is left: a single one would be odd
        have hzero : k = 0 := by omega
        rw [if_neg (by omega), hzero]
        rfl
      · have hcount : divCeil k 512 = divCeil (k - min k 512) 512 + 1 := by
          rw [divCeil, divCeil]
          omega
        have hrec := @fillRecord_eq uuid c bbs m hm hlt (by omega)
        rw [hk] at hrec
        have hrest : Fs.recordsStream uuid c (512 * m + min k 512) (k - min k 512)
            = (List.range (divCeil (k - min k 512) 512)).flatMap fun i =>
                fillAt uuid c bbs (i + (m + 1)) := by
          rcases Nat.lt_or_ge k 512 with hlast | hmore
          · have hnone : k - min k 512 = 0 := by omega
            rw [hnone, Fs.recordsStream]
            rfl
          · have hnext : 512 * m + min k 512 = 512 * (m + 1) := by omega
            rw [hnext]
            exact ih (k - min k 512) (by omega) (by omega) (by omega)
        rw [if_pos hlong, hrec, hrest, hcount, List.range_succ_eq_map, List.flatMap_cons,
          List.flatMap_map, Nat.zero_add]
        refine congrArg (fillAt uuid c bbs m ++ ·) (List.flatMap_congr fun i _ => ?_)
        rw [Nat.succ_eq_add_one, Nat.add_assoc, Nat.add_comm 1]

end Chain

/-! ### The clear -/

section Clear

variable {fs : Fs} {uuid : Uuid} {cycle bbs : ℕ}

/-- What is written over a log past its first cycle, in closed form. -/
lemma clearStream_eq (hsunit : fs.geo.logsunit ≤ 262144) (hn : 4096 ≤ bbs) (hlt : bbs < 2 ^ 32)
    (hodd : bbs % 512 ≠ 1) :
    fs.clearStream uuid cycle bbs = clearedLog uuid fs.geo.logsunit cycle bbs := by
  have hle := recordLen_le hsunit
  have hblock : (bbs - recordLen fs.geo.logsunit) % 2 ^ 32 = bbs - recordLen fs.geo.logsunit :=
    Nat.mod_eq_of_lt (by omega)
  have hfirst : fs.firstRecord uuid cycle (lsn (cycle - 1) (bbs - recordLen fs.geo.logsunit))
      = firstAt uuid fs.geo.logsunit cycle bbs := rfl
  have hchain : Fs.recordsStream uuid (cycle - 1) (512 * 1) (bbs - 512 * 1)
      = (List.range (divCeil (bbs - 512 * 1) 512)).flatMap fun i =>
          fillAt uuid (cycle - 1) bbs (i + 1) := recordsStream_eq le_rfl hlt hodd
  rw [Nat.mul_one] at hchain
  rw [Fs.clearStream, firstLen_eq, hblock, hfirst, hchain, clearedLog, firstAt, length_record,
    ← Nat.sub_mul]

/-- **What a clear leaves**: when the log clear past the first cycle succeeds, the log holds the
record of `cycle` at block 0, zeroes up to block 512, and the records of the cycle before, of 512
blocks each but the last. -/
theorem clearLog_layout (dev : Device) (fs : Fs) (uuid : Uuid) (cycle start bbs : ℕ) (d d' : Disk)
    (hext : fs.geo.logExtent = .ok (start, bbs)) (heven : bbs % 2 = 0) (hn : 4096 ≤ bbs)
    (hlt : bbs < 2 ^ 32) (hsunit : fs.geo.logsunit ≤ 262144) (hc : 2 ≤ cycle)
    (hrun : dev.run (fs.clearLog uuid cycle) d = (.ok (), d')) :
    d'.readBuf start (bbs * bbsize) = clearedLog uuid fs.geo.logsunit cycle bbs := by
  have hle := recordLen_le hsunit
  have hlen : Fs.firstLen fs.geo.logsunit ≤ 512 := by rwa [firstLen_eq]
  have hlength := length_clearStream uuid cycle hlen (by omega : 512 ≤ bbs) (by omega)
  have hwritten := (run_clearLog_next dev uuid d.heal_healthy hext (by omega : 1 < cycle)
    (by omega) (by omega)).2 (by omega)
  rw [Written, Device.run_heal hrun] at hwritten
  have hput : d'.heal = d.heal.put start (fs.clearStream uuid cycle bbs) := by
    split_ifs at hwritten
    · exact (Prod.mk.inj hwritten).2
    · obtain ⟨e, he⟩ := hwritten
      cases (Prod.mk.inj he).1
  have hread : d'.heal.readBuf (start + 0) (bbs * bbsize)
      = ((fs.clearStream uuid cycle bbs).drop 0).take (bbs * bbsize) := by
    rw [hput]
    exact Disk.readBuf_put (by rw [hlength]; omega)
  rw [List.drop_zero, List.take_of_length_le hlength.le, clearStream_eq hsunit hn hlt (by omega)]
    at hread
  exact hread

/-- A log of 4096 blocks cleared for its second cycle. -/
theorem clearLog_layout_twoAgs : ∃ d' : Disk,
    devTwoAgs.run (fsTwoAgs.clearLog ⟨List.replicate 16 1, rfl⟩ 2) diskTwoAgs = (.ok (), d') ∧
    d'.readBuf 4096 (4096 * bbsize)
      = clearedLog ⟨List.replicate 16 1, rfl⟩ fsTwoAgs.geo.logsunit 2 4096 := by
  have hext : fsTwoAgs.geo.logExtent = .ok (4096, 4096) := by decide +kernel
  have hhealthy : diskTwoAgs.Healthy := rfl
  obtain ⟨d', hrun, -, -⟩ := run_clearLog devTwoAgs ⟨List.replicate 16 1, rfl⟩ hhealthy hext
    (by decide) (by decide) (by decide) (by decide : 1 ≤ 2) (by decide)
  exact ⟨d', hrun, clearLog_layout devTwoAgs fsTwoAgs ⟨List.replicate 16 1, rfl⟩ 2 4096 4096
    diskTwoAgs d' hext (by decide) (by decide) (by decide) (by decide) (by decide) hrun⟩

end Clear

end MkfsXfs
