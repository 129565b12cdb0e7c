import MkfsXfs.Admin.Endures
import MkfsXfs.Cli.Options

/-!
From the command line of `mkfs-xfs` to the disk and back (`src/bin/mkfs_xfs.rs`,
`Geometry::compute`, `format` and `geometry`).

* `Stated`: what is written for a key.  `Cli.Asks`: a geometry has the numbers that are written.
* `Cli.asks`: the geometry computed from a command line has them.
* `format_asked`: so has the one that is read from the disk, whatever became of it.
-/

namespace MkfsXfs

open Checked

/-- The number of the last sub-option for the key is as `p` says, or there is none and `q`. -/
def Stated (list : List String) (key : String) (p : ℕ → Prop) (q : Prop) : Prop :=
  match Settings.last (subopts list) key with
  | none => q
  | some v => ∃ n, Denotes v n ∧ p n

/-- The geometry, on a device of `size` bytes and the sector sizes, has the numbers that are
written: the block, sector and inode sizes cut to 32 bits, the AG size, and the data size but for
less than an AG. Without a number the sector size is chosen by the device's. -/
structure Cli.Asks (cli : Cli) (size logical physical : ℕ) (g : Geo) : Prop where
  blocksize : Stated cli.block "size" (g.blocksize = · % 2 ^ 32) (g.blocksize = 4096)
  sectsize : Stated cli.sector "size" (g.sectsize = · % 2 ^ 32)
    (g.sectsize = chooseSectorsize {} g.blocksize (max logical minSectorsize) physical)
  inodesize : Stated cli.inode "size" (g.inodesize = · % 2 ^ 32) (g.inodesize = 512)
  agblocks : Stated cli.data "agsize" (g.agblocks * g.blocksize = ·)
    (g.agblocks ≤ g.dblocks)
  dblocks : Stated cli.data "size"
    (fun n => g.dblocks * g.blocksize ≤ n ∧ n < (g.dblocks + g.agblocks) * g.blocksize)
    (size < (g.dblocks + g.agblocks) * g.blocksize)
  dblocks_le : g.dblocks * g.blocksize ≤ size

section Computed

variable {params : Params} {dev logical physical : ℕ} {g : Geometry}

/-- Less than an AG is given up. -/
lemma Accepted.askedBytes_lt (h : Accepted params dev logical physical g) :
    params.askedBytes dev < (g.dblocks + g.agsize) * g.blocksize := by
  have hs := h.agsize_ge
  have hbs := h.blocksize_pos
  have hblocks : params.askedBlocks dev < g.dblocks + g.agsize := by
    have hal := h.aligned
    rw [h.askedBlocks_eq] at hal
    split_ifs at hal with hlast
    · obtain ⟨hnone, hcount, hd⟩ := hal
      rw [askedAgcount_of_chosen (fun _ => hnone)] at hcount
      have hle : params.askedBlocks dev ≤ (g.agcount + 1) * g.agsize := by
        rw [hcount]
        exact le_divCeil_mul (by omega)
      have hne : params.askedBlocks dev ≠ (g.agcount + 1) * g.agsize := fun heq => by
        have hmod := hlast.1
        rw [heq] at hmod
        exact hmod (Nat.mul_mod_left _ _)
      rw [Nat.add_one_mul] at hle hne
      omega
    · rw [hal.2]
      omega
  have hround : params.askedBytes dev < (params.askedBlocks dev + 1) * g.blocksize := by
    rw [← h.askedBlocks_eq, h.blocksize, Nat.shiftRight_eq_div_pow, Nat.add_one_mul,
      Nat.mul_comm]
    exact Nat.lt_mul_div_succ _ (by positivity)
  exact hround.trans_le (Nat.mul_le_mul_right _ hblocks)

/-- A field is what is written for it. -/
lemma FieldRead.written {β : Type} {list : List String} {key : String} {narrow : UInt64 → β}
    {field : Option β} {p : ℕ → Prop} {q : Prop} (h : FieldRead list key narrow field)
    (hq : field = none → q) (hp : ∀ c : UInt64, field = some (narrow c) → p c.toNat) :
    Stated list key p q := by
  have hlast := h.last
  rw [Stated]
  cases hl : Settings.last (subopts list) key with
  | none =>
      rw [hl] at hlast
      exact hq hlast
  | some v =>
      rw [hl] at hlast
      obtain ⟨c, hc, hfield⟩ := hlast
      exact ⟨c.toNat, parseSize_eq_ok.mp hc, hp c hfield⟩

/-- **The geometry of a command line has the numbers that are written.** -/
lemma Cli.asks {parseUuid : String → Option Uuid} {cli : Cli} {uuid : Option Uuid} {x : ℕ}
    (hcli : cli.params parseUuid = .ok (params, uuid))
    (h : Accepted params dev logical physical g) :
    cli.Asks dev logical physical { g.geo with incompat := x } := by
  obtain ⟨hblock, hsector, hinode, hsize, hagsize⟩ := Cli.params_reads hcli
  have hlt := h.askedBytes_lt
  have hle := (Nat.mul_le_mul_right g.blocksize h.dblocks_le).trans h.askedBlocks_mul_le
  refine ⟨hblock.written (fun hnone => ?_) fun c hc => ?_,
    hsector.written (fun hnone => ?_) fun c hc => ?_, hinode.written (fun hnone => ?_) fun c hc => ?_,
    hagsize.written (fun _ => h.agsize_le) fun c hc => ?_,
    hsize.written (fun hnone => ?_) fun c hc => ?_, ?_⟩
  · have hasked := h.asked_blocksize
    rw [hnone] at hasked
    exact hasked
  · have hasked := h.asked_blocksize
    rw [hc] at hasked
    exact hasked.trans (UInt64.toNat_toUInt32 c)
  · have hasked := h.asked_sectsize
    rw [chooseSectorsize, hnone] at hasked
    exact hasked
  · have hasked := h.asked_sectsize
    rw [chooseSectorsize, hc] at hasked
    exact hasked.trans (UInt64.toNat_toUInt32 c)
  · have hasked := h.asked_inodesize
    rw [hnone] at hasked
    exact hasked
  · have hasked := h.asked_inodesize
    rw [hc] at hasked
    exact hasked.trans (UInt64.toNat_toUInt32 c)
  · have hwhole := h.agsize_whole c hc
    have hasked := h.agsize
    rw [Params.askedAgsize, hc] at hasked
    change g.agsize * g.blocksize = c.toNat
    rw [hasked]
    exact Nat.div_mul_cancel (Nat.dvd_of_mod_eq_zero hwhole)
  · rw [Params.askedBytes, hnone] at hlt
    exact hlt
  · rw [Params.askedBytes, hc] at hlt hle
    exact ⟨hle, hlt⟩
  · exact (Nat.mul_le_mul_right g.blocksize h.dblocks_le).trans h.asked_mul_le

end Computed

/-! ### Read from the disk -/

section Reads

variable {dev : Device} {d : Disk} {fs : Fs}

/-- The geometry of a filesystem that opens is read. -/
lemma Opened.run_geometry (h : Opened dev d fs) (hd : d.Healthy) :
    ∃ r, (dev.run (geometry dev) d).1 = .ok r ∧ r.1 = fs.geo := by
  refine ⟨⟨fs.geo, Geo.parse_valid h.parsed⟩, ?_, rfl⟩
  rw [geometry, Device.run_bind_ok (Device.run_readAt hd ?_)]
  · rw [Device.run_monadLift]
    exact Geo.parseValid_eq_ok.mpr h.parsed
  · rw [Nat.zero_add]
    exact min_le_right _ _

end Reads

/-- **What is asked for on the command line is what is read from the disk**: after the format, and
after any sessions of calls, failures and power losses. -/
theorem format_asked (parseUuid : String → Option Uuid) (cli : Cli) (params : Params)
    (uuid : Option Uuid) (hcli : cli.params parseUuid = .ok (params, uuid)) (size : UInt64)
    (logical physical : UInt32) (id : Identity) (s : Setup)
    (hs : setup params size logical physical id = .ok s) (order : List ℕ)
    (horder : Unordered agConcurrency (List.range s.g.agcount) order) (d d₀ : Disk)
    (report : Report) (hrun : (Device.ofSize size logical).run
      (format params size logical physical id order) d = (.ok report, d₀)) (boot : Disk)
    (hboots : Boots (Device.ofSize size logical) d₀ boot) (calls : List Call) :
    ∃ g, ((Device.ofSize size logical).run (geometry (Device.ofSize size logical))
        (Call.leave (Device.ofSize size logical).step (Device.ofSize size logical) calls
          boot).heal).1 = .ok g ∧ cli.Asks size.toNat logical.toNat physical.toNat g.1 := by
  obtain ⟨f, hd₀, hshown⟩ := Formatted.of_run hs horder hrun
  have hall := f.endures hd₀ hshown hboots calls
  have hopen : Opened (Device.ofSize size logical) (Call.leave (Device.ofSize size logical).step
      (Device.ofSize size logical) calls boot).heal (f.lastFs d.heal _) :=
    (f.endures_holds hall).opened.of_bytes rfl
  obtain ⟨g, hread, hg⟩ := hopen.run_geometry (Disk.heal_healthy _)
  refine ⟨g, hread, ?_⟩
  rw [hg]
  exact Cli.asks hcli f.accepted

/-- The command line with the defaults written out. -/
def asks512m : Cli := { block := ["size=64k", "size=4K"], inode := ["size=512,sparse=1"] }

lemma params_asks512m : asks512m.params (fun _ => none) =
    .ok ({ blockSize := some 4096, inodeSize := some 512 }, none) := by decide

/-- The filesystem of 512 MiB that it asks for, when the power is lost in a UUID change and an
operation of the next one fails. -/
theorem format_asked_512m : ∃ d₀ kept lost, (Device.ofSize 536870912 512).run
      (format { blockSize := some 4096, inodeSize := some 512 } 536870912 512 512 setup512m.id
        [0, 1, 2, 3]) Disk.blank = (.ok setup512m.report, d₀) ∧
    done512m d₀ = kept ++ lost ∧ (∀ op ∈ lost, op ≠ .flush) ∧
    ∃ g, ((Device.ofSize 536870912 512).run (geometry (Device.ofSize 536870912 512))
        (Call.leave (Device.ofSize 536870912 512).step (Device.ofSize 536870912 512)
          [.setUuid zeroUuid, .dump] (rebooted d₀ kept)).heal).1 = .ok g ∧
      asks512m.Asks 536870912 512 512 g.1 := by
  have hsetup : setup { blockSize := some 4096, inodeSize := some 512 } 536870912 512 512
      setup512m.id = .ok setup512m := setup_512m
  obtain ⟨d₀, hrun⟩ := exists_run_512m
  rw [format, setup_512m, ← hsetup, ← format] at hrun
  obtain ⟨kept, lost, hsplit, hlost, hboots⟩ := boots_512m d₀
  refine ⟨d₀, kept, lost, hrun, hsplit, hlost, ?_⟩
  exact format_asked (fun _ => none) asks512m _ none params_asks512m 536870912 512 512
    setup512m.id setup512m hsetup [0, 1, 2, 3] unordered_512m Disk.blank d₀ setup512m.report hrun
    (rebooted d₀ kept) hboots [.setUuid zeroUuid, .dump]

end MkfsXfs
