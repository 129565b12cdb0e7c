import MkfsXfs.Admin.Renamed
import MkfsXfs.Format.Times

/-!
When a format succeeds (`format` in `src/format.rs`, after `Geometry::compute`).

* `Geometry.LogRoom`: the AG of the log has room for it and for the free list.
* `Accepted.setup_iff`: everything is planned exactly when it has.
* `format_outcome`: how a format of a computed geometry ends.
* `format_default`: with the defaults it succeeds on every device of 300 MiB or more.
-/

namespace MkfsXfs

open Checked Inode

/-- The AG of the log has room for the metadata before it, the log and the free list. -/
def Geometry.LogRoom (g : Geometry) : Prop :=
  g.preallocBlocks + g.logblocks + g.minFreelist
    ≤ if g.agcount = 2 then g.dblocks - g.agsize else g.agsize

section Outcome

variable {params : Params} {size : UInt64} {logical physical : UInt32} {g : Geometry}

/-- What was computed, planned with an error, fails with that error. -/
lemma setup_of_planAll_error {id : Identity} {e : Fault Error}
    (hg : Geometry.compute params size logical physical = .ok g) (hplans : planAll g = .error e) :
    setup params size logical physical id = .error e := by
  rw [setup, hg, ok_bind, hplans]
  rfl

/-- **Everything is planned exactly when the log has room.** -/
lemma Accepted.setup_iff (h : Accepted params size.toNat logical.toNat physical.toNat g)
    (id : Identity)
    (hg : Geometry.compute params size logical physical = .ok g) (hmin : g.AgsMin) :
    (∃ s, setup params size logical physical id = .ok s ∧ s.g = g) ↔ g.LogRoom := by
  constructor
  · rintro ⟨s, hs, rfl⟩
    have hall := planAll_isOk_iff.mp ⟨s.plans, (setup_eq_ok.mp hs).2.1⟩
    exact ((h.planAll_iff size.toNat_lt).mp hall).2
  · intro hroom
    obtain ⟨plans, hplans⟩ := planAll_isOk_iff.mpr ((h.planAll_iff size.toNat_lt).mpr
      ⟨h.covered_of_min size.toNat_lt hmin, hroom⟩)
    have hinitial := (h.counted size.toNat_lt hmin hplans).initial
    exact ⟨⟨g, id, plans, _⟩, setup_eq_ok.mpr ⟨hg, hplans, hinitial, rfl⟩, rfl⟩

end Outcome

/-- **How a format ends.**  On a healthy disk, a format of a geometry none of whose AGs is too
short succeeds and reports that geometry, when its log has room and its time can be stored; it
panics when the time cannot be stored; and when the log has no room it returns the error that the
AG of the log has no space for its free list, and has written nothing. -/
theorem format_outcome (params : Params) (size : UInt64) (logical physical : UInt32)
    (g : Geometry) (hg : Geometry.compute params size logical physical = .ok g)
    (hmin : g.AgsMin) (id : Identity) (order : List ℕ)
    (horder : Unordered agConcurrency (List.range g.agcount) order) (d : Disk)
    (hd : d.Healthy) :
    (g.LogRoom ∧ (∃ raw, encodeTime id.time g.features.bigtime = .ok raw) ∧
      ∃ report d₀, (Device.ofSize size logical).run
        (format params size logical physical id order) d = (.ok report, d₀) ∧
          report.geometry = g) ∨
    (g.LogRoom ∧ encodeTime id.time g.features.bigtime = .error .panic ∧
      ((Device.ofSize size logical).run
        (format params size logical physical id order) d).1 = .error .panic) ∨
    (¬ g.LogRoom ∧ (Device.ofSize size logical).run
      (format params size logical physical id order) d =
        (.error (.error (.invalidParams s!"AG {g.logagno} has no space for its free list")),
          d)) := by
  have h := compute_eq_ok.mp hg
  by_cases hroom : g.LogRoom
  · obtain ⟨s, hs, rfl⟩ := (h.setup_iff id hg hmin).mpr hroom
    have hid : s.id = id := (setup_eq_ok.mp hs).2.2.2
    have hlog := h.logFits size.toNat_lt (setup_eq_ok.mp hs).2.1
    have hmem : ∀ i ∈ order, i < s.g.agcount := fun i hi =>
      List.mem_range.mp (horder.perm.mem_iff.mp hi)
    have hrun := run_format hs hmin hlog hmem hd
    rcases encodeTime_cases id.time s.g.features.bigtime with hpanic | ⟨raw, henc, -⟩
    · refine .inr (.inl ⟨hroom, hpanic, ?_⟩)
      have hchunk : s.chunk = _ := @Setup.chunk_withTime _ _ _ _ _ s s.id.time hs
      rw [hrun, Setup.result, hchunk, hid, h.rootChunk_panic hpanic]
      rfl
    · refine .inl ⟨hroom, ⟨raw, henc⟩, s.report, d.apply (s.ops size.toNat order), ?_, rfl⟩
      rw [hrun, Setup.result_ok hs ⟨raw, by rw [hid]; exact henc⟩]
  · refine .inr (.inr ⟨hroom, ?_⟩)
    have hplans : planAll g = _ :=
      h.planAll_eq_error size.toNat_lt (h.covered_of_min size.toNat_lt hmin) hroom
    rw [format_of_error (setup_of_planAll_error hg hplans)]
    rfl

/-- The format of 512 MiB succeeds. -/
theorem format_outcome_512m : ∃ report d₀, (Device.ofSize 536870912 512).run
    (format {} 536870912 512 512 setup512m.id [0, 1, 2, 3]) Disk.blank = (.ok report, d₀) ∧
      report.geometry = geo512m := by
  have hcount : geo512m.agcount = 4 := rfl
  have horder : Unordered agConcurrency (List.range geo512m.agcount) [0, 1, 2, 3] := by
    rw [hcount]
    exact .self (by decide) _
  have hblank : Disk.blank.Healthy := rfl
  rcases format_outcome {} 536870912 512 512 geo512m compute_geo512m agsMin_geo512m
    setup512m.id [0, 1, 2, 3] horder Disk.blank hblank with
    ⟨-, -, hok⟩ | ⟨-, hpanic, -⟩ | ⟨hroom, -⟩
  · exact hok
  · exact absurd hpanic (by decide)
  · exact absurd (by decide : geo512m.preallocBlocks + geo512m.logblocks + geo512m.minFreelist
      ≤ if geo512m.agcount = 2 then geo512m.dblocks - geo512m.agsize else geo512m.agsize) hroom

/-! ### With the defaults -/

/-- With the defaults no AG is too short and the log has room. -/
lemma Accepted.default_room {params : Params} {size : UInt64} {logical physical : ℕ}
    {g : Geometry} (h : Accepted params size.toNat logical physical g)
    (hreq : DefaultRequest params logical physical) : g.AgsMin ∧ g.LogRoom := by
  have hsize := size.toNat_lt
  have h4 := h.four_le_agcount hreq.agsize hreq.agcount
  have hcovered : g.Covered := h.covered_iff.mpr fun _ n hn => by
    rw [hreq.agcount] at hn
    cases hn
  refine ⟨fun agno hag => ?_, ?_⟩
  · obtain ⟨len, hlen, hge, -⟩ := ((h.tiles_iff hsize).mpr hcovered).agBlocks agno hag
    exact ⟨len, hlen, hge⟩
  · rw [Geometry.LogRoom, h.room_eq (.inl (by omega)), h.room_full hsize]
    exact fun _ => h.logBlocks_default hreq.agsize hreq.agcount

/-- **With the defaults a format always succeeds**, on every device of 300 MiB or more and at every
time that can be stored, and what it leaves opens. -/
theorem format_default (params : Params) (size : UInt64) (logical physical : UInt32)
    (hreq : DefaultRequest params logical.toNat physical.toNat) (hsize : 300 * mib ≤ size.toNat)
    (id : Identity) (htime : ∃ raw, encodeTime id.time true = .ok raw) :
    ∃ g, Geometry.compute params size logical physical = .ok g ∧
      ∀ order, Unordered agConcurrency (List.range g.agcount) order → ∀ d : Disk, d.Healthy →
        ∃ report d₀, (Device.ofSize size logical).run
            (format params size logical physical id order) d = (.ok report, d₀) ∧
          report.geometry = g ∧
          ∃ fs, (Device.ofSize size logical).run (openFs (Device.ofSize size logical)) d₀ =
            (.ok fs, d₀) ∧ fs.geo = g.geo ∧ fs.metaUuid = id.uuid := by
  obtain ⟨g, h⟩ := default_accepted hreq size.toNat_lt hsize
  obtain ⟨hmin, hroom⟩ := h.default_room hreq
  refine ⟨g, h.compute_eq, fun order horder d hd => ?_⟩
  obtain ⟨s, hs, rfl⟩ := (h.setup_iff id h.compute_eq hmin).mpr hroom
  have hid : s.id = id := (setup_eq_ok.mp hs).2.2.2
  have hmem : ∀ i, i ∈ order ↔ i < s.g.agcount := fun i => by
    rw [horder.perm.mem_iff, List.mem_range]
  have hbig : s.g.features.bigtime = true := by
    rw [h.features, hreq.features]
  have hresult : s.result = .ok s.report := Setup.result_ok hs (by
    rw [hid, hbig]
    exact htime)
  obtain ⟨r, hchunk, -⟩ := bind_eq_ok.mp (show (s.chunk >>= fun _ => .ok s.report) = _ from hresult)
  have f : Formatted params size logical physical id order s := ⟨hs, hmin, hmem, r, hchunk⟩
  have hgoes := f.goes hd
  refine ⟨s.report, d.apply (s.ops size.toNat order), ?_, rfl, f.fs d, ?_, rfl, ?_⟩
  · rw [run_format hs hmin f.fits (fun i hi => (hmem i).mp hi) hd, hresult]
  · exact run_openFs hgoes.healthy f.opened
  · rw [hgoes.metaUuid_eq, hid]

/-- A device of 4 TiB less a byte, in blocks of 1 KiB. -/
theorem format_default_four_tib : ∃ g,
    Geometry.compute { blockSize := some 1024 } 4398046511103 512 4096 = .ok g ∧
      ∀ order, Unordered agConcurrency (List.range g.agcount) order → ∀ d : Disk, d.Healthy →
        ∃ report d₀, (Device.ofSize 4398046511103 512).run
            (format { blockSize := some 1024 } 4398046511103 512 4096 setup512m.id order) d =
              (.ok report, d₀) ∧
          report.geometry = g ∧
          ∃ fs, (Device.ofSize 4398046511103 512).run
              (openFs (Device.ofSize 4398046511103 512)) d₀ = (.ok fs, d₀) ∧
            fs.geo = g.geo ∧ fs.metaUuid = setup512m.id.uuid :=
  format_default { blockSize := some 1024 } 4398046511103 512 4096
    { size := rfl, agsize := rfl, agcount := rfl, sectorSize := rfl, inodeSize := rfl,
      features := rfl, blocksize := ⟨10, by decide, by decide, rfl⟩,
      imaxpct := fun _ h => (by cases h), label := fun _ h => (by cases h),
      logical_pow := ⟨9, by decide, rfl⟩, logical_le := by decide,
      physical_pow := ⟨12, rfl⟩ } (by decide) setup512m.id ⟨3847483648000000000, by decide⟩

end MkfsXfs
