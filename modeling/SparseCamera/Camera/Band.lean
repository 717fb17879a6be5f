import Mathlib.Data.Nat.ModEq
import SparseCamera.Camera.Mock

/-!
# The band of the mock camera

The mock camera should emit a band of neighbouring cells that walks around its grid, one cell with
every frame: frame `k` has the cells `k`, `k + 1` and so on, counted around the grid, and so no cell
twice. The program adds in 32 bits before it reduces, so on a grid with more than half of all 32-bit
indices the band can run over 2^32, and behind that it is another one (`isBand_iff`).

## The construction

Two numbers are compared throughout: the cell that is meant, `(k + i) % cells`, and the cell that is
computed, which is cut to 32 bits between the sum and the remainder. `mod_cut_eq_iff` says when one
cell is right. A band is right when its last cell is, since the offsets only grow along it, and that
is the condition of `isBand_iff`.

What the camera did before frame `k` is kept in `mockAfter`. Of all that it may have met, late
wake-ups and frames of other sizes, only the number of the acquisitions matters.
-/

namespace SparseCamera

open Memory

def MockConfig.cells (cfg : MockConfig) : ℕ := cfg.rows.toNat * cfg.cols.toNat

def MockConfig.width (cfg : MockConfig) : ℕ := min cfg.sites.toNat cfg.cells

/-- Frame `k` of a mock camera as it should be. -/
structure IsBand (cfg : MockConfig) (k : ℕ) (f : Frame) : Prop where
  sequence : f.sequence.toNat = k
  count : f.count.toNat = cfg.width
  support : f.contents.support =
    (List.range cfg.width).map fun i ↦ UInt32.ofNat ((k + i) % cfg.cells)
  distinct : f.contents.support.Nodup
  inside : ∀ s ∈ f.contents.support, s.toNat < cfg.cells

/-- The context after some acquisitions, each with the time it woke and the frame it was given. -/
def mockAfter (ctx : MockCtx) (calls : List (Int64 × Frame)) : MockCtx :=
  calls.foldl (fun ctx call ↦ (mockAcquire call.1 ctx call.2).2.2) ctx

/-- The frame that an acquisition fills after others. -/
def mockFrame (ctx : MockCtx) (calls : List (Int64 × Frame)) (tNs : Int64) (out : Frame) : Frame :=
  (mockAcquire tNs (mockAfter ctx calls) out).2.1

/-! ## Around the grid

No cell comes twice, since the band is no longer than the way around. This is about numbers
alone, and where the program cuts a sum to 32 bits there is a remainder. -/

section Cells

variable {cells k n i : ℕ}

private theorem nodup_band (hcells : cells < 2 ^ 32) (hn : n ≤ cells) :
    ((List.range n).map fun i ↦ UInt32.ofNat ((k + i) % cells)).Nodup := by
  refine List.Nodup.map_on ?_ List.nodup_range
  intro i hi j hj heq
  rw [List.mem_range] at hi hj
  have hlt (a : ℕ) : a % cells < 2 ^ 32 := (Nat.mod_lt a (by omega)).trans hcells
  have hmod : (k + i) % cells = (k + j) % cells := by
    have heq := congrArg UInt32.toNat heq
    rw [UInt32.toNat_ofNat_of_lt' (hlt _), UInt32.toNat_ofNat_of_lt' (hlt _)] at heq
    exact heq
  exact Nat.ModEq.eq_of_lt_of_lt (Nat.ModEq.add_left_cancel' k hmod) (by omega) (by omega)

/-- **Reducing after the sum was cut to 32 bits** is only right if nothing was cut. -/
theorem mod_cut_eq_iff (hcells : cells < 2 ^ 32) (hi : i < cells) :
    (k % cells + i) % 2 ^ 32 % cells = (k + i) % cells ↔ k % cells + i < 2 ^ 32 := by
  have hbase : k % cells < cells := Nat.mod_lt k (by omega)
  rw [← Nat.mod_add_mod k cells i]
  constructor
  · intro h
    by_contra hle
    -- what was cut is a multiple of the number of cells, and there is none that small
    have hcut : (k % cells + i) % 2 ^ 32 = k % cells + i - 2 ^ 32 := by omega
    have hover : (k % cells + i) % cells = k % cells + i - cells := by
      rw [Nat.mod_eq_sub_mod (by omega), Nat.mod_eq_of_lt (by omega)]
    rw [hcut, hover, Nat.mod_eq_of_lt (by omega)] at h
    omega
  · intro hlt
    rw [Nat.mod_eq_of_lt hlt]

end Cells

/-! ## The program's band -/

section Band

variable {cfg : MockConfig} {ctx : MockCtx}

theorem toNat_cells (hgrid : cfg.cells < 2 ^ 32) : (cfg.rows * cfg.cols).toNat = cfg.cells := by
  rw [UInt32.toNat_mul]
  exact Nat.mod_eq_of_lt hgrid

private theorem toNat_mockCount (hgrid : cfg.cells < 2 ^ 32) {capacity : UInt32}
    (hroom : cfg.cells ≤ capacity.toNat) : (mockCount cfg capacity).toNat = cfg.width := by
  have hcells := toNat_cells hgrid
  simp only [mockCount, UInt32.lt_iff_toNat_lt]
  rw [MockConfig.width]
  split_ifs <;> omega

theorem mockBand_eq (hgrid : cfg.cells < 2 ^ 32) (hpos : 0 < cfg.cells) {k : ℕ}
    (hk : k < 2 ^ 64)
    {n : UInt32} (hn : n.toNat = cfg.width) : mockBand cfg (.ofNat k) n = (List.range cfg.width).map
      fun i ↦ UInt32.ofNat ((k % cfg.cells + i) % 2 ^ 32 % cfg.cells) := by
  have hcells := toNat_cells hgrid
  have hbound (a : ℕ) : a % cfg.cells < 2 ^ 32 := (Nat.mod_lt a hpos).trans hgrid
  have hbase : ((UInt64.ofNat k % (cfg.rows * cfg.cols).toUInt64).toUInt32).toNat
      = k % cfg.cells := by
    rw [UInt64.toNat_toUInt32, UInt64.toNat_mod, UInt64.toNat_ofNat_of_lt' hk,
      UInt32.toNat_toUInt64, hcells, Nat.mod_eq_of_lt (hbound k)]
  rw [mockBand, hn]
  refine List.map_congr_left ?_
  intro i hi
  have hi' : i < 2 ^ 32 := by
    rw [List.mem_range] at hi
    exact hi.trans (lt_of_le_of_lt (min_le_right _ _) hgrid)
  rw [← UInt32.toNat_inj, UInt32.toNat_mod, UInt32.toNat_add, hbase, hcells,
    UInt32.toNat_ofNat_of_lt' hi', UInt32.toNat_ofNat_of_lt' (hbound _)]

/-! ## Frame after frame

An acquisition copies the band to the front of the frame and raises the sequence number by one,
whatever the clock says. So the frame after some others is known from how many they were. -/

theorem mockAcquire_of_up (hup : ctx.up = true) (tNs : Int64) (out : Frame) :
    mockAcquire tNs ctx out = (0,
      { out with
        support := overwrite out.support 0
          (mockBand ctx.cfg ctx.sequence (mockCount ctx.cfg out.capacity))
        signal := overwrite out.signal 0
          ((mockBand ctx.cfg ctx.sequence (mockCount ctx.cfg out.capacity)).map mockSignal)
        count := mockCount ctx.cfg out.capacity
        tNs := tNs
        sequence := ctx.sequence },
      { ctx with
        nextNs := if ctx.nextNs + ctx.periodNs ≤ tNs then tNs + ctx.periodNs
          else ctx.nextNs + ctx.periodNs
        sequence := ctx.sequence + 1 }) := by
  have hup' : ¬ctx.up = false := by simp [hup]
  rw [mockAcquire, if_neg hup']

private theorem mockAfter_spec (hup : ctx.up = true) (calls : List (Int64 × Frame)) :
    (mockAfter ctx calls).up = true ∧ (mockAfter ctx calls).cfg = ctx.cfg ∧
      (mockAfter ctx calls).sequence = ctx.sequence + UInt64.ofNat calls.length := by
  induction calls generalizing ctx with
  | nil => exact ⟨hup, rfl, (UInt64.add_zero _).symm⟩
  | cons call calls ih =>
    rw [mockAfter, List.foldl_cons, ← mockAfter, mockAcquire_of_up hup]
    obtain ⟨hup', hcfg, hsequence⟩ := @ih { ctx with
      nextNs := if ctx.nextNs + ctx.periodNs ≤ call.1 then call.1 + ctx.periodNs
        else ctx.nextNs + ctx.periodNs
      sequence := ctx.sequence + 1 } hup
    refine ⟨hup', hcfg, hsequence.trans ?_⟩
    rw [List.length_cons, Nat.add_comm, UInt64.ofNat_add, ← UInt64.add_assoc]
    rfl

/-- **The frame after some others** has their number and a band as its sites. -/
theorem mockFrame_spec (hup : ctx.up = true) (calls : List (Int64 × Frame)) (tNs : Int64)
    (out : Frame) :
    (mockFrame ctx calls tNs out).sequence = ctx.sequence + UInt64.ofNat calls.length ∧
      (mockFrame ctx calls tNs out).count = mockCount ctx.cfg out.capacity ∧
      (mockFrame ctx calls tNs out).contents.support = mockBand ctx.cfg
        (ctx.sequence + UInt64.ofNat calls.length) (mockCount ctx.cfg out.capacity) := by
  obtain ⟨hup', hcfg, hsequence⟩ := mockAfter_spec hup calls
  rw [mockFrame, mockAcquire_of_up hup', hcfg, hsequence]
  refine ⟨rfl, rfl, ?_⟩
  simp only [Frame.contents, overwrite_zero]
  exact List.take_left' (length_mockBand _ _ _)

theorem cells_of_maxSites (hmax : ¬(mockMaxSites ctx = 0 ∨ 0xffffffff < mockMaxSites ctx)) :
    0 < ctx.cfg.cells ∧ ctx.cfg.cells < 2 ^ 32 := by
  have htoNat : (mockMaxSites ctx).toNat = ctx.cfg.cells := toNat_mul_toUInt64 _ _
  have hbound : (0xffffffff : UInt64).toNat = 2 ^ 32 - 1 := rfl
  obtain ⟨hzero, hgrid⟩ := not_or.mp hmax
  rw [UInt64.not_lt, UInt64.le_iff_toNat_le, htoNat, hbound] at hgrid
  refine ⟨Nat.pos_of_ne_zero fun h ↦ hzero ?_, by omega⟩
  exact UInt64.toNat_inj.mp (htoNat.trans h)

theorem mockInit_spec {now : Int64} {ctx₀ : MockCtx} (hinit : mockInit now ctx = (0, ctx₀)) :
    0 < ctx.periodNs ∧
      ctx₀ = { ctx with sequence := 0, nextNs := now + ctx.periodNs, up := true } := by
  rw [mockInit] at hinit
  split_ifs at hinit with hperiod
  · cases hinit
  · exact ⟨Int64.not_le.mp hperiod, (Prod.mk.inj hinit).2.symm⟩

/-- The program's band is the band exactly when it does not run over 2^32. -/
theorem mockBand_eq_iff (hgrid : cfg.cells < 2 ^ 32) (hpos : 0 < cfg.cells) (hsites : cfg.sites ≠ 0)
    {k : ℕ} (hk : k < 2 ^ 64) {n : UInt32} (hn : n.toNat = cfg.width) :
    mockBand cfg (.ofNat k) n
        = (List.range cfg.width).map (fun i ↦ UInt32.ofNat ((k + i) % cfg.cells)) ↔
      k % cfg.cells + cfg.width ≤ 2 ^ 32 := by
  have hwidth : 0 < cfg.width := lt_min (Nat.pos_of_ne_zero fun h ↦
    hsites (UInt32.toNat_inj.mp h)) hpos
  have hle : cfg.width ≤ cfg.cells := min_le_right _ _
  have hbound (a : ℕ) : a % cfg.cells < 2 ^ 32 := (Nat.mod_lt a hpos).trans hgrid
  rw [mockBand_eq hgrid hpos hk hn, List.map_inj_left]
  constructor
  · intro h
    -- it is the last cell of the band that can be cut
    have hlast := congrArg UInt32.toNat (h (cfg.width - 1) (List.mem_range.mpr (by omega)))
    rw [UInt32.toNat_ofNat_of_lt' (hbound _), UInt32.toNat_ofNat_of_lt' (hbound _),
      mod_cut_eq_iff hgrid (by omega)] at hlast
    omega
  · intro hfits i hi
    rw [List.mem_range] at hi
    rw [(mod_cut_eq_iff hgrid (by omega)).mpr (by omega)]

/-- **When the band is the band.** Frame `k` after a mock camera was brought up is what it should be
exactly when the counter has not wrapped and the band does not run over 2^32. -/
theorem isBand_iff (hcreate : mockCtxCreate cfg = some ctx) (hsites : cfg.sites ≠ 0)
    (hmax : ¬(mockMaxSites ctx = 0 ∨ 0xffffffff < mockMaxSites ctx)) {now : Int64}
    {ctx₀ : MockCtx} (hinit : mockInit now ctx = (0, ctx₀)) (calls : List (Int64 × Frame))
    (tNs : Int64) {out : Frame} (hroom : cfg.cells ≤ out.capacity.toNat) :
    IsBand cfg calls.length (mockFrame ctx₀ calls tNs out) ↔
      calls.length < 2 ^ 64 ∧ calls.length % cfg.cells + cfg.width ≤ 2 ^ 32 := by
  obtain ⟨rfl, -⟩ := mockCtxCreate_spec hcreate
  obtain ⟨hpos, hgrid⟩ := cells_of_maxSites hmax
  obtain ⟨-, rfl⟩ := mockInit_spec hinit
  have hcount := toNat_mockCount hgrid hroom
  obtain ⟨hsequence, hcount', hsupport⟩ := @mockFrame_spec
    { ctx with sequence := 0, nextNs := now + ctx.periodNs, up := true } rfl calls tNs out
  rw [UInt64.zero_add] at hsequence hsupport
  constructor
  · intro h
    have hk : calls.length < 2 ^ 64 := by
      have hlt := (UInt64.ofNat calls.length).toNat_lt
      rw [← hsequence, h.sequence] at hlt
      exact hlt
    exact ⟨hk, (mockBand_eq_iff hgrid hpos hsites hk hcount).mp (hsupport.symm.trans h.support)⟩
  · rintro ⟨hk, hfits⟩
    have hband := hsupport.trans ((mockBand_eq_iff hgrid hpos hsites hk hcount).mpr hfits)
    refine ⟨?_, ?_, hband, ?_, ?_⟩
    · rw [hsequence]
      exact UInt64.toNat_ofNat_of_lt' hk
    · rw [hcount']
      exact hcount
    · rw [hband]
      exact nodup_band hgrid (min_le_right _ _)
    · rw [hband, List.forall_mem_map]
      intro i _
      rw [UInt32.toNat_ofNat_of_lt' ((Nat.mod_lt _ hpos).trans hgrid)]
      exact Nat.mod_lt _ hpos

end Band

/-! ## Two grids -/

def roomyFrame (capacity : UInt32) : Frame where
  support := List.replicate capacity.toNat 0
  signal := List.replicate capacity.toNat ⟨0⟩
  tNs := 0
  sequence := 0
  cameraId := 0
  count := 0
  capacity := capacity

def smallGrid : MockConfig := { rows := 2, cols := 3, sites := 4, fps := .fin 30 }

theorem isBand_smallGrid : ∃ ctx ctx₀, mockCtxCreate smallGrid = some ctx ∧
    mockInit 5 ctx = (0, ctx₀) ∧
    IsBand smallGrid 1 (mockFrame ctx₀ [(40000000, roomyFrame 6)] 70000000 (roomyFrame 6)) := by
  obtain ⟨ctx, hcreate⟩ : ∃ ctx, mockCtxCreate smallGrid = some ctx :=
    Option.isSome_iff_exists.mp (by decide +kernel)
  have hperiod := Int64.not_le.mpr (mockCtxCreate_spec hcreate).2
  have hinit : mockInit 5 ctx
      = (0, { ctx with sequence := 0, nextNs := 5 + ctx.periodNs, up := true }) := by
    rw [mockInit, if_neg hperiod]
  have hcells : mockMaxSites ctx = 6 := by
    rw [mockMaxSites, (mockCtxCreate_spec hcreate).1]
    rfl
  refine ⟨ctx, _, hcreate, hinit, ?_⟩
  exact (isBand_iff hcreate (by decide) (by rw [hcells]; decide) hinit [(40000000, roomyFrame 6)]
    70000000 (by decide)).mpr (by decide)

/-- A grid of 2^32 - 1 cells, which is as many as `build_cameras` accepts. -/
def wideGrid : MockConfig := { rows := 65535, cols := 65537, sites := 3, fps := .fin (10 ^ 9) }

/-- **A band that runs over.** Its last two cells are the same one. -/
theorem isBand_wideGrid : ∃ ctx ctx₀, mockCtxCreate wideGrid = some ctx ∧ wideGrid.sites ≠ 0 ∧
    ¬(mockMaxSites ctx = 0 ∨ 0xffffffff < mockMaxSites ctx) ∧ mockInit 0 ctx = (0, ctx₀) ∧
    ¬IsBand wideGrid (2 ^ 32 - 2) (mockFrame ctx₀ (List.replicate (2 ^ 32 - 2)
      (1, roomyFrame 0xffffffff)) 1 (roomyFrame 0xffffffff)) := by
  obtain ⟨ctx, hcreate⟩ : ∃ ctx, mockCtxCreate wideGrid = some ctx :=
    Option.isSome_iff_exists.mp (by decide +kernel)
  have hperiod := Int64.not_le.mpr (mockCtxCreate_spec hcreate).2
  have hinit : mockInit 0 ctx
      = (0, { ctx with sequence := 0, nextNs := 0 + ctx.periodNs, up := true }) := by
    rw [mockInit, if_neg hperiod]
  have hcells : mockMaxSites ctx = 0xffffffff := by
    rw [mockMaxSites, (mockCtxCreate_spec hcreate).1]
    rfl
  refine ⟨ctx, _, hcreate, by decide, by rw [hcells]; decide, hinit, ?_⟩
  intro h
  generalize hcalls : List.replicate (2 ^ 32 - 2) ((1 : Int64), roomyFrame 0xffffffff) = calls at h
  have hlength : calls.length = 2 ^ 32 - 2 := by
    rw [← hcalls, List.length_replicate]
  obtain ⟨-, -, hsupport⟩ := @mockFrame_spec
    { ctx with sequence := 0, nextNs := 0 + ctx.periodNs, up := true } rfl calls 1
    (roomyFrame 0xffffffff)
  have hband : mockBand wideGrid (UInt64.ofNat (2 ^ 32 - 2)) 3 = [4294967294, 0, 0] := by
    decide +kernel
  have hcount : mockCount wideGrid (roomyFrame 0xffffffff).capacity = 3 := by
    change mockCount wideGrid 0xffffffff = 3
    decide
  have hdistinct := h.distinct
  simp only [UInt64.zero_add] at hsupport
  rw [hsupport, hlength, (mockCtxCreate_spec hcreate).1, hcount, hband] at hdistinct
  revert hdistinct
  decide

end SparseCamera
