import SparseCamera.Camera.Basic
import SparseCamera.Lib.FixedWidth
import SparseCamera.Sink.Accounting

/-!
# The mock camera

A backend without hardware. It emits a band of sites that walks across a grid one cell per frame,
paced by a clock: each frame has an absolute deadline, and a frame that comes too late moves the
deadlines instead of letting a backlog build up.

What is assumed of the clock is `MockCtx.allowed`: `clock_nanosleep` returns at or after its
deadline, the clock is positive, and the deadlines stay inside `int64_t`.

## The invariant

`MockCtx.Running` describes a camera that was brought up and has produced `k` frames: its sequence
number is `k`, its grid has cells and its period is positive. One acquisition takes `k` to `k + 1`.
-/

namespace SparseCamera

open Memory

/-- `mock_config_t`. -/
structure MockConfig where
  rows : UInt32
  cols : UInt32
  sites : UInt32
  fps : ExtRat
deriving DecidableEq

/-- `struct mock_ctx`. -/
structure MockCtx where
  cfg : MockConfig
  periodNs : Int64
  nextNs : Int64
  sequence : UInt64
  up : Bool
deriving DecidableEq

/-- `mock_ctx_create`. -/
def mockCtxCreate (cfg : MockConfig) : Option MockCtx :=
  if cfg.rows = 0 ∨ cfg.cols = 0 ∨ cfg.fps.le (.fin 0) then none
  else
    let periodNs := (ExtRat.fin (10 ^ 9) / cfg.fps).toInt64
    if periodNs ≤ 0 then none
    else some { cfg := cfg, periodNs := periodNs, nextNs := 0, sequence := 0, up := false }

/-- `mock_max_sites`. -/
def mockMaxSites (ctx : MockCtx) : UInt64 := ctx.cfg.rows.toUInt64 * ctx.cfg.cols.toUInt64

/-- `mock_init`, given the clock. -/
def mockInit (now : Int64) (ctx : MockCtx) : ℤ × MockCtx :=
  if ctx.periodNs ≤ 0 then (-1, ctx)
  else (0, { ctx with sequence := 0, nextNs := now + ctx.periodNs, up := true })

def mockSignal (site : UInt32) : Binary32 :=
  Binary32.div (Binary32.ofNat (site % 256).toNat) (Binary32.ofNat 255)

/-- The number of sites of a frame: what was configured, but no more than the grid has cells or the
frame has room. -/
def mockCount (cfg : MockConfig) (capacity : UInt32) : UInt32 :=
  let total := cfg.rows * cfg.cols
  let n := cfg.sites
  let n := if total < n then total else n
  if capacity < n then capacity else n

/-- The band of `n` cells that starts one cell further with every frame. -/
def mockBand (cfg : MockConfig) (sequence : UInt64) (n : UInt32) : List UInt32 :=
  let total := cfg.rows * cfg.cols
  let base := (sequence % total.toUInt64).toUInt32
  (List.range n.toNat).map fun i ↦ (base + UInt32.ofNat i) % total

/-- `mock_acquire`, waking at `tNs`. -/
def mockAcquire (tNs : Int64) (ctx : MockCtx) (out : Frame) : ℤ × Frame × MockCtx :=
  if ctx.up = false then (-1, out, ctx)
  else
    let nextNs := ctx.nextNs + ctx.periodNs
    -- resync when the frame came too late for the next deadline
    let nextNs := if nextNs ≤ tNs then tNs + ctx.periodNs else nextNs
    let n := mockCount ctx.cfg out.capacity
    let sites := mockBand ctx.cfg ctx.sequence n
    (0,
      { out with
        support := overwrite out.support 0 sites
        signal := overwrite out.signal 0 (sites.map mockSignal)
        count := n
        tNs := tNs
        sequence := ctx.sequence },
      { ctx with nextNs := nextNs, sequence := ctx.sequence + 1 })

/-- The wake-ups the clock can deliver. -/
def MockCtx.allowed (tNs : Int64) (ctx : MockCtx) : Bool :=
  ctx.nextNs ≤ tNs && 0 < tNs && ctx.nextNs.toInt + ctx.periodNs.toInt < 2 ^ 63 &&
    tNs.toInt + ctx.periodNs.toInt < 2 ^ 63

/-- `mock_camera_interface`. -/
def mockCameraInterface : Backend MockCtx Int64 := ⟨mockAcquire, MockCtx.allowed⟩

/-! ## Creating a context -/

theorem mockCtxCreate_spec {cfg : MockConfig} {ctx : MockCtx} (h : mockCtxCreate cfg = some ctx) :
    ctx.cfg = cfg ∧ 0 < ctx.periodNs := by
  simp only [mockCtxCreate] at h
  split_ifs at h with hcfg hperiod
  obtain rfl := Option.some.inj h
  exact ⟨rfl, Int64.not_le.mp hperiod⟩

/-- **The period** is a number of nanoseconds for a positive number of frames, rounded down. -/
theorem mockCtxCreate_period {cfg : MockConfig} {ctx : MockCtx}
    (h : mockCtxCreate cfg = some ctx) :
    ∃ fps : ℚ, cfg.fps = .fin fps ∧ 0 < fps ∧ ctx.periodNs.toInt = ⌊10 ^ 9 / fps⌋ := by
  simp only [mockCtxCreate] at h
  split_ifs at h with hcfg hperiod
  obtain rfl := Option.some.inj h
  obtain ⟨-, hcfg⟩ := not_or.mp hcfg
  obtain ⟨-, hpos⟩ := not_or.mp hcfg
  obtain ⟨q, hq, hfloor⟩ := ExtRat.toInt64_of_pos (Int64.not_le.mp hperiod)
  simp only
  cases hfps : cfg.fps with
  | nan =>
    rw [hfps] at hq
    cases hq
  | negInf => exact absurd (hfps ▸ rfl) hpos
  | posInf =>
    -- no time at all
    exact absurd (by rw [hfps]; decide) hperiod
  | fin fps =>
    rw [hfps, ExtRat.le_fin, decide_eq_true_eq, not_le] at hpos
    rw [hfps, ExtRat.div_fin hpos.ne'] at hq hfloor
    rw [ExtRat.div_fin hpos.ne']
    exact ⟨fps, rfl, hpos, hfloor.trans (congrArg _ (ExtRat.fin.inj hq).symm)⟩

/-! ## Every value lands in the unit interval

The value of a site is a byte divided by 255, both of them exact in `float`. Only the quotient is
rounded, and 0 and 1 are themselves `float`s, so rounding cannot leave the interval. -/

private theorem toRat_ofNat_byte {n : ℕ} (h : n < 256) : (Binary32.ofNat n).toRat = n := by
  have hall : ∀ n < 256, (Binary32.ofNat n).toRat = n := by decide +kernel
  exact hall n h

private theorem mockSignal_mem_unit (site : UInt32) :
    (mockSignal site).isFinite = true ∧ 0 ≤ (mockSignal site).toRat ∧
      (mockSignal site).toRat ≤ 1 := by
  have hlt : (site % 256).toNat < 256 := by
    rw [UInt32.toNat_mod]
    exact Nat.mod_lt _ (by decide)
  have hsite := toRat_ofNat_byte hlt
  have h255 := toRat_ofNat_byte (n := 255) (by decide)
  have hle : ((site % 256).toNat : ℚ) ≤ 255 := by
    exact_mod_cast Nat.le_of_lt_succ hlt
  rw [mockSignal, Binary32.div, hsite, h255]
  apply Binary32.ofRat_mem_unit (by positivity)
  rw [div_le_one (by norm_num)]
  exact_mod_cast hle

/-! ## The band -/

theorem mockCount_le (cfg : MockConfig) (capacity : UInt32) :
    mockCount cfg capacity ≤ capacity := by
  rw [mockCount]
  split_ifs with h1 h2 h2
  · exact UInt32.le_refl _
  · exact UInt32.not_lt.mp h2
  · exact UInt32.le_refl _
  · exact UInt32.not_lt.mp h2

@[simp] theorem length_mockBand (cfg : MockConfig) (sequence : UInt64) (n : UInt32) :
    (mockBand cfg sequence n).length = n.toNat := by
  rw [mockBand, List.length_map, List.length_range]

theorem mockBand_lt (cfg : MockConfig) (sequence : UInt64) (n : UInt32)
    (hpos : 0 < (cfg.rows * cfg.cols).toNat) {s : UInt32} (hs : s ∈ mockBand cfg sequence n) :
    s.toNat < (cfg.rows * cfg.cols).toNat := by
  obtain ⟨i, -, rfl⟩ := List.mem_map.mp hs
  rw [UInt32.toNat_mod]
  exact Nat.mod_lt _ hpos

/-! ## One acquisition -/

theorem fills_mockCameraInterface : mockCameraInterface.Fills where
  frame := by
    intro tNs ctx out hsized
    simp only [mockCameraInterface, mockAcquire]
    split_ifs
    · exact ⟨hsized, rfl, rfl⟩
    all_goals
      have hroom := UInt32.le_iff_toNat_le.mp (mockCount_le ctx.cfg out.capacity)
      refine ⟨⟨?_, ?_⟩, rfl, rfl⟩
      · rw [length_overwrite (by have := hsized.support; rw [length_mockBand]; omega)]
        exact hsized.support
      · rw [length_overwrite (by
          have := hsized.signal
          rw [List.length_map, length_mockBand]
          omega)]
        exact hsized.signal

/-- A mock camera with a grid of `total` cells that was brought up, having produced `k` frames. -/
structure MockCtx.Running (ctx : MockCtx) (total k : ℕ) : Prop where
  up : ctx.up = true
  period : 0 < ctx.periodNs
  grid : (ctx.cfg.rows * ctx.cfg.cols).toNat = total
  pos : 0 < total
  sequence : ctx.sequence = UInt64.ofNat k

section Acquire

theorem toInt_add_of_lt {a p : Int64} (hp : 0 < p) (h : a.toInt + p.toInt < 2 ^ 63) :
    (a + p).toInt = a.toInt + p.toInt := by
  have ha := a.le_toInt
  have hp' : 0 < p.toInt := Int64.lt_iff_toInt_lt.mp hp
  exact (toInt_add_eq_iff a p).mpr ⟨by omega, h⟩

variable {ctx : MockCtx} {total k : ℕ} {tNs : Int64} {out : Frame}

/-- **One acquisition of a running mock camera** yields a stamped frame of sites inside the grid
with values in the unit interval, numbered by the frames before it, and moves the deadline past the
stamp. -/
theorem mockAcquire_running (h : ctx.Running total k) (hallowed : ctx.allowed tNs = true)
    (hsized : out.Sized) :
    ∃ frame ctx', mockAcquire tNs ctx out = (0, frame, ctx') ∧
      frame.Sized ∧ frame.capacity = out.capacity ∧ frame.count ≤ frame.capacity ∧
      frame.tNs = tNs ∧ frame.cameraId = out.cameraId ∧ frame.sequence = UInt64.ofNat k ∧
      (∀ s ∈ frame.contents.support, s.toNat < total) ∧ ValuesGood frame.contents ∧
      ctx'.Running total (k + 1) ∧ tNs < ctx'.nextNs := by
  simp only [MockCtx.allowed, Bool.and_eq_true, decide_eq_true_eq] at hallowed
  obtain ⟨⟨⟨-, hpos⟩, -⟩, hfits⟩ := hallowed
  have hup : ¬ctx.up = false := by simp [h.up]
  have hcount := mockCount_le ctx.cfg out.capacity
  have hroom := UInt32.le_iff_toNat_le.mp hcount
  have hlen := length_mockBand ctx.cfg ctx.sequence (mockCount ctx.cfg out.capacity)
  have hsupport := take_overwrite_zero out.support
    (mockBand ctx.cfg ctx.sequence (mockCount ctx.cfg out.capacity))
  have hsignal := take_overwrite_zero out.signal
    ((mockBand ctx.cfg ctx.sequence (mockCount ctx.cfg out.capacity)).map mockSignal)
  rw [List.length_map, hlen] at hsignal
  rw [hlen] at hsupport
  refine ⟨_, _, if_neg hup, ⟨?_, ?_⟩, rfl, hcount, rfl, rfl, h.sequence, ?_, ?_,
    ⟨h.up, h.period, h.grid, h.pos, ?_⟩, ?_⟩
  · rw [length_overwrite (by have := hsized.support; omega)]
    exact hsized.support
  · rw [length_overwrite (by have := hsized.signal; rw [List.length_map]; omega)]
    exact hsized.signal
  · intro s hs
    simp only [Frame.contents, hsupport] at hs
    exact h.grid ▸ mockBand_lt ctx.cfg ctx.sequence _ (h.grid ▸ h.pos) hs
  · intro v hv
    simp only [Frame.contents, hsignal, List.mem_map] at hv
    obtain ⟨site, -, rfl⟩ := hv
    exact mockSignal_mem_unit site
  · simp only
    rw [h.sequence, UInt64.ofNat_add]
    rfl
  · simp only
    split_ifs with hlate
    · have hperiod := Int64.lt_iff_toInt_lt.mp h.period
      have hzero : (0 : Int64).toInt = 0 := rfl
      rw [Int64.lt_iff_toInt_lt, toInt_add_of_lt h.period hfits]
      omega
    · exact Int64.not_le.mp hlate

theorem mockAcquire_onTime (hup : ctx.up = true) (out : Frame) :
    (mockAcquire ctx.nextNs ctx out).2.2
      = { ctx with nextNs := ctx.nextNs + ctx.periodNs, sequence := ctx.sequence + 1 } := by
  have hup' : ¬ctx.up = false := by simp [hup]
  rw [mockAcquire, if_neg hup']
  simp only [ite_self]

end Acquire

end SparseCamera
