import SparseCamera.Smoke.Build

/-!
# One geometry

The size of a camera's grid is computed four times: by the backend for the whole grid, by the
publisher for its frame and its scratch buffer, by the sink for its bounds and its decode buffer,
and by the backend again when it fills a frame. Two of these are in 64 bits and the others in 32.
They agree because `build_cameras` admits no grid whose cells cannot be counted in 32 bits, and
because no backend changes the grid it was created with.

## The construction

A context `Covers` a number of cells: the number is that of its grid, and it is small enough for 32
bits. This is decided before the camera is opened: `build_cameras` computes the number in 64 bits
and rejects what does not fit. From then on it is kept: bringing a device up and acquiring frames
change other fields.
-/

namespace SparseCamera

open CString Memory

namespace BackendKind

/-- The rows and columns of the grid a context was created with. -/
def grid : (b : BackendKind) → b.Impl → UInt32 × UInt32
  | mock => fun ctx : MockCtx ↦ (ctx.cfg.rows, ctx.cfg.cols)
  | v4l2 => fun ctx : V4l2Ctx ↦ (ctx.cfg.gridRows, ctx.cfg.gridCols)

/-- The grid has `total` cells, and they can be counted in 32 bits. -/
structure Covers (b : BackendKind) (impl : b.Impl) (total : ℕ) : Prop where
  cells : (b.grid impl).1.toNat * (b.grid impl).2.toNat = total
  pos : 0 < total
  small : total < 2 ^ 32

end BackendKind

/-! ## Creating a context

`parse_grid` rejects an empty grid, and the product of two 32-bit numbers does not overflow 64 bits.
So the check sees the true number. -/

section Create

variable {ini : Ini} {name : Bytes} {granted : Bool}

theorem mockFromIni_eq_ok {ctx : MockCtx} (h : ini.mockFromIni name granted = .ok ctx) :
    iniCheckKeys ini name mockKeys = .ok () ∧
      (∃ grid, iniGetStr ini name (ascii "grid") (some (ascii "64x64")) = .ok grid ∧
        grid.bind parseGrid = some (ctx.cfg.rows, ctx.cfg.cols)) ∧
      iniGetF64 ini name (ascii "fps") (.fin 30) = .ok ctx.cfg.fps ∧
      mockCtxCreate ctx.cfg = some ctx := by
  rw [Ini.mockFromIni] at h
  obtain ⟨⟨⟩, hkeys, h⟩ := bind_eq_ok.mp h
  obtain ⟨grid, hgrid, h⟩ := bind_eq_ok.mp h
  obtain ⟨sites, -, h⟩ := bind_eq_ok.mp h
  obtain ⟨fps, hfps, h⟩ := bind_eq_ok.mp h
  refine ⟨hkeys, ?_⟩
  split at h
  · cases h
  · next rows cols hparse =>
    -- a context keeps the configuration it is created with
    have hcreate : mockCtxCreate { rows := rows, cols := cols, sites := sites, fps := fps }
        = some ctx := by
      split_ifs at h
      simp only at h
      split at h
      · cases h
      · next ctx' hcreate => rw [hcreate, Except.ok.inj h]
    obtain ⟨hcfg, -⟩ := mockCtxCreate_spec hcreate
    rw [hcfg]
    exact ⟨⟨grid, hgrid, hparse⟩, hfps, hcreate⟩

theorem v4l2FromIni_eq_ok {ctx : V4l2Ctx} (h : ini.v4l2FromIni name granted = .ok ctx) :
    iniCheckKeys ini name v4l2Keys = .ok () ∧
      (∃ grid, iniGetStr ini name (ascii "grid") (some (ascii "64x64")) = .ok grid ∧
        grid.bind parseGrid = some (ctx.cfg.gridRows, ctx.cfg.gridCols)) ∧
      iniGetU32 ini name (ascii "timeout_ms") 2000 = .ok ctx.cfg.timeoutMs ∧
      ∃ threshold, iniGetU32 ini name (ascii "threshold") 32 = .ok threshold ∧
        threshold ≤ 255 ∧ ctx.cfg.threshold = threshold.toUInt8 := by
  rw [Ini.v4l2FromIni] at h
  obtain ⟨⟨⟩, hkeys, h⟩ := bind_eq_ok.mp h
  obtain ⟨device, -, h⟩ := bind_eq_ok.mp h
  obtain ⟨res, -, h⟩ := bind_eq_ok.mp h
  obtain ⟨grid, hgrid, h⟩ := bind_eq_ok.mp h
  obtain ⟨threshold, hthreshold, h⟩ := bind_eq_ok.mp h
  obtain ⟨nBuffers, -, h⟩ := bind_eq_ok.mp h
  obtain ⟨timeoutMs, htimeout, h⟩ := bind_eq_ok.mp h
  refine ⟨hkeys, ?_⟩
  split at h
  · cases h
  · split at h
    · cases h
    · next rows cols hparse =>
      split_ifs at h with hbyte
      rw [← Except.ok.inj h]
      exact ⟨⟨grid, hgrid, hparse⟩, htimeout, threshold, hthreshold, UInt32.not_lt.mp hbyte, rfl⟩

/-- **Every backend** takes the keys of its own schema only, and a grid that is not empty. -/
theorem create_eq_ok {b : BackendKind} {impl : b.Impl} (h : b.create ini name granted = .ok impl) :
    iniCheckKeys ini name b.keys = .ok () ∧
      ∃ grid, iniGetStr ini name (ascii "grid") (some (ascii "64x64")) = .ok grid ∧
        grid.bind parseGrid = some (b.grid impl) := by
  cases b with
  | mock =>
    obtain ⟨hkeys, hgrid, -⟩ := mockFromIni_eq_ok h
    exact ⟨hkeys, hgrid⟩
  | v4l2 =>
    obtain ⟨hkeys, hgrid, -⟩ := v4l2FromIni_eq_ok h
    exact ⟨hkeys, hgrid⟩

private theorem v4l2InfoFromCtx_eq {ctx : V4l2Ctx} (hrows : ctx.cfg.gridRows ≠ 0)
    (hcols : ctx.cfg.gridCols ≠ 0) :
    (v4l2InfoFromCtx ctx).rows = ctx.cfg.gridRows.toUInt64 ∧
      (v4l2InfoFromCtx ctx).cols = ctx.cfg.gridCols.toUInt64 :=
  ⟨if_pos hrows, if_pos hcols⟩

/-- **The size a backend reports** is the number of cells, exactly. -/
theorem toNat_maxSites {b : BackendKind} {impl : b.Impl} (hrows : (b.grid impl).1 ≠ 0)
    (hcols : (b.grid impl).2 ≠ 0) :
    (b.maxSites impl).toNat = (b.grid impl).1.toNat * (b.grid impl).2.toNat := by
  cases b with
  | mock => exact toNat_mul_toUInt64 _ _
  | v4l2 =>
    obtain ⟨hrows', hcols'⟩ := @v4l2InfoFromCtx_eq impl hrows hcols
    have hsites : v4l2MaxSites impl = impl.cfg.gridRows.toUInt64 * impl.cfg.gridCols.toUInt64 :=
      congrArg₂ (· * ·) hrows' hcols'
    change (v4l2MaxSites impl).toNat = _
    rw [hsites]
    exact toNat_mul_toUInt64 _ _

/-- A context that passes the check in `build_cameras`. -/
theorem covers_of_create {b : BackendKind} {impl : b.Impl}
    (h : b.create ini name granted = .ok impl)
    (hsites : ¬(b.maxSites impl = 0 ∨ 0xffffffff < b.maxSites impl)) :
    b.Covers impl (b.maxSites impl).toNat := by
  obtain ⟨-, grid, -, hparse⟩ := create_eq_ok h
  obtain ⟨value, -, hvalue⟩ := Option.bind_eq_some_iff.mp hparse
  obtain ⟨hrows, hcols⟩ := parseGrid_ne_zero hvalue
  obtain ⟨hzero, hlarge⟩ := not_or.mp hsites
  refine ⟨(toNat_maxSites hrows hcols).symm, ?_, ?_⟩
  · rw [Nat.pos_iff_ne_zero]
    intro hnat
    exact hzero (UInt64.toNat_inj.mp hnat)
  · exact Nat.lt_of_le_of_lt (UInt64.le_iff_toNat_le.mp (UInt64.not_lt.mp hlarge)) (by decide)

end Create

/-! ## Bringing it up -/

section Init

variable {b : BackendKind} {impl : b.Impl} {total : ℕ}

theorem cfg_mockInit (now : Int64) (ctx : MockCtx) : (mockInit now ctx).2.cfg = ctx.cfg := by
  rw [mockInit]
  split_ifs <;> rfl

theorem periodNs_mockInit (now : Int64) (ctx : MockCtx) :
    (mockInit now ctx).2.periodNs = ctx.periodNs := by
  rw [mockInit]
  split_ifs <;> rfl

private theorem cfg_mapBuffersFrom (env : ℕ → MapEnv) (ctx : V4l2Ctx) (i k : ℕ) :
    (mapBuffersFrom env ctx i k).2.1.cfg = ctx.cfg := by
  induction k generalizing ctx i with
  | zero => rfl
  | succ k ih =>
    rw [mapBuffersFrom]
    cases (env i).queryBuf with
    | none => rfl
    | some length =>
      cases (env i).mmap with
      | none => rfl
      | some mapping =>
        simp only
        split_ifs
        · exact ih _ _
        · rfl

theorem cfg_v4l2Init (env : BringUpEnv) (ctx : V4l2Ctx) :
    (v4l2Init env ctx).2.1.cfg = ctx.cfg := by
  have hformat (ctx : V4l2Ctx) : (v4l2SetFmt env.format ctx).2.cfg = ctx.cfg := by
    cases env.format with
    | none => rfl
    | some pix =>
      simp only [v4l2SetFmt]
      split_ifs <;> rfl
  have hbuffers (ctx : V4l2Ctx) :
      (v4l2ReqBuffers env.granted env.calloc ctx).2.cfg = ctx.cfg := by
    cases env.granted with
    | none => rfl
    | some count =>
      simp only [v4l2ReqBuffers]
      split_ifs <;> rfl
  have hmapped (ctx : V4l2Ctx) : (v4l2MapBuffers env.map ctx).2.1.cfg = ctx.cfg :=
    cfg_mapBuffersFrom _ _ _ _
  rw [v4l2Init]
  split
  · rfl
  · simp only
    split_ifs
    · rfl
    · exact hformat _
    · exact (hbuffers _).trans (hformat _)
    all_goals exact (hmapped _).trans ((hbuffers _).trans (hformat _))

/-- Every backend has an `init`, and it leaves the grid as it is. -/
theorem grid_init (b : BackendKind) :
    ∃ init, b.interface.init = some init ∧ ∀ env impl, b.grid (init env impl).2 = b.grid impl := by
  cases b with
  | mock =>
    exact ⟨mockInit, rfl, fun now ctx ↦
      congrArg (fun cfg ↦ (cfg.rows, cfg.cols)) (cfg_mockInit now ctx)⟩
  | v4l2 =>
    exact ⟨_, rfl, fun env ctx ↦
      congrArg (fun cfg ↦ (cfg.gridRows, cfg.gridCols)) (cfg_v4l2Init env ctx)⟩

theorem BackendKind.Covers.congr (h : b.Covers impl total) {impl' : b.Impl}
    (hgrid : b.grid impl' = b.grid impl) : b.Covers impl' total :=
  ⟨hgrid ▸ h.cells, h.pos, h.small⟩

end Init

/-! ## Filling a frame

Every site that a backend writes is the index of a cell, and it writes no more of them than the
frame has room for. -/

section Acquire

variable {total : ℕ} {out : Frame}

theorem cfg_mockAcquire (tNs : Int64) (ctx : MockCtx) (out : Frame) :
    (mockAcquire tNs ctx out).2.2.cfg = ctx.cfg := by
  rw [mockAcquire]
  split_ifs <;> rfl

theorem periodNs_mockAcquire (tNs : Int64) (ctx : MockCtx) (out : Frame) :
    (mockAcquire tNs ctx out).2.2.periodNs = ctx.periodNs := by
  rw [mockAcquire]
  split_ifs <;> rfl

theorem cfg_v4l2Acquire (env : V4l2AcquireEnv) (ctx : V4l2Ctx) (out : Frame) :
    (v4l2Acquire env ctx out).2.2.cfg = ctx.cfg := by
  rcases @v4l2Acquire_cases env ctx out with ⟨rc, -, heq⟩ | ⟨buf, -, -, -, -, heq⟩
  · rw [heq]
  · rw [heq]
    rfl

/-- A mock camera puts out cells of its grid, and no more than there is room for. -/
theorem mockAcquire_within {ctx : MockCtx} (h : BackendKind.mock.Covers ctx total)
    (tNs : Int64) (hzero : (mockAcquire tNs ctx out).1 = 0) :
    (mockAcquire tNs ctx out).2.1.count ≤ out.capacity ∧
      ∀ s ∈ (mockAcquire tNs ctx out).2.1.contents.support, s.toNat < total := by
  have hcells : (ctx.cfg.rows * ctx.cfg.cols).toNat = total := by
    have hproduct : ctx.cfg.rows.toNat * ctx.cfg.cols.toNat = total := h.cells
    rw [UInt32.toNat_mul, hproduct]
    exact Nat.mod_eq_of_lt h.small
  rw [mockAcquire] at hzero ⊢
  by_cases hup : ctx.up = false
  · rw [if_pos hup] at hzero
    exact absurd (show (-1 : ℤ) = 0 from hzero) (by decide)
  · rw [if_neg hup]
    have hcount := mockCount_le ctx.cfg out.capacity
    refine ⟨hcount, fun s hs ↦ ?_⟩
    have hlen := length_mockBand ctx.cfg ctx.sequence (mockCount ctx.cfg out.capacity)
    have hsupport := take_overwrite_zero out.support
      (mockBand ctx.cfg ctx.sequence (mockCount ctx.cfg out.capacity))
    rw [hlen] at hsupport
    simp only [Frame.contents, hsupport] at hs
    exact hcells ▸ mockBand_lt ctx.cfg ctx.sequence _ (hcells ▸ h.pos) hs

/-- **Whatever the picture**, and whatever its size, the sites of a webcam are cells of its grid. -/
theorem sparseSites_lt {ctx : V4l2Ctx} (h : BackendKind.v4l2.Covers ctx total) (raw : Bytes)
    (capacity : UInt32) {s : UInt32}
    (hs : s ∈ (sparseSites ctx raw capacity).map Prod.fst) : s.toNat < total := by
  obtain ⟨⟨_, value⟩, hcell, rfl⟩ := List.mem_map.mp hs
  have hlit := List.mem_of_mem_take hcell
  obtain ⟨⟨r, c⟩, hgrid, hsite⟩ := List.mem_filterMap.mp hlit
  obtain ⟨value', -, heq⟩ := Option.map_eq_some_iff.mp hsite
  obtain rfl := (Prod.mk.inj heq).1
  obtain ⟨i, hi, hrow⟩ := List.mem_flatMap.mp hgrid
  obtain ⟨j, hj, hpair⟩ := List.mem_map.mp hrow
  obtain ⟨rfl, rfl⟩ := Prod.mk.inj hpair
  have hproduct : ctx.cfg.gridRows.toNat * ctx.cfg.gridCols.toNat = total := h.cells
  have hpos : 0 < ctx.cfg.gridRows.toNat * ctx.cfg.gridCols.toNat := hproduct ▸ h.pos
  have hrows0 : ctx.cfg.gridRows ≠ 0 := by
    rintro hzero
    rw [hzero] at hpos
    simp at hpos
  have hcols0 : ctx.cfg.gridCols ≠ 0 := by
    rintro hzero
    rw [hzero] at hpos
    simp at hpos
  obtain ⟨hrows, hcols⟩ := v4l2InfoFromCtx_eq hrows0 hcols0
  rw [List.mem_range, hrows, UInt32.toNat_toUInt64] at hi
  rw [List.mem_range, hcols, UInt32.toNat_toUInt64] at hj
  have hi64 : i < 2 ^ 64 := hi.trans (ctx.cfg.gridRows.toNat_lt.trans (by decide))
  have hj64 : j < 2 ^ 64 := hj.trans (ctx.cfg.gridCols.toNat_lt.trans (by decide))
  -- row-major order
  have hcell : i * ctx.cfg.gridCols.toNat + j < total := by
    calc i * ctx.cfg.gridCols.toNat + j < (i + 1) * ctx.cfg.gridCols.toNat := by
          rw [Nat.succ_mul]
          omega
      _ ≤ ctx.cfg.gridRows.toNat * ctx.cfg.gridCols.toNat := Nat.mul_le_mul_right _ hi
      _ = total := hproduct
  have hsmall := h.small
  have hexact : (UInt64.ofNat i * (v4l2InfoFromCtx ctx).cols + UInt64.ofNat j).toNat
      = i * ctx.cfg.gridCols.toNat + j := by
    rw [hcols, UInt64.toNat_add, UInt64.toNat_mul, UInt64.toNat_ofNat_of_lt' hi64,
      UInt64.toNat_ofNat_of_lt' hj64, UInt32.toNat_toUInt64, Nat.mod_add_mod]
    exact Nat.mod_eq_of_lt (by omega)
  rw [UInt64.toNat_toUInt32, hexact]
  exact (Nat.mod_le _ _).trans_lt hcell

private theorem v4l2Acquire_within {ctx : V4l2Ctx} (h : BackendKind.v4l2.Covers ctx total)
    (hsized : out.Sized) (env : V4l2AcquireEnv) (hzero : (v4l2Acquire env ctx out).1 = 0) :
    (v4l2Acquire env ctx out).2.1.count ≤ out.capacity ∧
      ∀ s ∈ (v4l2Acquire env ctx out).2.1.contents.support, s.toNat < total := by
  obtain ⟨buf, -, hframe, -⟩ := v4l2Acquire_zero (Prod.ext hzero rfl)
  rw [hframe]
  obtain ⟨-, -, -, hcount⟩ := @sized_fillFrame ctx out env.raw buf hsized
  refine ⟨hcount, fun s hs ↦ ?_⟩
  rw [contents_fillFrame env.raw buf hsized] at hs
  exact sparseSites_lt h env.raw out.capacity hs

theorem fills_interface (b : BackendKind) : b.interface.toBackend.Fills := by
  cases b with
  | mock => exact fills_mockCameraInterface
  | v4l2 => exact fills_v4l2CameraInterface

/-- **One acquisition** leaves the grid as it is. If it succeeds, the frame has no more sites than
it has room for, and they are cells of the grid. -/
theorem acquire_within {b : BackendKind} {impl : b.Impl} (h : b.Covers impl total)
    (hsized : out.Sized) (e : b.AcquireEnv) :
    b.Covers (b.interface.acquire e impl out).2.2 total ∧
      ((b.interface.acquire e impl out).1 = 0 →
        (b.interface.acquire e impl out).2.1.count ≤ out.capacity ∧
        ∀ s ∈ (b.interface.acquire e impl out).2.1.contents.support, s.toNat < total) := by
  cases b with
  | mock =>
    refine ⟨h.congr ?_, mockAcquire_within h e⟩
    exact congrArg (fun cfg ↦ (cfg.rows, cfg.cols)) (cfg_mockAcquire e impl out)
  | v4l2 =>
    refine ⟨h.congr ?_, v4l2Acquire_within h hsized e⟩
    exact congrArg (fun cfg ↦ (cfg.gridRows, cfg.gridCols)) (cfg_v4l2Acquire e impl out)

end Acquire

/-! ## The publisher

The frame of a camera was allocated for the number of cells, its scratch buffer for the message of
such a frame, and the sink was told the same number. -/

/-- A camera and the spec the sink has of it agree: its frame has as many places as the spec allows
sites, and these are the cells of its backend's grid. -/
structure Fits (b : BackendKind) (spec : SinkCamSpec) (camera : CameraCtx b.Impl) : Prop where
  ready : camera.Ready
  capacity : camera.frame.capacity = spec.maxSites
  cameraId : camera.cameraId = spec.cameraId
  covers : b.Covers camera.implCtx spec.maxSites.toNat

/-- The camera after some ticks, whatever comes of each of them. -/
def ticked {ι ε : Type} (backend : Backend ι ε) (camera : CameraCtx ι) (envs : List (TickEnv ε)) :
    CameraCtx ι :=
  envs.foldl (fun camera env ↦ (cameraTick backend env camera).2.1) camera

section Publish

variable {b : BackendKind} {spec : SinkCamSpec} {camera : CameraCtx b.Impl}

theorem Fits.reset (h : Fits b spec camera) :
    Frame.Sized { frameReset camera.frame with cameraId := camera.cameraId } :=
  ⟨h.ready.sized.support, h.ready.sized.signal⟩

/-- **One tick**, whatever the backend answers. -/
theorem Fits.tick (h : Fits b spec camera) (env : TickEnv b.AcquireEnv) :
    Fits b spec (cameraTick b.interface.toBackend env camera).2.1 := by
  obtain ⟨hready, hid, -⟩ := @cameraTick_fills _ _ _ env _ (fills_interface b) h.ready
  obtain ⟨tNs, hframe⟩ := @frame_cameraTick _ _ b.interface.toBackend env camera
  obtain ⟨-, hcap, -⟩ := @(fills_interface b).frame env.acquire camera.implCtx _ h.reset
  refine ⟨hready, ?_, hid.trans h.cameraId, ?_⟩
  · rw [hframe]
    exact hcap.trans h.capacity
  · rw [implCtx_cameraTick]
    exact (acquire_within h.covers h.reset env.acquire).1

theorem Fits.ticked (h : Fits b spec camera) (envs : List (TickEnv b.AcquireEnv)) :
    Fits b spec (ticked b.interface.toBackend camera envs) := by
  induction envs generalizing camera with
  | nil => exact h
  | cons env envs ih => exact ih (h.tick env)

/-- **A tick that acquires** leaves a frame of this camera with no more sites than it has places
for, all of them allowed by the spec. It is packed, and what is sent is its image. -/
theorem Fits.acquired (h : Fits b spec camera) {env : TickEnv b.AcquireEnv}
    (hacquires : camera.acquires b.interface.toBackend env = true) :
    let result := cameraTick b.interface.toBackend env camera
    result.2.1.frame.cameraId = spec.cameraId ∧
      result.2.1.frame.count ≤ result.2.1.frame.capacity ∧
      (∀ s ∈ result.2.1.frame.contents.support, s < spec.maxSites) ∧ result.1 ≠ -2 ∧
      ∀ msg ∈ result.2.2, msg = result.2.1.frame.image := by
  obtain ⟨hsized, hcap, hid⟩ := @(fills_interface b).frame env.acquire camera.implCtx _ h.reset
  obtain ⟨-, hwithin⟩ := acquire_within h.covers h.reset env.acquire
  rw [CameraCtx.acquires, decide_eq_true_eq] at hacquires
  obtain ⟨hcount, hsupport⟩ := hwithin hacquires
  cases hacquire : b.interface.acquire env.acquire camera.implCtx
    { frameReset camera.frame with cameraId := camera.cameraId } with
  | mk rc rest =>
  obtain ⟨frame, implCtx⟩ := rest
  rw [hacquire] at hacquires hsized hcap hid hcount hsupport
  obtain rfl : rc = 0 := hacquires
  have hcount : frame.count ≤ frame.capacity := hcap.symm ▸ hcount
  have htick := @cameraTick_stamped _ _ b.interface.toBackend env _ h.ready _ _ hacquire hsized
    hcap hcount
  obtain ⟨tNs, hstamped⟩ := stampedFrame_eq env.stamp frame
  have hfits : (stampedFrame env.stamp frame).cameraId = spec.cameraId ∧
      (stampedFrame env.stamp frame).count ≤ (stampedFrame env.stamp frame).capacity ∧
      ∀ s ∈ (stampedFrame env.stamp frame).contents.support, s < spec.maxSites := by
    rw [hstamped]
    exact ⟨hid.trans h.cameraId, hcount, fun s hs ↦ UInt32.lt_iff_toNat_lt.mpr (hsupport s hs)⟩
  rw [htick]
  cases env.send with
  | failed => exact ⟨hfits.1, hfits.2.1, hfits.2.2, by simp, by simp⟩
  | again => exact ⟨hfits.1, hfits.2.1, hfits.2.2, by simp, by simp⟩
  | sent =>
    exact ⟨hfits.1, hfits.2.1, hfits.2.2, by simp, fun msg hmsg ↦ (Option.some.inj hmsg).symm⟩

end Publish

end SparseCamera
