import SparseCamera.Camera.Lifecycle
import SparseCamera.Camera.Mock
import SparseCamera.Ini.Typed
import SparseCamera.Webcam.Acquire

/-!
# Backends and their sections

A camera section names its backend, and the backend reads the rest of the section: which keys there
may be, what they default to and what values it takes. A backend is an entry of a table of function
pointers over untyped contexts; here each kind has a type of contexts of its own, so no function can
be handed the context of another.
-/

namespace SparseCamera

open CString

/-! ## The sink's section -/

/-- `sink_conf_t`. -/
structure SinkConf where
  endpoint : Option Bytes
  /-- Per camera; 0 runs until the stop flag is set. -/
  frames : UInt32
  tol : ExtRat
  timeoutS : UInt32
  verbose : Bool
deriving DecidableEq

def sinkKeys : List Bytes :=
  ["endpoint", "frames", "tol", "timeout_s", "verbose"].map ascii

/-- `load_sink_conf`. -/
def loadSinkConf (ini : Ini) : Except ConfErr SinkConf := do
  if iniHasSection ini (ascii "sink") = false then
    .error (.config (ascii "config has no [sink] section"))
  else
    iniCheckKeys ini (ascii "sink") sinkKeys
    let endpoint ← iniGetStr ini (ascii "sink") (ascii "endpoint")
      (some (ascii "ipc:///tmp/frames.sock"))
    let frames ← iniGetU32 ini (ascii "sink") (ascii "frames") 100
    let tol ← iniGetF64 ini (ascii "sink") (ascii "tol") (.fin (1 / 2))
    let timeoutS ← iniGetU32 ini (ascii "sink") (ascii "timeout_s") 60
    let verbose ← iniGetBool ini (ascii "sink") (ascii "verbose") true
    if tol.le (.fin 0) then .error (.atKey (ascii "sink") (ascii "tol") (ascii "must be positive"))
    else
      let sc : SinkConf :=
        { endpoint := endpoint
          frames := frames
          tol := tol
          timeoutS := timeoutS
          verbose := verbose }
      .ok sc

/-- The bounds `main` gives the sink; the cameras' own come with `sink_expect`. -/
def SinkConf.check (sc : SinkConf) : SinkCheck where
  expectPeriodMs := .fin 0
  tol := sc.tol
  maxSites := 0

/-- The time `main` gives to a run, in nanoseconds. -/
def SinkConf.timeoutNs (sc : SinkConf) : Int64 := sc.timeoutS.toUInt64.toInt64 * 1000000000

/-- `deadline_ns` of `main`, given the clock; 0 stands for no deadline. -/
def SinkConf.deadlineNs (now : Int64) (sc : SinkConf) : Int64 :=
  if sc.timeoutS ≠ 0 then now + sc.timeoutNs else 0

/-! ## Geometry

`sscanf` with `%u` takes what `strtoul` takes and keeps the last 32 bits. The `%c` at the end is
there to find out whether anything follows. -/

/-- `parse_grid`, by `sscanf` with the format `%ux%u%c`. A number that is too long is cut to its
last 32 bits. -/
def parseGrid (s : Bytes) : Option (UInt32 × UInt32) :=
  match strtoul s with
  | some ⟨r, _, b :: rest⟩ =>
    if b = chr 'x' then
      match strtoul rest with
      | some ⟨c, _, []⟩ =>
        if r.toUInt32 = 0 ∨ c.toUInt32 = 0 then none else some (r.toUInt32, c.toUInt32)
      | _ => none
    else none
  | _ => none

theorem parseGrid_ne_zero {s : Bytes} {rows cols : UInt32} (h : parseGrid s = some (rows, cols)) :
    rows ≠ 0 ∧ cols ≠ 0 := by
  rw [parseGrid] at h
  split at h
  · split_ifs at h with hx
    split at h
    · split_ifs at h with hzero
      obtain ⟨rfl, rfl⟩ := Prod.mk.inj (Option.some.inj h)
      exact not_or.mp hzero
    · cases h
  · cases h

/-! ## Mock cameras -/

/-- Keys every camera section carries. -/
def commonCamKeys : List Bytes := ["backend", "enabled", "id", "fps"].map ascii

def mockKeys : List Bytes := commonCamKeys ++ ["grid", "sites"].map ascii

/-- A value as `"%s"` prints it. -/
def printed (s : Option Bytes) : Bytes := s.getD (ascii "(null)")

/-- `mock_from_ini`; `granted` says whether the context can be allocated. -/
def Ini.mockFromIni (ini : Ini) (name : Bytes) (granted : Bool) : Except ConfErr MockCtx := do
  iniCheckKeys ini name mockKeys
  let grid ← iniGetStr ini name (ascii "grid") (some (ascii "64x64"))
  let sites ← iniGetU32 ini name (ascii "sites") 256
  let fps ← iniGetF64 ini name (ascii "fps") (.fin 30)
  match grid.bind parseGrid with
  | none =>
    .error (.atKey name (ascii "grid") (quoted (printed grid) ++ ascii " is not ROWSxCOLS"))
  | some (rows, cols) =>
    if fps.le (.fin 0) then .error (.atKey name (ascii "fps") (ascii "must be positive"))
    else if sites = 0 then .error (.atKey name (ascii "sites") (ascii "must be positive"))
    else
      let cfg := { rows := rows, cols := cols, sites := sites, fps := fps }
      match if granted then mockCtxCreate cfg else none with
      | none => .error (.inSection name (ascii "mock_ctx_create failed"))
      | some ctx => .ok ctx

/-- `mock_deinit`. -/
def mockDeinit (ctx : MockCtx) : MockCtx := { ctx with up := false, nextNs := 0 }

/-! ## Webcams -/

def v4l2Keys : List Bytes :=
  commonCamKeys ++
    ["device", "grid", "resolution", "threshold", "buffers", "timeout_ms"].map ascii

/-- `v4l2_from_ini`; `granted` says whether the context can be allocated. -/
def Ini.v4l2FromIni (ini : Ini) (name : Bytes) (granted : Bool) : Except ConfErr V4l2Ctx := do
  iniCheckKeys ini name v4l2Keys
  let device ← iniGetStr ini name (ascii "device") (some (ascii "/dev/video0"))
  let res ← iniGetStr ini name (ascii "resolution") (some (ascii "480x640"))
  let grid ← iniGetStr ini name (ascii "grid") (some (ascii "64x64"))
  let threshold ← iniGetU32 ini name (ascii "threshold") 32
  let nBuffers ← iniGetU32 ini name (ascii "buffers") 4
  let timeoutMs ← iniGetU32 ini name (ascii "timeout_ms") 2000
  match res.bind parseGrid with
  | none =>
    .error (.atKey name (ascii "resolution")
      (quoted (printed res) ++ ascii " is not HEIGHTxWIDTH"))
  | some (height, width) =>
    match grid.bind parseGrid with
    | none =>
      .error (.atKey name (ascii "grid") (quoted (printed grid) ++ ascii " is not ROWSxCOLS"))
    | some (gridRows, gridCols) =>
      if 255 < threshold then
        .error (.atKey name (ascii "threshold")
          (ascii (toString threshold) ++ ascii " exceeds 255"))
      else if nBuffers < 2 then
        .error (.atKey name (ascii "buffers") (ascii "need at least 2"))
      else if granted then
        .ok (v4l2CtxCreate
          { device := device.getD []
            width := width
            height := height
            gridRows := gridRows
            gridCols := gridCols
            nBuffers := nBuffers
            timeoutMs := timeoutMs
            threshold := threshold.toUInt8 })
      else .error (.inSection name (ascii "v4l2_ctx_create failed"))

/-! ## The registry

Everything that differs between backends is a function of `BackendKind`. A statement about every
backend is then a case distinction, with one backend in each case. -/

/-- An entry of `g_backends`. -/
inductive BackendKind where
  | mock
  | v4l2
deriving DecidableEq

namespace BackendKind

def name : BackendKind → Bytes
  | mock => ascii "mock"
  | v4l2 => ascii "v4l2"

/-- The backend's context. -/
def Impl : BackendKind → Type
  | mock => MockCtx
  | v4l2 => V4l2Ctx

/-- What the outside world contributes to `init`: the clock, or what the driver answers. -/
def InitEnv : BackendKind → Type
  | mock => Int64
  | v4l2 => BringUpEnv

/-- What the outside world contributes to one `acquire`. -/
def AcquireEnv : BackendKind → Type
  | mock => Int64
  | v4l2 => V4l2AcquireEnv

/-- `mock_camera_interface` and `v4l2_camera_interface`. -/
def interface : (b : BackendKind) → CameraInterface b.Impl b.InitEnv b.AcquireEnv
  | mock =>
    { toBackend := mockCameraInterface
      init := some mockInit
      deinit := some mockDeinit }
  | v4l2 =>
    { toBackend := v4l2CameraInterface
      init := some fun env ctx ↦
        let (rc, ctx, _) := v4l2Init env ctx
        (rc, ctx)
      deinit := some fun ctx ↦ (v4l2Deinit ctx).1 }

def create : (b : BackendKind) → Ini → Bytes → Bool → Except ConfErr b.Impl
  | mock => Ini.mockFromIni
  | v4l2 => Ini.v4l2FromIni

def maxSites : (b : BackendKind) → b.Impl → UInt64
  | mock => mockMaxSites
  | v4l2 => v4l2MaxSites

/-- The keys `create` allows. -/
def keys : BackendKind → List Bytes
  | mock => mockKeys
  | v4l2 => v4l2Keys

end BackendKind

/-- `g_backends`. -/
def gBackends : List BackendKind := [.mock, .v4l2]

/-- `backend_find`. -/
def backendFind (name : Bytes) : Option BackendKind := gBackends.find? fun b ↦ b.name = name

theorem backendFind_eq_some {name : Bytes} {b : BackendKind} (h : backendFind name = some b) :
    b.name = name := by simpa using List.find?_some h

/-! ## Defaults

A section that sets nothing is accepted: no default fails the check of its own key. -/

section Defaults

variable {ini : Ini} {name : Bytes}

/-- The defaults of the sink pass its checks. -/
theorem loadSinkConf_defaults (h : iniCheckKeys ini (ascii "sink") [] = .ok ()) :
    loadSinkConf ini = .ok
      { endpoint := some (ascii "ipc:///tmp/frames.sock")
        frames := 100
        tol := .fin (1 / 2)
        timeoutS := 60
        verbose := true } := by
  obtain ⟨sec, hfind, -⟩ := iniCheckKeys_eq_ok.mp h
  have hhas : ¬iniHasSection ini (ascii "sink") = false := by simp [iniHasSection, hfind]
  have hget {α : Type} (key : Bytes) (dflt : α) (read : Bytes → Except Bytes α) :
      iniGetWith ini (ascii "sink") key dflt read = .ok dflt :=
    iniGetWith_of_checkKeys h List.not_mem_nil dflt read
  rw [loadSinkConf, if_neg hhas]
  have htol : ¬ExtRat.le (.fin (1 / 2)) (.fin 0) = true := by decide +kernel
  simp only [iniCheckKeys_mono h (List.nil_subset _), iniGetStr, iniGetU32, iniGetF64, iniGetBool,
    hget, bind, Except.bind, if_neg htol]

/-- The defaults of every backend pass its checks. -/
theorem create_defaults (b : BackendKind) (h : iniCheckKeys ini name [ascii "backend"] = .ok ()) :
    ∃ impl, b.create ini name true = .ok impl := by
  have hget {α : Type} {key : Bytes} (hkey : key ∉ [ascii "backend"]) (dflt : α)
      (read : Bytes → Except Bytes α) : iniGetWith ini name key dflt read = .ok dflt :=
    iniGetWith_of_checkKeys h hkey dflt read
  have hgrid : parseGrid (ascii "64x64") = some (64, 64) := by decide +kernel
  have hresolution : parseGrid (ascii "480x640") = some (480, 640) := by decide +kernel
  cases b with
  | mock =>
    have hfps : ¬ExtRat.le (.fin 30) (.fin 0) = true := by decide +kernel
    have hctx : (mockCtxCreate { rows := 64, cols := 64, sites := 256, fps := .fin 30 }).isSome
        = true := by decide +kernel
    obtain ⟨ctx, hctx⟩ := Option.isSome_iff_exists.mp hctx
    refine ⟨ctx, ?_⟩
    change Ini.mockFromIni ini name true = .ok ctx
    rw [Ini.mockFromIni, iniCheckKeys_mono h (by decide), iniGetStr, iniGetU32, iniGetF64,
      hget (by decide), hget (by decide), hget (by decide)]
    simp only [bind, Except.bind, Option.bind_some, hgrid, if_neg hfps, hctx, if_true]
    rfl
  | v4l2 =>
    refine ⟨v4l2CtxCreate
      { device := ascii "/dev/video0"
        width := 640
        height := 480
        gridRows := 64
        gridCols := 64
        nBuffers := 4
        timeoutMs := 2000
        threshold := 32 }, ?_⟩
    change Ini.v4l2FromIni ini name true = .ok _
    rw [Ini.v4l2FromIni, iniCheckKeys_mono h (by decide), iniGetStr, iniGetStr, iniGetStr,
      iniGetU32, iniGetU32, iniGetU32, hget (by decide), hget (by decide), hget (by decide),
      hget (by decide), hget (by decide), hget (by decide)]
    simp only [bind, Except.bind, Option.bind_some, hgrid, hresolution, if_true]
    rfl

end Defaults

end SparseCamera
