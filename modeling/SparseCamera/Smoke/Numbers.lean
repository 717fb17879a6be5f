import SparseCamera.Camera.Band
import SparseCamera.Smoke.Agreement
import SparseCamera.Smoke.Tolerance

/-!
# The numbers of a configuration

A number of the configuration is used far from where it is read, after casts, products and sums in
several widths. Most of them are checked at the start, so that nothing can be cut off. Two are not:
the time that a webcam gives to `poll` is cast to a signed type, where a large one becomes negative
and the wait has no end, and the period of a very slow mock camera does not fit on top of the clock.
These are the only ones (`numbersKept_iff`).

## The construction

A number is followed from the text of its value to the place where it is used, through the context
that `create` makes and through any number of ticks. The ticks come in because the period of a mock
camera is used again and again, and the first use is no different from the others. On the way each
conversion is either the identity on what was accepted or the place where the number changes.
-/

namespace SparseCamera

open CString

/-- The numbers that a mock camera works with are those of its section. -/
structure MockNumbers (ini : Ini) (name : Bytes) (ctx : MockCtx) : Prop where
  period : ∃ fps : ℚ, iniGetF64 ini name (ascii "fps") (.fin 30) = .ok (.fin fps) ∧
    ctx.periodNs.toInt = ⌊10 ^ 9 / fps⌋
  /-- The next deadline fits, whatever the clock says. -/
  wake : ∀ now : Int64, now.toInt < 2 ^ 62 →
    (now + ctx.periodNs).toInt = now.toInt + ctx.periodNs.toInt
  total : ∃ grid rows cols,
    iniGetStr ini name (ascii "grid") (some (ascii "64x64")) = .ok (some grid) ∧
      parseGrid grid = some (rows, cols) ∧
      (ctx.cfg.rows * ctx.cfg.cols).toNat = rows.toNat * cols.toNat
  ne_zero : ctx.cfg.rows * ctx.cfg.cols ≠ 0

/-- The numbers that a webcam works with are those of its section. -/
structure WebcamNumbers (ini : Ini) (name : Bytes) (ctx : V4l2Ctx) : Prop where
  timeout : ∃ timeoutMs, iniGetU32 ini name (ascii "timeout_ms") 2000 = .ok timeoutMs ∧
    ctx.timeout.toInt = if timeoutMs = 0 then 2000 else (timeoutMs.toNat : ℤ)
  nonneg : 0 ≤ ctx.timeout.toInt
  threshold : ∃ threshold, iniGetU32 ini name (ascii "threshold") 32 = .ok threshold ∧
    ctx.cfg.threshold.toNat = threshold.toNat

def BackendKind.Numbers (ini : Ini) (name : Bytes) : (b : BackendKind) → b.Impl → Prop
  | mock => MockNumbers ini name
  | v4l2 => WebcamNumbers ini name

/-- The camera of an entry works with the numbers of its section, after any ticks. -/
def CamNumbers (ini : Ini) (name : Bytes) (entry : CamEntry) : Prop :=
  ∃ b i impl camera, entry.attached = some ⟨b, some ⟨i, impl⟩, some ⟨i, camera⟩⟩ ∧
    ∀ envs : List (TickEnv b.AcquireEnv),
      b.Numbers ini name (ticked b.interface.toBackend camera.toCameraCtx envs).implCtx

/-- **Accepted numbers keep their value**: those of the sink in `main`, and those of every enabled
section in its camera. -/
structure NumbersKept (ini : Ini) (sc : SinkConf) (st : StartUp) : Prop where
  deadline : ∃ timeoutS, iniGetU32 ini (ascii "sink") (ascii "timeout_s") 60 = .ok timeoutS ∧
    sc.timeoutNs.toInt = timeoutS.toNat * 10 ^ 9 ∧
    ∀ now : Int64, now.toInt < 2 ^ 62 → (sc.deadlineNs now).toInt
      = if timeoutS = 0 then 0 else now.toInt + timeoutS.toNat * 10 ^ 9
  cams : List.Forall₂ (fun sec entry ↦ CamNumbers ini sec.name entry) ini.enabledCams
    (st.cams.take st.specs.length)

/-- The number that is not checked at the start is small enough: the timeout of a webcam, or the
period of a mock camera, which is `10 ^ 9 / fps` rounded down. -/
def BackendKind.Representable (ini : Ini) (name : Bytes) : BackendKind → Prop
  | mock => ∀ fps : ℚ, iniGetF64 ini name (ascii "fps") (.fin 30) = .ok (.fin fps) →
      10 ^ 9 < fps * (2 ^ 62 + 1)
  | v4l2 => ∀ timeoutMs, iniGetU32 ini name (ascii "timeout_ms") 2000 = .ok timeoutMs →
      timeoutMs.toNat < 2 ^ 31

/-- The section of a camera asks for nothing that is too large for its backend. -/
def Representable (ini : Ini) (name : Bytes) : Prop :=
  ∀ b : BackendKind, iniGet ini name (ascii "backend") = some b.name → b.Representable ini name

/-! ## A context

The context holds what was read, or what was computed from it once: the period, the number of sites,
the time for `poll`. -/

section Create

variable {ini : Ini} {name : Bytes} {granted : Bool}

private theorem mockNumbers_iff {ctx : MockCtx} (h : ini.mockFromIni name granted = .ok ctx)
    (hsites : ¬(mockMaxSites ctx = 0 ∨ 0xffffffff < mockMaxSites ctx)) :
    MockNumbers ini name ctx ↔ BackendKind.mock.Representable ini name := by
  obtain ⟨-, ⟨grid, hgrid, hparse⟩, hfps, hcreate⟩ := mockFromIni_eq_ok h
  obtain ⟨value, rfl, hvalue⟩ := Option.bind_eq_some_iff.mp hparse
  obtain ⟨fps, hfin, hpos, hperiod⟩ := mockCtxCreate_period hcreate
  obtain ⟨-, hperiod_pos⟩ := mockCtxCreate_spec hcreate
  obtain ⟨hcells, hgrid_lt⟩ := cells_of_maxSites hsites
  have htotal := toNat_cells hgrid_lt
  rw [hfin] at hfps
  have hwake : (∀ now : Int64, now.toInt < 2 ^ 62 →
      (now + ctx.periodNs).toInt = now.toInt + ctx.periodNs.toInt) ↔
        10 ^ 9 < fps * (2 ^ 62 + 1) := by
    rw [forall_add_exact_iff hperiod_pos (by norm_num) (by norm_num), hperiod]
    calc ⌊10 ^ 9 / fps⌋ ≤ (2 : ℤ) ^ 63 - 2 ^ 62 ↔ ⌊10 ^ 9 / fps⌋ < (2 : ℤ) ^ 62 + 1 := by omega
      _ ↔ 10 ^ 9 / fps < 2 ^ 62 + 1 := by
        rw [Int.floor_lt]
        push_cast
        norm_num
      _ ↔ 10 ^ 9 < fps * (2 ^ 62 + 1) := by rw [div_lt_iff₀' hpos]
  constructor
  · intro hkept fps' hfps'
    obtain rfl := ExtRat.fin.inj (Except.ok.inj (hfps.symm.trans hfps'))
    exact hwake.mp hkept.wake
  · intro hsmall
    refine ⟨⟨fps, hfps, hperiod⟩, hwake.mpr (hsmall fps hfps), ⟨value, _, _, hgrid, hvalue, htotal⟩,
      ?_⟩
    intro hzero
    rw [hzero] at htotal
    exact hcells.ne htotal

/-- `poll` gets the configured time exactly when the cast keeps it. -/
theorem timeout_eq_iff (ctx : V4l2Ctx) : (ctx.timeout.toInt
    = if ctx.cfg.timeoutMs = 0 then 2000 else (ctx.cfg.timeoutMs.toNat : ℤ)) ↔
      ctx.cfg.timeoutMs.toNat < 2 ^ 31 := by
  rw [V4l2Ctx.timeout]
  by_cases hzero : ctx.cfg.timeoutMs = 0
  · rw [if_neg (not_not.mpr hzero), if_pos hzero, hzero]
    exact iff_of_true rfl (by decide)
  · rw [if_pos hzero, if_neg hzero]
    exact toInt_toInt32_eq_iff _

private theorem webcamNumbers_iff {ctx : V4l2Ctx} (h : ini.v4l2FromIni name granted = .ok ctx) :
    WebcamNumbers ini name ctx ↔ BackendKind.v4l2.Representable ini name := by
  obtain ⟨-, -, htimeout, threshold, hthreshold, hbyte, hcfg⟩ := v4l2FromIni_eq_ok h
  constructor
  · rintro ⟨⟨timeoutMs, htimeout', heq⟩, -, -⟩ timeoutMs' htimeout''
    obtain rfl := Except.ok.inj (htimeout.symm.trans htimeout')
    obtain rfl := Except.ok.inj (htimeout.symm.trans htimeout'')
    exact (timeout_eq_iff ctx).mp heq
  · intro hsmall
    have heq := (timeout_eq_iff ctx).mpr (hsmall _ htimeout)
    refine ⟨⟨_, htimeout, heq⟩, ?_, threshold, hthreshold, ?_⟩
    · rw [heq]
      split_ifs
      · decide
      · exact Int.natCast_nonneg _
    · have hle := UInt32.le_iff_toNat_le.mp hbyte
      have h255 : (255 : UInt32).toNat = 255 := rfl
      rw [hcfg, UInt32.toNat_toUInt8]
      omega

/-- **The numbers of a new context** keep their value unless the one that is not checked is too
large. -/
theorem numbers_iff {b : BackendKind} {impl : b.Impl} (h : b.create ini name granted = .ok impl)
    (hsites : ¬(b.maxSites impl = 0 ∨ 0xffffffff < b.maxSites impl)) :
    b.Numbers ini name impl ↔ b.Representable ini name := by
  cases b with
  | mock => exact mockNumbers_iff h hsites
  | v4l2 => exact webcamNumbers_iff h

end Create

/-! ## The life of a camera

Neither the bring-up nor an acquisition touches the numbers, so they are the same whenever they are
used. -/

section Life

variable {ini : Ini} {name : Bytes}

private theorem mockNumbers_congr {ctx ctx' : MockCtx} (hcfg : ctx'.cfg = ctx.cfg)
    (hperiod : ctx'.periodNs = ctx.periodNs) :
    MockNumbers ini name ctx' ↔ MockNumbers ini name ctx := by
  constructor
  · intro h
    exact ⟨hperiod ▸ h.period, hperiod ▸ h.wake, hcfg ▸ h.total, hcfg ▸ h.ne_zero⟩
  · intro h
    exact ⟨hperiod ▸ h.period, hperiod ▸ h.wake, hcfg ▸ h.total, hcfg ▸ h.ne_zero⟩

private theorem webcamNumbers_congr {ctx ctx' : V4l2Ctx} (hcfg : ctx'.cfg = ctx.cfg) :
    WebcamNumbers ini name ctx' ↔ WebcamNumbers ini name ctx := by
  have htimeout : ctx'.timeout = ctx.timeout := by rw [V4l2Ctx.timeout, V4l2Ctx.timeout, hcfg]
  constructor
  · intro h
    exact ⟨htimeout ▸ h.timeout, htimeout ▸ h.nonneg, hcfg ▸ h.threshold⟩
  · intro h
    exact ⟨htimeout ▸ h.timeout, htimeout ▸ h.nonneg, hcfg ▸ h.threshold⟩

private theorem numbers_init (ini : Ini) (name : Bytes) (b : BackendKind) :
    ∃ init, b.interface.init = some init ∧
      ∀ env impl, b.Numbers ini name (init env impl).2 ↔ b.Numbers ini name impl := by
  cases b with
  | mock =>
    exact ⟨mockInit, rfl, fun now ctx ↦
      mockNumbers_congr (cfg_mockInit now ctx) (periodNs_mockInit now ctx)⟩
  | v4l2 => exact ⟨_, rfl, fun env ctx ↦ webcamNumbers_congr (cfg_v4l2Init env ctx)⟩

private theorem numbers_acquire {b : BackendKind} (e : b.AcquireEnv) (impl : b.Impl) (out : Frame) :
    b.Numbers ini name (b.interface.acquire e impl out).2.2 ↔ b.Numbers ini name impl := by
  cases b with
  | mock => exact mockNumbers_congr (cfg_mockAcquire e impl out) (periodNs_mockAcquire e impl out)
  | v4l2 => exact webcamNumbers_congr (cfg_v4l2Acquire e impl out)

private theorem numbers_ticked {b : BackendKind} (camera : CameraCtx b.Impl)
    (envs : List (TickEnv b.AcquireEnv)) :
    b.Numbers ini name (ticked b.interface.toBackend camera envs).implCtx ↔
      b.Numbers ini name camera.implCtx := by
  induction envs generalizing camera with
  | nil => rfl
  | cons env envs ih =>
    rw [ticked, List.foldl_cons, ← ticked, ih, implCtx_cameraTick]
    exact numbers_acquire _ _ _

theorem BackendKind.name_injective : Function.Injective BackendKind.name := by
  rintro (_ | _) (_ | _) h
  · rfl
  · exact absurd h (by decide)
  · exact absurd h (by decide)
  · rfl

variable {sc : SinkConf} {sec : IniSection} {cam : CamEntry × SinkCamSpec}

/-- **The camera that is made of a section** works with its numbers unless one is too large. -/
theorem MadeFrom.camNumbers_iff (h : MadeFrom ini sc sec cam) :
    CamNumbers ini sec.name cam.1 ↔ Representable ini sec.name := by
  obtain ⟨entry, spec⟩ := cam
  obtain ⟨-, env, i, specs, request, hread, rfl, hspec⟩ := h
  obtain ⟨-, -, -, hbackend, -, -, -⟩ := readCamera_some hread
  obtain ⟨impl₀, impl, camera, log, hcreate, hsites, hnew, -, hattached, -, -⟩ :=
    buildEntry_eq_ok hspec
  have hnumbers (envs : List (TickEnv request.backend.AcquireEnv)) :
      request.backend.Numbers ini sec.name
          (ticked request.backend.interface.toBackend camera.toCameraCtx envs).implCtx ↔
        request.backend.Representable ini sec.name := by
    obtain ⟨hcamera, -⟩ := cameraNewWith_some hnew
    obtain ⟨-, -, -, -, -, hinit⟩ := ready_cameraNew hcamera (covers_of_create hcreate hsites).small
    obtain ⟨init, hsome, hinit'⟩ := numbers_init ini sec.name request.backend
    rw [hsome, Option.elim_some] at hinit
    have himpl : camera.implCtx = (init _ impl₀).2 := congrArg Prod.snd hinit.symm
    rw [numbers_ticked, himpl, hinit']
    exact numbers_iff hcreate hsites
  constructor
  · rintro ⟨b, i', impl', camera', hattached', hkept⟩ b' hb'
    cases Option.some.inj (hattached.symm.trans hattached')
    obtain rfl := BackendKind.name_injective (Option.some.inj (hb'.symm.trans hbackend))
    exact (hnumbers []).mp (hkept [])
  · intro hsmall
    exact ⟨_, i, impl, camera, hattached, fun envs ↦ (hnumbers envs).mpr (hsmall _ hbackend)⟩

end Life

/-! ## The whole configuration -/

section Kept

variable {ini : Ini} {sc : SinkConf}

private theorem toInt_timeoutNs (sc : SinkConf) :
    sc.timeoutNs.toInt = sc.timeoutS.toNat * 10 ^ 9 := by
  have hlt := sc.timeoutS.toNat_lt
  have hbillion : (1000000000 : Int64).toInt = 10 ^ 9 := rfl
  rw [SinkConf.timeoutNs, Int64.toInt_mul, toInt_toUInt64_toInt64, hbillion]
  exact Int.bmod_eq_of_le (by omega) (by omega)

/-- **The deadline of a run** fits whatever the timeout is: the largest one is less than half of all
times. -/
theorem toInt_deadlineNs (sc : SinkConf) {now : Int64} (hnow : now.toInt < 2 ^ 62) :
    (sc.deadlineNs now).toInt
      = if sc.timeoutS = 0 then 0 else now.toInt + sc.timeoutS.toNat * 10 ^ 9 := by
  have hlt := sc.timeoutS.toNat_lt
  have hmin := now.le_toInt
  have hproduct := toInt_timeoutNs sc
  rw [SinkConf.deadlineNs]
  by_cases hzero : sc.timeoutS = 0
  · rw [if_neg (not_not.mpr hzero), if_pos hzero]
    rfl
  · rw [if_pos hzero, if_neg hzero, ← hproduct]
    exact (toInt_add_eq_iff _ _).mpr ⟨by omega, by omega⟩

private theorem forall₂_iff_forall_mem {α β : Type*} {R S : α → β → Prop} {P : α → Prop}
    {l : List α}
    {l' : List β} (h : List.Forall₂ R l l') (hiff : ∀ a b, R a b → (S a b ↔ P a)) :
    List.Forall₂ S l l' ↔ ∀ a ∈ l, P a := by
  induction h with
  | nil => exact iff_of_true List.Forall₂.nil (List.forall_mem_nil _)
  | cons hab _ ih => rw [List.forall₂_cons, List.forall_mem_cons, hiff _ _ hab, ih]

variable {env : ℕ → SectionEnv} {st : StartUp}

private theorem camsKept_iff (hbuild : buildCameras env ini sc = (st, none)) :
    List.Forall₂ (fun sec entry ↦ CamNumbers ini sec.name entry) ini.enabledCams
      (st.cams.take st.specs.length) ↔ ∀ sec ∈ ini.enabledCams, Representable ini sec.name := by
  obtain ⟨built, hmade⟩ := made_buildCameras hbuild
  have htable : st.cams.take st.specs.length = built.map Prod.fst := by
    rw [hmade.cams, hmade.specs]
    exact List.take_left' (by rw [List.length_map, List.length_map])
  rw [htable, List.forall₂_map_right_iff]
  exact forall₂_iff_forall_mem hmade.sections fun _ _ h ↦ h.camNumbers_iff

/-- **When accepted numbers keep their value.** The program works with the numbers of a
configuration that it accepts exactly when every timeout of a webcam is below 2^31, and the period
of every mock camera, rounded down, at most 2^62 nanoseconds. -/
theorem numbersKept_iff (hload : loadSinkConf ini = .ok sc)
    (hbuild : buildCameras env ini sc = (st, none)) :
    NumbersKept ini sc st ↔ ∀ sec ∈ ini.enabledCams, Representable ini sec.name := by
  obtain ⟨-, -, htimeout, -⟩ := loadSinkConf_eq_ok hload
  rw [← camsKept_iff hbuild]
  constructor
  · intro hkept
    exact hkept.cams
  · intro hcams
    exact ⟨⟨_, htimeout, toInt_timeoutNs sc, fun _ hnow ↦ toInt_deadlineNs sc hnow⟩, hcams⟩

end Kept

/-- A mock camera and a webcam with the numbers they have by default. -/
theorem numbersKept_twoKinds : ∃ st, loadSinkConf twoKinds = .ok defaultConf ∧
    buildCameras allGranted twoKinds defaultConf = (st, none) ∧
    twoKinds.enabledCams.map IniSection.name = [ascii "cam.a", ascii "cam.c"] ∧
    NumbersKept twoKinds defaultConf st := by
  have hload : loadSinkConf twoKinds = .ok defaultConf := by decide +kernel
  have hbuild : buildCameras allGranted twoKinds defaultConf
      = ((buildCameras allGranted twoKinds defaultConf).1, none) :=
    Prod.ext rfl (by decide +kernel)
  have hnames : twoKinds.enabledCams.map IniSection.name = [ascii "cam.a", ascii "cam.c"] := by
    decide +kernel
  have hfps : iniGetF64 twoKinds (ascii "cam.a") (ascii "fps") (.fin 30) = .ok (.fin 30) := by
    decide +kernel
  have htimeout : iniGetU32 twoKinds (ascii "cam.c") (ascii "timeout_ms") 2000 = .ok 2000 := by
    decide +kernel
  generalize (buildCameras allGranted twoKinds defaultConf).1 = st at hbuild
  refine ⟨st, hload, hbuild, hnames, (numbersKept_iff hload hbuild).mpr ?_⟩
  intro sec hsec
  have hname := List.mem_map_of_mem (f := IniSection.name) hsec
  rw [hnames, List.mem_pair] at hname
  rcases hname with hname | hname
  · rw [hname]
    rintro (_ | _) hbackend
    · intro fps hfps'
      obtain rfl := ExtRat.fin.inj (Except.ok.inj (hfps.symm.trans hfps'))
      norm_num
    · exact absurd hbackend (by decide +kernel)
  · rw [hname]
    rintro (_ | _) hbackend
    · exact absurd hbackend (by decide +kernel)
    · intro timeoutMs htimeout'
      obtain rfl := Except.ok.inj (htimeout.symm.trans htimeout')
      decide

/-- A webcam that is to wait for seven weeks, and a mock camera with a frame in 272 years,
whose rate is `2 ^ -33`, a `double`. -/
def longWaits : Ini where
  sections :=
    [{ name := ascii "sink", pairs := [] },
      { name := ascii "cam.a"
        pairs :=
          [{ key := ascii "backend", value := ascii "v4l2" },
            { key := ascii "timeout_ms", value := ascii "4294967295" }] },
      { name := ascii "cam.b"
        pairs :=
          [{ key := ascii "backend", value := ascii "mock" },
            { key := ascii "id", value := ascii "1" },
            { key := ascii "fps", value := ascii "1.16415321826934814453125e-10" }] }]

/-- What the webcams of a table give to `poll`. -/
def pollTimeouts (cams : List CamEntry) : List ℤ :=
  cams.filterMap fun cam ↦
    match cam.attached with
    | some ⟨.v4l2, _, some camera⟩ => some (V4l2Ctx.timeout camera.state.implCtx).toInt
    | _ => none

/-- The deadlines of the mock cameras of a table that wake now. -/
def nextWakes (now : Int64) (cams : List CamEntry) : List ℤ :=
  cams.filterMap fun cam ↦
    match cam.attached with
    | some ⟨.mock, _, some camera⟩ => some (now + MockCtx.periodNs camera.state.implCtx).toInt
    | _ => none

/-- **Accepted numbers that are lost.** The wait of the webcam has no end, and the deadline of the
mock camera lies before the start of the clock. -/
theorem numbersKept_longWaits : ∃ st, loadSinkConf longWaits = .ok defaultConf ∧
    buildCameras allGranted longWaits defaultConf = (st, none) ∧
    pollTimeouts st.cams = [-1] ∧
    nextWakes 4611686018427387903 st.cams = [-5245123463282163713] ∧
    ¬NumbersKept longWaits defaultConf st := by
  have hload : loadSinkConf longWaits = .ok defaultConf := by decide +kernel
  have hbuild : buildCameras allGranted longWaits defaultConf
      = ((buildCameras allGranted longWaits defaultConf).1, none) :=
    Prod.ext rfl (by decide +kernel)
  have hpoll : pollTimeouts (buildCameras allGranted longWaits defaultConf).1.cams = [-1] := by
    decide +kernel
  have hwakes : nextWakes 4611686018427387903
      (buildCameras allGranted longWaits defaultConf).1.cams = [-5245123463282163713] := by
    decide +kernel
  have hname : ascii "cam.a" ∈ longWaits.enabledCams.map IniSection.name := by decide +kernel
  generalize (buildCameras allGranted longWaits defaultConf).1 = st at hbuild hpoll hwakes
  refine ⟨st, hload, hbuild, hpoll, hwakes, ?_⟩
  intro hkept
  obtain ⟨sec, hsec, hname⟩ := List.mem_map.mp hname
  have hsmall := (camsKept_iff hbuild).mp hkept.cams sec hsec .v4l2
  rw [hname] at hsmall
  have hlt := hsmall (by decide +kernel) 4294967295 (by decide +kernel)
  revert hlt
  decide

end SparseCamera
