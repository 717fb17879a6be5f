import SparseCamera.Smoke.Mock
import SparseCamera.Smoke.Program

/-!
# Mock cameras from a file

The pipeline of mock cameras begins with the values of their keys, and `build_cameras` begins with
the text of a file. Where every enabled section has the mock backend the two are one: the values in
the file are a configuration that `buildMockCameras` accepts, it makes the same cameras and the same
specs of them, and the test that `main` launches is the one that is launched with these cameras
(`mocks_launch`).

## The construction

`mock_from_ini` is taken apart into reading (`MockSection.ReadFrom`) and checking (`mockFromIni`).
With the reading out of the way an entry of the table is a call of `buildMockCamera`, and the checks
on the whole table, sixteen cameras and no id twice, are those of `buildMockCameras_eq_some`.

The program keeps its mock cameras in a table of cameras of all kinds. `Smoke.toAny` puts the states
of a test on mock cameras into that table, and every step of the one test is a step of the other
(`Launch.Mocks.step`), so they have the same executions.
-/

namespace SparseCamera

open CString Execution

/-- The values that `mock_from_ini` reads in a section. -/
structure MockSection.ReadFrom (ini : Ini) (name : Bytes) (sec : MockSection) : Prop where
  grid : ∃ grid, iniGetStr ini name (ascii "grid") (some (ascii "64x64")) = .ok grid ∧
    grid.bind parseGrid = some (sec.rows, sec.cols)
  sites : iniGetU32 ini name (ascii "sites") 256 = .ok sec.sites
  fps : iniGetF64 ini name (ascii "fps") (.fin 30) = .ok sec.fps

/-- The camera in this entry. -/
def CamEntry.Holds (entry : CamEntry) (camera : CameraCtx MockCtx) : Prop :=
  ∃ (i : ℕ) (impl : MockCtx) (cam : Camera MockCtx),
    entry.attached = some ⟨.mock, some ⟨i, impl⟩, some ⟨i, cam⟩⟩ ∧ cam.toCameraCtx = camera

/-! ## One section -/

section Entry

variable {env : SectionEnv} {ini : Ini} {sc : SinkConf} {i : ℕ} {sec : IniSection} {name : Bytes}
  {request : CamRequest} {spec : SinkCamSpec} {granted : Bool}

/-- **`mock_from_ini`** reads the values and checks them. -/
theorem mockFromIni_eq_ok_iff (id : UInt32) {ctx : MockCtx} :
    ini.mockFromIni name granted = .ok ctx ↔
      iniCheckKeys ini name mockKeys = .ok () ∧ granted = true ∧
        ∃ sec : MockSection, sec.id = id ∧ sec.ReadFrom ini name ∧ mockFromIni sec = some ctx := by
  constructor
  · intro h
    rw [Ini.mockFromIni] at h
    obtain ⟨⟨⟩, hkeys, h⟩ := bind_eq_ok.mp h
    obtain ⟨grid, hgrid, h⟩ := bind_eq_ok.mp h
    obtain ⟨sites, hsites, h⟩ := bind_eq_ok.mp h
    obtain ⟨fps, hfps, h⟩ := bind_eq_ok.mp h
    split at h
    · cases h
    · next rows cols hparse =>
      obtain ⟨value, -, hvalue⟩ := Option.bind_eq_some_iff.mp hparse
      obtain ⟨hrows, hcols⟩ := parseGrid_ne_zero hvalue
      split_ifs at h with hrate hnone hgranted
      · simp only at h
        split at h
        · cases h
        · next ctx' hcreate =>
          obtain rfl := Except.ok.inj h
          refine ⟨hkeys, hgranted, ⟨id, rows, cols, sites, fps⟩, rfl,
            ⟨⟨grid, hgrid, hparse⟩, hsites, hfps⟩, ?_⟩
          rw [mockFromIni, if_neg (not_or.mpr ⟨hrows, hcols⟩), if_neg hrate, if_neg hnone]
          exact hcreate
  · rintro ⟨hkeys, rfl, sec, -, ⟨⟨grid, hgrid, hparse⟩, hsites, hfps⟩, h⟩
    refine bind_eq_ok.mpr ⟨(), hkeys, bind_eq_ok.mpr ⟨grid, hgrid, bind_eq_ok.mpr
      ⟨sec.sites, hsites, bind_eq_ok.mpr ⟨sec.fps, hfps, ?_⟩⟩⟩⟩
    rw [mockFromIni] at h
    split_ifs at h with hgrid' hrate hnone
    simp only [hparse, if_neg hrate, if_neg hnone, if_true, h]

/-- **An entry with the mock backend** is a camera that `buildMockCamera` builds of the values. -/
theorem buildEntry_mock (hbackend : request.backend = .mock)
    (hfps : iniGetF64 ini sec.name (ascii "fps") (.fin 30) = .ok request.fps)
    (h : (buildEntry env ini sc i sec.name request).2.2 = .ok spec) :
    ∃ (mock : MockSection) (camera : CameraCtx MockCtx), mock.id = request.id ∧
      mock.ReadFrom ini sec.name ∧
      buildMockCamera (env.camera .mock).init mock = some (camera, spec) ∧
      (buildEntry env ini sc i sec.name request).1.Holds camera := by
  obtain ⟨backend, id, fps⟩ := request
  obtain rfl : backend = .mock := hbackend
  obtain ⟨impl₀, impl, camera, log, hcreate, hsites, hnew, -, hattached, hid, hmax, hperiod⟩ :=
    buildEntry_eq_ok h
  obtain ⟨-, -, mock, rfl, hread, hmock⟩ := (mockFromIni_eq_ok_iff id).mp hcreate
  obtain ⟨hcamera, -⟩ := cameraNewWith_some hnew
  obtain rfl : fps = mock.fps := Except.ok.inj (hfps.symm.trans hread.fps)
  refine ⟨mock, camera.toCameraCtx, rfl, hread, ?_, i, impl, camera, hattached, rfl⟩
  have hcamera' : cameraNew mock.id (mockMaxSites impl₀) (mockInit (env.camera .mock).init) impl₀
      = some camera.toCameraCtx := hcamera
  have hspec : spec = ⟨mock.id, (mockMaxSites impl₀).toUInt32,
      if ExtRat.lt (.fin 0) mock.fps then .fin 1000 / mock.fps else .fin 0⟩ := by
    rw [← hperiod]
    obtain ⟨_, _, _⟩ := spec
    obtain rfl := hid
    obtain rfl := hmax
    rfl
  have hsites' : ¬(mockMaxSites impl₀ = 0 ∨ 0xffffffff < mockMaxSites impl₀) := hsites
  simp only [buildMockCamera, hmock, if_neg hsites', hcamera', hspec]

end Entry

theorem MadeFrom.mock {ini : Ini} {sc : SinkConf} {sec : IniSection} {cam : CamEntry × SinkCamSpec}
    (h : MadeFrom ini sc sec cam)
    (hmock : sec ∈ ini.enabledCams →
      iniGet ini sec.name (ascii "backend") = some (ascii "mock")) :
    ∃ (mock : MockSection) (now : Int64) (camera : CameraCtx MockCtx),
      iniGetU32 ini sec.name (ascii "id") 0 = .ok mock.id ∧ mock.ReadFrom ini sec.name ∧
      buildMockCamera now mock = some (camera, cam.2) ∧ cam.1.Holds camera := by
  obtain ⟨entry, spec⟩ := cam
  obtain ⟨hsec, env, i, specs, request, hread, rfl, hspec⟩ := h
  obtain ⟨hcam, henabled, -, hbackend, hid, hfps, -⟩ := readCamera_some hread
  have hname : request.backend.name = ascii "mock" := by
    refine Option.some.inj (hbackend.symm.trans (hmock (List.mem_filter.mpr ⟨hsec, ?_⟩)))
    rw [Ini.enabledCam, hcam, henabled, Bool.true_and]
  have hkind : request.backend = .mock := by
    cases hb : request.backend with
    | mock => rfl
    | v4l2 =>
      rw [hb] at hname
      exact absurd hname (by decide)
  obtain ⟨mock, camera, hmockId, hread', hbuilt, hholds⟩ := buildEntry_mock hkind hfps hspec
  exact ⟨mock, _, camera, hmockId ▸ hid, hread', hbuilt, hholds⟩

/-! ## All sections -/

/-- **A file of mock cameras.** When `build_cameras` succeeds and every enabled section has the mock
backend, the values in these sections, with the times at which the cameras were brought up, are a
configuration that `buildMockCameras` accepts. It makes the cameras that are in the table, in order,
and the specs that are given to the sink. -/
theorem buildMockCameras_of_buildCameras {env : ℕ → SectionEnv} {ini : Ini} {sc : SinkConf}
    {st : StartUp} (hbuild : buildCameras env ini sc = (st, none))
    (hmock : ∀ sec ∈ ini.enabledCams, iniGet ini sec.name (ascii "backend") = some (ascii "mock")) :
    ∃ (sections : List (MockSection × Int64)) (built : List (CameraCtx MockCtx × SinkCamSpec)),
      buildMockCameras sections = some built ∧
      List.Forall₂ (fun sec mock ↦ iniGetU32 ini sec.name (ascii "id") 0 = .ok mock.1.id ∧
        mock.1.ReadFrom ini sec.name) ini.enabledCams sections ∧
      st.specs = built.map Prod.snd ∧
      List.Forall₂ (fun entry cam ↦ entry.Holds cam.1) (st.cams.take st.specs.length) built := by
  obtain ⟨made, hmade⟩ := made_buildCameras hbuild
  -- between a section and its entry are the values and the camera made of them
  obtain ⟨cams, hread, hbuilt⟩ := exists_between
    (Q := fun sec (cam : (MockSection × Int64) × CameraCtx MockCtx × SinkCamSpec) ↦
      iniGetU32 ini sec.name (ascii "id") 0 = .ok cam.1.1.id ∧ cam.1.1.ReadFrom ini sec.name)
    (S := fun cam made ↦ buildMockCamera cam.1.2 cam.1.1 = some cam.2 ∧ cam.2.2 = made.2 ∧
      made.1.Holds cam.2.1) hmade.sections fun sec made h ↦ by
    obtain ⟨mock, now, camera, hid, hread, hbuilt, hholds⟩ := h.mock (hmock sec)
    exact ⟨((mock, now), (camera, made.2)), ⟨hid, hread⟩, hbuilt, rfl, hholds⟩
  have hspecs : st.specs = (cams.map Prod.snd).map Prod.snd := by
    rw [hmade.specs, List.map_map]
    exact (map_eq_map_of_forall₂ hbuilt fun _ _ h ↦ h.2.1).symm
  refine ⟨cams.map Prod.fst, cams.map Prod.snd, buildMockCameras_eq_some.mpr ⟨?_, ?_, ?_⟩,
    List.forall₂_map_right_iff.mpr hread, hspecs, ?_⟩
  · rw [List.forall₂_map_left_iff, List.forall₂_map_right_iff, List.forall₂_same]
    intro cam hcam
    obtain ⟨_, -, hmade, -⟩ := exists_of_mem_right hbuilt.flip hcam
    exact hmade
  · rw [List.length_map, hbuilt.length_eq]
    exact hmade.few
  · have hdistinct := hmade.distinct
    rwa [hspecs, List.map_map] at hdistinct
  · have hlen : st.specs.length = (made.map Prod.fst).length := by
      rw [hmade.specs, List.length_map, List.length_map]
    rw [hmade.cams, hlen, List.take_left, List.forall₂_map_left_iff, List.forall₂_map_right_iff]
    exact hbuilt.flip.imp fun _ _ h ↦ h.2.2

/-! ## The same test

What the program does to a table of cameras of all kinds, if all of them are mock cameras, is what
the smallest system does that knows no other kind. -/

section Launched

variable {n : ℕ}

def Pipeline.toAny (p : Pipeline n MockCtx) : Pipeline n AnyImpl :=
  { p with cams := fun i ↦ @CameraCtx.toAny .mock (p.cams i) }

def Smoke.toAny (s : Smoke n MockCtx) : Smoke n AnyImpl :=
  { s with toPipeline := s.toPipeline.toAny }

/-- What a step is to mock cameras. -/
def SmokeStep.only : SmokeStep n AnyEnv → SmokeStep n Int64
  | .spawn created => .spawn created
  | .run i env => .run i (env.only .mock)
  | .recv i granted => .recv i granted
  | .socket event => .socket event
  | .main => .main
  | .clock late => .clock late
  | .sigint => .sigint

/-- The same test, on cameras of all kinds and on mock cameras. -/
structure Launch.Mocks (launch : Launch n AnyImpl AnyEnv) (mock : Launch n MockCtx Int64) :
    Prop where
  backend : ∀ i, launch.backend i = anyBackend
  mockBackend : ∀ i, mock.backend i = mockCameraInterface
  start : Smoke.start launch = (Smoke.start mock).toAny
  frames : launch.frames = mock.frames
  timeoutS : launch.timeoutS = mock.timeoutS

variable {launch : Launch n AnyImpl AnyEnv} {mock : Launch n MockCtx Int64}

theorem Launch.Mocks.polled (h : launch.Mocks mock) (s : Smoke n MockCtx) (rc : ℤ) :
    s.toAny.polled launch rc = (s.polled mock rc).toAny := by
  have htotal : launch.wantTotal = mock.wantTotal := by
    rw [Launch.wantTotal, Launch.wantTotal, h.frames]
  simp only [Smoke.polled, htotal, apply_ite Smoke.toAny]
  rfl

theorem Pipeline.tick_toAny {backend : Fin n → Backend AnyImpl AnyEnv}
    {backend' : Fin n → Backend MockCtx Int64} {i : Fin n} (hany : backend i = anyBackend)
    (hmock : backend' i = mockCameraInterface) (p : Pipeline n MockCtx) (env : TickEnv AnyEnv) :
    p.toAny.tick backend i env
      = (p.tick backend' i (env.only .mock)).map (Prod.map id Pipeline.toAny) := by
  have hallowed : anyBackend.allowed env.acquire (p.toAny.cams i).implCtx
      = mockCameraInterface.allowed (env.only .mock).acquire (p.cams i).implCtx := rfl
  have htick : cameraTick anyBackend env (p.toAny.cams i)
      = ((cameraTick mockCameraInterface (env.only .mock) (p.cams i)).1,
          @CameraCtx.toAny .mock (cameraTick mockCameraInterface (env.only .mock) (p.cams i)).2.1,
          (cameraTick mockCameraInterface (env.only .mock) (p.cams i)).2.2) :=
    @cameraTick_toAny .mock env (p.cams i)
  have hcams (camera : CameraCtx MockCtx) :
      Function.update p.toAny.cams i (@CameraCtx.toAny .mock camera)
        = fun j ↦ @CameraCtx.toAny .mock (Function.update p.cams i camera j) :=
    (Function.comp_update (@CameraCtx.toAny .mock) p.cams i camera).symm
  simp only [Pipeline.tick, hany, hmock, hallowed, htick, hcams]
  split_ifs <;> rfl

theorem Launch.Mocks.camRun (h : launch.Mocks mock) (s : Smoke n MockCtx) (i : Fin n)
    (env : TickEnv AnyEnv) :
    s.toAny.camRun launch i env = (s.camRun mock i (env.only .mock)).map Smoke.toAny := by
  have hthread : s.toAny.threads i = s.threads i := rfl
  simp only [Smoke.camRun, hthread]
  cases hphase : (s.threads i).phase with
  | idle | done => rfl
  | fail rc => rfl
  | count => rfl
  | loop =>
    simp only [apply_ite (Option.map Smoke.toAny)]
    rfl
  | tick =>
    simp only
    have htick := s.toPipeline.tick_toAny (h.backend i) (h.mockBackend i) env
    change Option.map _ (s.toPipeline.toAny.tick _ i env) = _
    rw [htick, Option.map_map, Option.map_map]
    rfl

/-- **The same steps.** -/
theorem Launch.Mocks.step (h : launch.Mocks mock) (s : Smoke n MockCtx) (l : SmokeStep n AnyEnv) :
    s.toAny.step launch l = (s.step mock l.only).map Smoke.toAny := by
  have hmain : s.toAny.main = s.main := rfl
  cases l with
  | spawn created =>
    simp only [Smoke.step, SmokeStep.only, Smoke.spawn, hmain]
    cases s.main with
    | spawn k =>
      simp only [apply_dite (Option.map Smoke.toAny), apply_ite (Option.map Smoke.toAny)]
      rfl
    | _ => rfl
  | run i env => exact h.camRun s i env
  | recv i granted =>
    have hrecv : s.toAny.toPipeline.recv i granted
        = (s.toPipeline.recv i granted).map (Prod.map id Pipeline.toAny) := by
      have hpipe : s.toAny.pipes i = s.pipes i := rfl
      simp only [Pipeline.recv, hpipe]
      cases s.pipes i <;> rfl
    simp only [Smoke.step, SmokeStep.only, apply_ite (Option.map Smoke.toAny), hrecv,
      Option.map_map]
    congr 2
    funext x
    exact h.polled { s with toPipeline := x.2 } x.1
  | socket event =>
    simp only [Smoke.step, SmokeStep.only, apply_ite (Option.map Smoke.toAny), Option.map_some,
      ← h.polled]
    rfl
  | main =>
    simp only [Smoke.step, SmokeStep.only, Smoke.mainStep, hmain]
    cases s.main with
    | spawn k | loop | scan k | join why =>
      simp only [apply_dite (Option.map Smoke.toAny), apply_ite (Option.map Smoke.toAny)]
      rfl
    | _ => rfl
  | clock late =>
    simp only [Smoke.step, SmokeStep.only, apply_ite (Option.map Smoke.toAny), h.timeoutS]
    rfl
  | sigint => rfl

theorem Launch.Mocks.exec (h : launch.Mocks mock) (steps : List (SmokeStep n AnyEnv)) :
    exec (Smoke.step launch) (.start launch) steps
      = (exec (Smoke.step mock) (.start mock) (steps.map SmokeStep.only)).map Smoke.toAny := by
  rw [h.start]
  generalize Smoke.start mock = s
  induction steps generalizing s with
  | nil => rfl
  | cons l steps ih =>
    rw [exec_cons, List.map_cons, exec_cons, h.step]
    cases s.step mock l.only with
    | none => rfl
    | some s' => exact ih s'

theorem Launch.mocks_of_cams {m : ℕ} (hlen : m = n) {mock : Launch m MockCtx Int64}
    (hany : ∀ i, launch.backend i = anyBackend)
    (hmock : ∀ i, mock.backend i = mockCameraInterface)
    (hcams : ∀ i, launch.cams (Fin.cast hlen i) = @CameraCtx.toAny .mock (mock.cams i))
    (hsink : launch.sink = mock.sink) (hframes : launch.frames = mock.frames)
    (htimeout : launch.timeoutS = mock.timeoutS) : launch.Mocks (hlen ▸ mock) := by
  subst hlen
  refine ⟨hany, hmock, ?_, hframes, htimeout⟩
  have hcams' : launch.cams = fun i ↦ @CameraCtx.toAny .mock (mock.cams i) := funext hcams
  simp only [Smoke.start, Smoke.toAny, Pipeline.toAny, hcams', hsink, hframes]

end Launched

/-! ## The program -/

section Program

variable {start : Started}

private theorem cameraAt_of_holds {st : StartUp} {i : ℕ} {entry : CamEntry}
    {camera : CameraCtx MockCtx}
    (hentry : st.cams[i]? = some entry) (hholds : entry.Holds camera) :
    ∃ k, st.cameraAt i = some ⟨k, @CameraCtx.toAny .mock camera⟩ := by
  obtain ⟨k, impl, cam, hattached, rfl⟩ := hholds
  refine ⟨k, ?_⟩
  rw [StartUp.cameraAt, hentry, Option.bind_some, hattached]
  rfl

/-- **The program on a file of mock cameras** runs the test of an accepted list of mock cameras. -/
theorem mocks_launch (h : start.Good)
    (hmock : ∀ sec ∈ start.ini.enabledCams,
      iniGet start.ini sec.name (ascii "backend") = some (ascii "mock")) :
    ∃ (sections : List (MockSection × Int64)) (built : List (CameraCtx MockCtx × SinkCamSpec))
      (sink₀ : Sink) (granted : Bool) (hbuild : buildMockCameras sections = some built)
      (hopened : Opened (some start.conf.check) sink₀)
      (hexpect : sinkExpect granted sink₀ (built.map Prod.snd) = (0, start.sink.toSink))
      (hlen : built.length = start.built.specs.length),
      (start.launch h).Mocks (hlen ▸ mockLaunch hbuild hopened hexpect start.conf.frames
        start.conf.timeoutS) := by
  obtain ⟨env, hcameras⟩ := h.built
  obtain ⟨sink₀, granted, hnew, hexpect⟩ := h.sink
  obtain ⟨sections, built, hbuild, -, hspecs, hholds⟩ :=
    buildMockCameras_of_buildCameras hcameras hmock
  have hlen : built.length = start.built.specs.length := by rw [hspecs, List.length_map]
  rw [hspecs] at hexpect
  refine ⟨sections, built, sink₀, granted, hbuild, .new hnew, hexpect, hlen,
    Launch.mocks_of_cams hlen (fun _ ↦ rfl) (fun _ ↦ rfl) (fun i ↦ ?_) rfl rfl rfl⟩
  have hlt : (i : ℕ) < (start.built.cams.take start.built.specs.length).length :=
    hholds.length_eq.symm ▸ i.isLt
  have hentry : start.built.cams[(i : ℕ)]?
      = some ((start.built.cams.take start.built.specs.length).get ⟨i, hlt⟩) := by
    rw [← List.getElem?_take_of_lt (i.isLt.trans_eq hlen), List.getElem?_eq_getElem hlt]
    rfl
  obtain ⟨k, hat⟩ := cameraAt_of_holds hentry (hholds.get hlt i.isLt)
  change ((start.built.cameraAt i).get _).state = _
  simp only [hat, Option.get_some]
  rfl

end Program

end SparseCamera
