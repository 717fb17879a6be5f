import SparseCamera.Lib.Pointwise
import SparseCamera.Sink.Bounds
import SparseCamera.Smoke.Geometry
import SparseCamera.Webcam.Streaming

/-!
# Backend, publisher and sink agree

When `build_cameras` succeeds, its tables have one entry for every enabled camera section, in the
order of the file, and each pair of entries agrees on the geometry of its camera. With the second
table registered, the sink has room for every frame of every camera and a bound that none of them
exceeds.

## The construction

`MadeFrom` says of a section and of an entry in each table that the one was made from the other:
which backend was asked, what it created, what the publisher opened on top of it and what the sink
is told. It keeps the whole history of the entry, so other modules read off it what they need. Here
that is `BuiltFrom`, the geometry. The loop adds a pair of entries for each enabled camera section
and leaves the rest of the table blank (`StartUp.Made`).
-/

namespace SparseCamera

open CString

/-- A camera section that is not switched off. -/
def Ini.enabledCam (ini : Ini) (sec : IniSection) : Bool :=
  isCamSection sec.name &&
    match iniGetBool ini sec.name (ascii "enabled") true with
    | .ok enabled => enabled
    | .error _ => false

/-- The enabled camera sections, in the order of the file. -/
def Ini.enabledCams (ini : Ini) : List IniSection := ini.sections.filter ini.enabledCam

/-- What became of a section: an entry with a camera, and the spec of that camera. -/
structure BuiltFrom (ini : Ini) (sec : IniSection) (cam : CamEntry × SinkCamSpec)
    (b : BackendKind) (camera : Camera b.Impl) : Prop where
  label : cam.1.label = snprintf 64 sec.name
  attached : ∃ i impl, cam.1.attached = some ⟨b, some ⟨i, impl⟩, some ⟨i, camera⟩⟩
  backend : iniGet ini sec.name (ascii "backend") = some b.name
  keys : ∀ pair ∈ sec.pairs, pair.key ∈ b.keys
  id : iniGetU32 ini sec.name (ascii "id") 0 = .ok cam.2.cameraId
  /-- The number of sites is the size of the grid, without being cut to 32 bits. -/
  grid : ∃ grid rows cols,
    iniGetStr ini sec.name (ascii "grid") (some (ascii "64x64")) = .ok (some grid) ∧
      parseGrid grid = some (rows, cols) ∧ cam.2.maxSites.toNat = rows.toNat * cols.toNat
  pos : 0 < cam.2.maxSites
  fits : Fits b cam.2 camera.toCameraCtx

/-- The entry and the spec that `build_cameras` makes of a section. -/
def MadeFrom (ini : Ini) (sc : SinkConf) (sec : IniSection) (cam : CamEntry × SinkCamSpec) :
    Prop :=
  sec ∈ ini.sections ∧ ∃ env i specs request, readCamera ini specs sec.name = .ok (some request) ∧
    (buildEntry env ini sc i sec.name request).1 = cam.1 ∧
    (buildEntry env ini sc i sec.name request).2.2 = .ok cam.2

/-! ## One section -/

section Entry

variable {env : SectionEnv} {ini : Ini} {sc : SinkConf} {i : ℕ} {sec : IniSection}
  {request : CamRequest} {spec : SinkCamSpec}

theorem buildEntry_eq_ok (h : (buildEntry env ini sc i sec.name request).2.2 = .ok spec) :
    ∃ impl₀ impl camera log, request.backend.create ini sec.name env.create = .ok impl₀ ∧
      ¬(request.backend.maxSites impl₀ = 0 ∨ 0xffffffff < request.backend.maxSites impl₀) ∧
      cameraNewWith request.backend.interface (env.camera request.backend)
        { endpoint := sc.endpoint
          zmqCtx := true
          cameraId := request.id
          frameCap := request.backend.maxSites impl₀ } impl₀ = (some camera, impl, log) ∧
      (buildEntry env ini sc i sec.name request).1.label = snprintf 64 sec.name ∧
      (buildEntry env ini sc i sec.name request).1.attached
        = some ⟨request.backend, some ⟨i, impl⟩, some ⟨i, camera⟩⟩ ∧
      spec.cameraId = request.id ∧
      spec.maxSites = (request.backend.maxSites impl₀).toUInt32 ∧
      spec.expectPeriodMs
        = if ExtRat.lt (.fin 0) request.fps then .fin 1000 / request.fps else .fin 0 := by
  simp only [buildEntry] at h ⊢
  split at h
  · cases h
  · next impl₀ hcreate =>
    split at h
    · cases h
    · next hsites =>
      split at h
      · cases h
      · next camera impl log hnew =>
        obtain rfl := Except.ok.inj h
        rw [if_neg hsites]
        exact ⟨impl₀, impl, camera, log, hcreate, hsites, hnew, rfl, rfl, rfl, rfl, rfl⟩

private theorem fits_cameraNewWith {b : BackendKind} {kenv : CameraNewEnv b.InitEnv}
    {cfg : CameraConfig}
    {impl₀ impl : b.Impl} {camera : Camera b.Impl} {log : List (Resources.Use CameraResource)}
    (hnew : cameraNewWith b.interface kenv cfg impl₀ = (some camera, impl, log))
    (hcovers : b.Covers impl₀ cfg.frameCap.toNat) (hid : spec.cameraId = cfg.cameraId)
    (hsites : spec.maxSites = cfg.frameCap.toUInt32) : Fits b spec camera.toCameraCtx := by
  obtain ⟨hcamera, -⟩ := cameraNewWith_some hnew
  obtain ⟨hready, hcap, hid', -, -, hinit⟩ := ready_cameraNew hcamera hcovers.small
  obtain ⟨init, hsome, hgrid⟩ := grid_init b
  have hexact : spec.maxSites.toNat = cfg.frameCap.toNat := by
    rw [hsites, UInt64.toNat_toUInt32]
    exact Nat.mod_eq_of_lt hcovers.small
  refine ⟨hready, UInt32.toNat_inj.mp (hcap.trans hexact.symm), hid'.trans hid.symm, ?_⟩
  rw [hsome, Option.elim_some] at hinit
  have himpl : camera.implCtx = (init kenv.init impl₀).2 := congrArg Prod.snd hinit.symm
  rw [hexact, himpl]
  exact hcovers.congr (hgrid _ _)

/-- **An entry that was built** agrees with its spec. -/
theorem builtFrom_buildEntry (hwell : ini.WellFormed) (hsec : sec ∈ ini.sections)
    (hbackend : iniGet ini sec.name (ascii "backend") = some request.backend.name)
    (hid : iniGetU32 ini sec.name (ascii "id") 0 = .ok request.id)
    (h : (buildEntry env ini sc i sec.name request).2.2 = .ok spec) :
    ∃ b camera,
      BuiltFrom ini sec ((buildEntry env ini sc i sec.name request).1, spec) b camera := by
  obtain ⟨impl₀, impl, camera, log, hcreate, hsites, hnew, hlabel, hattached, hspec, hmax, -⟩ :=
    buildEntry_eq_ok h
  have hcovers := covers_of_create hcreate hsites
  have hfits : Fits request.backend spec camera.toCameraCtx :=
    fits_cameraNewWith hnew hcovers hspec hmax
  have hexact : spec.maxSites.toNat = (request.backend.maxSites impl₀).toNat := by
    rw [hmax, UInt64.toNat_toUInt32]
    exact Nat.mod_eq_of_lt hcovers.small
  obtain ⟨hkeys, grid, hgrid, hparse⟩ := create_eq_ok hcreate
  obtain ⟨value, rfl, hvalue⟩ := Option.bind_eq_some_iff.mp hparse
  refine ⟨request.backend, camera, hlabel, ⟨i, impl, hattached⟩, hbackend, ?_, ?_, ?_, ?_, hfits⟩
  · -- the section that is looked up by its name is this one
    obtain ⟨sec', hfind, hall⟩ := iniCheckKeys_eq_ok.mp hkeys
    have hself := (find?_eq_some_of_nodup hwell.distinct).mpr ⟨hsec, rfl⟩
    obtain rfl := Option.some.inj (hfind.symm.trans hself)
    exact hall
  · rw [hid, hspec]
  · exact ⟨value, _, _, hgrid, hvalue, hexact.trans hcovers.cells.symm⟩
  · rw [UInt32.lt_iff_toNat_lt]
    exact hexact.symm ▸ hcovers.pos

theorem MadeFrom.builtFrom (hwell : ini.WellFormed) {cam : CamEntry × SinkCamSpec}
    (h : MadeFrom ini sc sec cam) : ∃ b camera, BuiltFrom ini sec cam b camera := by
  obtain ⟨entry, spec⟩ := cam
  obtain ⟨hsec, env, i, specs, request, hread, rfl, hspec⟩ := h
  obtain ⟨-, -, -, hbackend, hid, -, -⟩ := readCamera_some hread
  exact builtFrom_buildEntry hwell hsec hbackend hid hspec

end Entry

/-! ## All sections

The tables grow by one entry at the end or not at all, so the sections behind the entries are the
enabled ones among those that were looked at. -/

/-- The tables hold what was made of the enabled sections so far. -/
structure StartUp.Made (st : StartUp) (ini : Ini) (sc : SinkConf) (done : List IniSection)
    (built : List (CamEntry × SinkCamSpec)) : Prop where
  cams : st.cams = built.map Prod.fst ++ List.replicate (sinkMaxCameras - built.length) .blank
  specs : st.specs = built.map Prod.snd
  few : built.length ≤ sinkMaxCameras
  sections : List.Forall₂ (MadeFrom ini sc) done built
  distinct : (st.specs.map SinkCamSpec.cameraId).Nodup

/-- The tables hold what became of the enabled sections so far. -/
structure StartUp.Agreeing (st : StartUp) (ini : Ini) (done : List IniSection)
    (built : List (CamEntry × SinkCamSpec)) : Prop where
  cams : st.cams = built.map Prod.fst ++ List.replicate (sinkMaxCameras - built.length) .blank
  specs : st.specs = built.map Prod.snd
  few : built.length ≤ sinkMaxCameras
  sections : List.Forall₂ (fun sec cam ↦ ∃ b camera, BuiltFrom ini sec cam b camera) done built
  distinct : (st.specs.map SinkCamSpec.cameraId).Nodup

section Run

variable {ini : Ini} {sc : SinkConf} {st st' : StartUp} {done : List IniSection}
  {built : List (CamEntry × SinkCamSpec)}

private theorem made_start (ini : Ini) (sc : SinkConf) : StartUp.start.Made ini sc [] [] where
  cams := rfl
  specs := rfl
  few := Nat.zero_le _
  sections := List.Forall₂.nil
  distinct := List.nodup_nil

/-- **One section**: it is passed over, or an entry and a spec are added. -/
theorem made_buildSection (h : st.Made ini sc done built) {sec : IniSection}
    (hsec : sec ∈ ini.sections) {env : SectionEnv} {i : ℕ}
    (hbuild : st.buildSection env ini sc i sec.name = (st', none)) :
    ∃ built', st'.Made ini sc (done ++ [sec].filter ini.enabledCam) built' := by
  have hlen : st.specs.length = built.length := by rw [h.specs, List.length_map]
  simp only [StartUp.buildSection] at hbuild
  split at hbuild
  · cases hbuild
  · next hread =>
    obtain rfl := congrArg Prod.fst hbuild
    have hskip : ini.enabledCam sec = false := by
      rcases readCamera_none hread with hcam | henabled
      · rw [Ini.enabledCam, hcam, Bool.false_and]
      · rw [Ini.enabledCam, henabled, Bool.and_false]
    rw [List.filter_singleton, hskip, cond_false, List.append_nil]
    exact ⟨built, h⟩
  · next request hread =>
    obtain ⟨hcam, henabled, hroom, -, -, -, hfresh⟩ := readCamera_some hread
    have htake : ini.enabledCam sec = true := by rw [Ini.enabledCam, hcam, henabled, Bool.true_and]
    split at hbuild
    · cases hbuild
    · next spec hresult =>
      obtain rfl := congrArg Prod.fst hbuild
      have hmade : MadeFrom ini sc sec ((buildEntry env ini sc i sec.name request).1, spec) :=
        ⟨hsec, env, i, st.specs, request, hread, rfl, hresult⟩
      rw [hlen] at hroom
      rw [List.filter_singleton, htake, cond_true]
      refine ⟨built ++ [((buildEntry env ini sc i sec.name request).1, spec)], ?_, ?_, ?_, ?_, ?_⟩
      · have hset := @set_blank (built.map Prod.fst) (by rw [List.length_map]; exact hroom)
          (buildEntry env ini sc i sec.name request).1
        rw [List.length_append, List.length_map, List.length_singleton] at hset
        simp only
        rw [hlen, h.cams, hset, List.map_append, List.length_append, List.length_singleton]
        rfl
      · simp only
        rw [h.specs, List.map_append]
        rfl
      · rw [List.length_append, List.length_singleton]
        exact hroom
      · exact List.rel_append h.sections (List.Forall₂.cons hmade List.Forall₂.nil)
      · obtain ⟨_, _, _, _, -, -, -, -, -, hspec, -⟩ := buildEntry_eq_ok hresult
        rw [nodup_map_concat]
        exact ⟨h.distinct, fun spec' hspec' ↦ hspec ▸ hfresh spec' hspec'⟩

private theorem made_buildCamerasFrom {sections : List IniSection}
    (hsections : ∀ sec ∈ sections, sec ∈ ini.sections) (h : st.Made ini sc done built)
    {env : ℕ → SectionEnv} {i : ℕ}
    (hbuild : buildCamerasFrom env ini sc st i sections = (st', none)) :
    ∃ built', st'.Made ini sc (done ++ sections.filter ini.enabledCam) built' := by
  induction sections generalizing st i done built with
  | nil =>
    obtain rfl := congrArg Prod.fst hbuild
    rw [List.filter_nil, List.append_nil]
    exact ⟨built, h⟩
  | cons sec rest ih =>
    rw [buildCamerasFrom] at hbuild
    split at hbuild
    · cases hbuild
    · next st₁ hsection =>
      obtain ⟨built₁, h₁⟩ := made_buildSection h (hsections sec List.mem_cons_self) hsection
      have hsplit : done ++ (sec :: rest).filter ini.enabledCam
          = (done ++ [sec].filter ini.enabledCam) ++ rest.filter ini.enabledCam := by
        rw [List.append_assoc, ← List.filter_append, List.singleton_append]
      rw [hsplit]
      exact ih (fun sec' hsec' ↦ hsections sec' (List.mem_cons_of_mem _ hsec')) h₁ hbuild

/-- **A start that succeeds** has made an entry and a spec of every enabled section. -/
theorem made_buildCameras {env : ℕ → SectionEnv} (hbuild : buildCameras env ini sc = (st, none)) :
    ∃ built, st.Made ini sc ini.enabledCams built := by
  have hmade := made_buildCamerasFrom (fun _ hsec ↦ hsec) (made_start ini sc) hbuild
  rw [List.nil_append] at hmade
  exact hmade

theorem StartUp.Made.agreeing (hwell : ini.WellFormed) (h : st.Made ini sc done built) :
    st.Agreeing ini done built where
  cams := h.cams
  specs := h.specs
  few := h.few
  sections := h.sections.imp fun _ _ hmade ↦ hmade.builtFrom hwell
  distinct := h.distinct

end Run

/-! ## The sink

`sink_expect` grows the decode buffer to the widest spec. A frame of any camera has at most as many
sites as its own spec says. -/

theorem boundOf_of_mem {check : SinkCheck} {specs : List SinkCamSpec} {spec : SinkCamSpec}
    (hdistinct : (specs.map SinkCamSpec.cameraId).Nodup) (hmem : spec ∈ specs) :
    boundOf check specs spec.cameraId = spec.maxSites := by
  have hfind : specs.find? (fun spec' ↦ spec'.cameraId == spec.cameraId) = some spec :=
    (find?_eq_some_of_nodup hdistinct).mpr ⟨hmem, rfl⟩
  rw [boundOf, hfind, Option.elim_some]

/-- **A message of a camera that fits its spec** is decoded into the buffer as it is, and is counted
neither as malformed nor as out of bounds. -/
theorem Fits.received {b : BackendKind} {spec : SinkCamSpec} {camera : CameraCtx b.Impl}
    (h : Fits b spec camera) {env : TickEnv b.AcquireEnv}
    (hacquires : camera.acquires b.interface.toBackend env = true) {msg : Bytes}
    (hmsg : msg ∈ (cameraTick b.interface.toBackend env camera).2.2) {sink : Sink}
    (hready : sink.Ready) (hdistinct : (sink.specs.map SinkCamSpec.cameraId).Nodup)
    (hmem : spec ∈ sink.specs) (hroom : spec.maxSites ≤ sink.decoded.capacity) (granted : Bool) :
    (frameWireUnpack msg sink.decoded).1 = .ok ∧
      (sinkRecv granted sink (.message msg)).2.decoded.capacity = sink.decoded.capacity ∧
      (sinkRecv granted sink (.message msg)).2.stats.badParse = sink.stats.badParse ∧
      (sinkRecv granted sink (.message msg)).2.stats.badIndex = sink.stats.badIndex := by
  obtain ⟨hid, hcount, hsupport, -, himage⟩ := h.acquired hacquires
  have hafter := h.tick env
  rw [himage msg hmsg]
  refine hready.image granted (hafter.ready.sized.mono (UInt32.le_iff_toNat_le.mp hcount)) ?_ ?_
  · rw [hafter.capacity] at hcount
    exact UInt32.le_trans hcount hroom
  · intro s hs
    have hbound : boundOf sink.check sink.specs
        (cameraTick b.interface.toBackend env camera).2.1.frame.contents.cameraId
        = spec.maxSites := by
      rw [← boundOf_of_mem hdistinct hmem, ← hid]
      rfl
    rw [hbound]
    exact Or.inr (hsupport s hs)

/-- **Backend, publisher and sink agree on the geometry** of every configuration they accept. When
`build_cameras` succeeds on a well-formed store and `sink_expect` takes its table, there are at most
sixteen cameras, one for every enabled section in the order of the file, with ids of their own, with
no keys that their backend does not know, and with as many sites as their grid has cells, counted
exactly. Whenever the backend of one of them then acquires a frame, after any ticks and whatever the
driver or the clock has answered so far, the frame fits the camera's spec and is packed; and if it
is sent, the sink, after any messages of any origin, decodes it without growing its buffer and
counts it neither as malformed nor as out of bounds. -/
theorem geometry_agrees {ini : Ini} (hwell : ini.WellFormed) {env : ℕ → SectionEnv}
    {sc : SinkConf} {st : StartUp} (hbuild : buildCameras env ini sc = (st, none))
    {sink₀ sink : Sink} (hnew : sinkNew (some sc.check) = some sink₀) {granted : Bool}
    (hexpect : sinkExpect granted sink₀ st.specs = (0, sink)) :
    ∃ built : List (CamEntry × SinkCamSpec),
      built.length ≤ sinkMaxCameras ∧ st.specs = built.map Prod.snd ∧
      st.cams = built.map Prod.fst ++ List.replicate (sinkMaxCameras - built.length) .blank ∧
      List.Forall₂ (fun sec cam ↦ ∃ b camera, BuiltFrom ini sec cam b camera)
        ini.enabledCams built ∧
      (st.specs.map SinkCamSpec.cameraId).Nodup ∧
      ∀ cam ∈ built, ∀ b impl camera, cam.1.attached = some ⟨b, some impl, some camera⟩ →
        ∀ (envs : List (TickEnv b.AcquireEnv)) (env : TickEnv b.AcquireEnv),
        let before := ticked b.interface.toBackend camera.state.toCameraCtx envs
        let after := cameraTick b.interface.toBackend env before
        before.acquires b.interface.toBackend env = true →
          after.2.1.frame.capacity = cam.2.maxSites ∧
          after.2.1.frame.count ≤ after.2.1.frame.capacity ∧
          (∀ s ∈ after.2.1.frame.contents.support, s < cam.2.maxSites) ∧ after.1 ≠ -2 ∧
          ∀ msg ∈ after.2.2, ∀ (history : List (Bytes × Bool)) (granted : Bool),
            let sink := receive sink history
            (frameWireUnpack msg sink.decoded).1 = .ok ∧
            (sinkRecv granted sink (.message msg)).2.decoded.capacity = sink.decoded.capacity ∧
            (sinkRecv granted sink (.message msg)).2.stats.badParse = sink.stats.badParse ∧
            (sinkRecv granted sink (.message msg)).2.stats.badIndex = sink.stats.badIndex := by
  obtain ⟨built, hmade⟩ := made_buildCameras hbuild
  have h := hmade.agreeing hwell
  obtain ⟨-, hspecs, hroom⟩ := sinkExpect_zero hexpect
  have hready : sink.Ready := by
    have hfresh := fresh_sinkExpect granted (fresh_sinkNew hnew) st.specs
    rw [hexpect] at hfresh
    exact hfresh.ready
  refine ⟨built, h.few, h.specs, h.cams, h.sections, h.distinct, ?_⟩
  intro cam hcam b impl camera hattached envs env before after hacquires
  have hfits : Fits b cam.2 camera.state.toCameraCtx := by
    obtain ⟨sec, -, b', camera', hbuilt⟩ := exists_of_mem_right h.sections hcam
    obtain ⟨i, impl', hattached'⟩ := hbuilt.attached
    cases Option.some.inj (hattached.symm.trans hattached')
    exact hbuilt.fits
  have hbefore : Fits b cam.2 before := hfits.ticked envs
  obtain ⟨-, hcount, hsupport, hpacked, -⟩ := hbefore.acquired hacquires
  refine ⟨(hbefore.tick env).capacity, hcount, hsupport, hpacked, fun msg hmsg history granted ↦ ?_⟩
  have hmem : cam.2 ∈ st.specs := h.specs ▸ List.mem_map_of_mem hcam
  obtain ⟨hready', -, hspecs', hcap⟩ := hready.receive history
  refine hbefore.received hacquires hmsg hready' ?_ ?_ ?_ granted
  · rw [hspecs', hspecs]
    exact h.distinct
  · rw [hspecs', hspecs]
    exact hmem
  · exact UInt32.le_trans (hroom cam.2 hmem) hcap

/-- A mock camera, a webcam that is switched off, and a webcam with an id of its own. -/
def twoKinds : Ini where
  sections :=
    [{ name := ascii "sink", pairs := [] },
      { name := ascii "cam.a"
        pairs :=
          [{ key := ascii "backend", value := ascii "mock" },
            { key := ascii "grid", value := ascii "2x3" }] },
      { name := ascii "cam.b"
        pairs :=
          [{ key := ascii "backend", value := ascii "v4l2" },
            { key := ascii "enabled", value := ascii "no" }] },
      { name := ascii "cam.c"
        pairs :=
          [{ key := ascii "backend", value := ascii "v4l2" },
            { key := ascii "id", value := ascii "1" },
            { key := ascii "grid", value := ascii "4x4" }] }]

def allGranted (_ : ℕ) : SectionEnv where
  create := true
  camera
    | .mock => ⟨true, true, true, true, true, true, (1 : Int64)⟩
    | .v4l2 => ⟨true, true, true, true, true, true, nothingFails⟩

/-- What an empty section of the sink comes to. -/
def defaultConf : SinkConf :=
  ⟨some (ascii "ipc:///tmp/frames.sock"), 100, .fin (1 / 2), 60, true⟩

def firstTick : TickEnv Int64 := ⟨5, 7, .sent⟩

/-- The first camera of a table is a mock camera, acquires and sends. -/
def sendsFirst (cams : List CamEntry) : Bool :=
  match cams.head?.bind CamEntry.attached with
  | some ⟨.mock, some _, some camera⟩ =>
    camera.state.toCameraCtx.acquires mockCameraInterface firstTick &&
      (cameraTick mockCameraInterface firstTick camera.state.toCameraCtx).2.2.isSome
  | _ => false

theorem geometry_agrees_twoKinds :
    ∃ st sink₀ sink built msg, loadSinkConf twoKinds = .ok defaultConf ∧
      buildCameras allGranted twoKinds defaultConf = (st, none) ∧
      sinkNew (some defaultConf.check) = some sink₀ ∧
      sinkExpect true sink₀ st.specs = (0, sink) ∧ st.specs = built.map Prod.snd ∧
      List.Forall₂ (fun sec cam ↦ ∃ b camera, BuiltFrom twoKinds sec cam b camera)
        twoKinds.enabledCams built ∧
      twoKinds.enabledCams.map IniSection.name = [ascii "cam.a", ascii "cam.c"] ∧
      st.specs.map SinkCamSpec.maxSites = [6, 16] ∧ sendsFirst st.cams = true ∧
      (frameWireUnpack msg sink.decoded).1 = .ok := by
  have hbuild : buildCameras allGranted twoKinds defaultConf
      = ((buildCameras allGranted twoKinds defaultConf).1, none) :=
    Prod.ext rfl (by decide +kernel)
  have hsites : (buildCameras allGranted twoKinds defaultConf).1.specs.map SinkCamSpec.maxSites
      = [6, 16] := by decide +kernel
  have hfirst : sendsFirst (buildCameras allGranted twoKinds defaultConf).1.cams = true := by
    decide +kernel
  generalize (buildCameras allGranted twoKinds defaultConf).1 = st at hbuild hsites hfirst
  obtain ⟨sink₀, hnew⟩ : ∃ sink₀, sinkNew (some defaultConf.check) = some sink₀ :=
    Option.isSome_iff_exists.mp (by decide +kernel)
  have hlen : st.specs.length = 2 := by simpa using congrArg List.length hsites
  obtain ⟨sink, hexpect⟩ := sinkExpect_granted (fresh_sinkNew hnew).sized st.specs
    (hlen.le.trans (by decide))
  obtain ⟨built, -, hspecs, hcams, hsections, -, hticks⟩ :=
    geometry_agrees (by decide +kernel) hbuild hnew hexpect
  have hsend := hfirst
  rw [hcams] at hsend
  cases built with
  | nil =>
    rw [hspecs] at hlen
    cases hlen
  | cons cam rest =>
    rw [sendsFirst] at hsend
    split at hsend
    · next impl camera hattached =>
      rw [Bool.and_eq_true] at hsend
      obtain ⟨msg, hmsg⟩ := Option.isSome_iff_exists.mp hsend.2
      obtain ⟨-, -, -, -, hreceived⟩ := hticks cam List.mem_cons_self .mock impl camera hattached []
        firstTick hsend.1
      exact ⟨st, sink₀, sink, cam :: rest, msg, by decide +kernel, hbuild, hnew, hexpect, hspecs,
        hsections, by decide +kernel, hsites, hfirst, (hreceived msg hmsg [] true).1⟩
    · cases hsend

end SparseCamera
