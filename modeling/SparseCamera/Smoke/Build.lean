import SparseCamera.Lib.Resources
import SparseCamera.Sink.Basic
import SparseCamera.Smoke.Config

/-!
# Building the cameras

`build_cameras` walks over the sections of the configuration and fills two tables, one with the
cameras and one with what the sink has to know about them. It stops at the first section it cannot
make a camera of, and then the last entry of the first table is half filled and not counted.
`cams_release` gives back what it finds in the table.

What is created and destroyed goes to a log. The context that is created for section `i`, and the
camera on top of it, go by the number `i`.

## The construction

The source writes into two arrays and counts. Here the table of cameras is a list of sixteen entries
of which the first few are in use, and the table of specs is as long as there are cameras. An entry
that is half filled when the loop gives up lies behind those that are counted, which is why `main`
releases the whole table then.
-/

namespace SparseCamera

open CString Resources

/-- What `build_cameras` obtains. -/
inductive StartUpResource where
  /-- A context that was made by `create` of a backend, or is given to its `destroy`. -/
  | impl (backend : BackendKind) (handle : ℕ)
  | camera (handle : ℕ)
deriving DecidableEq

/-- A pointer, and what is behind it. -/
structure Object (α : Type) where
  handle : ℕ
  state : α

/-- The pointers of a `cam_thread_t`. -/
structure Attached where
  backend : BackendKind
  impl : Option (Object backend.Impl)
  camera : Option (Object (Camera backend.Impl))

/-- `cam_thread_t` as far as it is filled in before the thread is started. -/
structure CamEntry where
  label : Bytes
  want : UInt64
  attached : Option Attached

/-- An entry as `memset` leaves it. -/
def CamEntry.blank : CamEntry := ⟨[], 0, none⟩

/-- What the attempts to allocate and to bring up a camera come to. -/
structure SectionEnv where
  create : Bool
  camera : (b : BackendKind) → CameraNewEnv b.InitEnv

/-- The tables, and the log of what was obtained. The number of cameras is the length of `specs`. -/
structure StartUp where
  cams : List CamEntry
  specs : List SinkCamSpec
  log : List (Use StartUpResource)

def StartUp.start : StartUp := ⟨List.replicate sinkMaxCameras .blank, [], []⟩

/-! ## One section

A section is read first, and reading it can fail or say that there is nothing to build. After that
come the steps that obtain something, each of which can be the last. -/

/-- The name begins with `CAM_PREFIX`. -/
def isCamSection (name : Bytes) : Bool := (ascii "cam.").isPrefixOf name

/-- What `build_cameras` reads in a section. -/
structure CamRequest where
  backend : BackendKind
  id : UInt32
  fps : ExtRat
deriving DecidableEq

/-- The body of the loop of `build_cameras` up to the point where the table is touched; `none` if
the section is passed over. -/
def readCamera (ini : Ini) (specs : List SinkCamSpec) (name : Bytes) :
    Except ConfErr (Option CamRequest) := do
  if isCamSection name = false then .ok none
  else
    let enabled ← iniGetBool ini name (ascii "enabled") true
    if enabled = false then .ok none
    else if sinkMaxCameras ≤ specs.length then
      .error (.config
        (ascii "more than " ++ ascii (toString sinkMaxCameras) ++ ascii " enabled cameras"))
    else
      match ← iniGetStr ini name (ascii "backend") none with
      | none => .error (.inSection name (ascii "no backend given"))
      | some value =>
        match backendFind value with
        | none =>
          .error (.atKey name (ascii "backend") (quoted value ++ ascii " is not a known backend"))
        | some backend =>
          let id ← iniGetU32 ini name (ascii "id") 0
          let fps ← iniGetF64 ini name (ascii "fps") (.fin 30)
          if specs.any fun spec ↦ spec.cameraId == id then
            .error (.atKey name (ascii "id")
              (ascii (toString id) ++ ascii " is already used by another camera"))
          else .ok (some { backend := backend, id := id, fps := fps })

/-- The rest of the body: the entry as it is left in the table, what was obtained, and the spec of
the camera or what is wrong with it. -/
def buildEntry (env : SectionEnv) (ini : Ini) (sc : SinkConf) (i : ℕ) (name : Bytes)
    (request : CamRequest) : CamEntry × List (Use StartUpResource) × Except ConfErr SinkCamSpec :=
  let backend := request.backend
  let entry (impl : Option (Object backend.Impl)) (camera : Option (Object (Camera backend.Impl))) :
      CamEntry :=
    { label := snprintf 64 name
      want := sc.frames.toUInt64
      attached := some ⟨backend, impl, camera⟩ }
  match backend.create ini name env.create with
  | .error err => (entry none none, [], .error err)
  | .ok impl =>
    let log := [.acquire (.impl backend i)]
    let maxSites := backend.maxSites impl
    -- a frame counts its sites in 32 bits
    if maxSites = 0 ∨ 0xffffffff < maxSites then
      (entry (some ⟨i, impl⟩) none, log, .error (.inSection name
        (ascii "backend reports " ++ ascii (toString maxSites) ++ ascii " sites")))
    else
      let cfg : CameraConfig :=
        { endpoint := sc.endpoint
          zmqCtx := true
          cameraId := request.id
          frameCap := maxSites }
      match cameraNewWith backend.interface (env.camera backend) cfg impl with
      | (none, impl, _) =>
        (entry (some ⟨i, impl⟩) none, log, .error (.inSection name
          (ascii "camera_new(" ++ printed sc.endpoint ++ ascii ") failed")))
      | (some camera, impl, _) =>
        (entry (some ⟨i, impl⟩) (some ⟨i, camera⟩), log ++ [.acquire (.camera i)], .ok
          { cameraId := request.id
            maxSites := maxSites.toUInt32
            expectPeriodMs :=
              if ExtRat.lt (.fin 0) request.fps then .fin 1000 / request.fps else .fin 0 })

/-- The body of the loop of `build_cameras` for section `i`. -/
def StartUp.buildSection (env : SectionEnv) (ini : Ini) (sc : SinkConf) (st : StartUp) (i : ℕ)
    (name : Bytes) : StartUp × Option ConfErr :=
  match readCamera ini st.specs name with
  | .error err => (st, some err)
  | .ok none => (st, none)
  | .ok (some request) =>
    let (entry, log, result) := buildEntry env ini sc i name request
    let st := { st with cams := st.cams.set st.specs.length entry, log := st.log ++ log }
    match result with
    | .error err => (st, some err)
    | .ok spec => ({ st with specs := st.specs ++ [spec] }, none)

/-! ## All sections -/

/-- The loop of `build_cameras` from section `i` on. -/
def buildCamerasFrom (env : ℕ → SectionEnv) (ini : Ini) (sc : SinkConf) (st : StartUp) (i : ℕ) :
    List IniSection → StartUp × Option ConfErr
  | [] => (st, none)
  | sec :: rest =>
    match st.buildSection (env i) ini sc i sec.name with
    | (st, some err) => (st, some err)
    | (st, none) => buildCamerasFrom env ini sc st (i + 1) rest

/-- `build_cameras`: the tables, and what went wrong if something did. -/
def buildCameras (env : ℕ → SectionEnv) (ini : Ini) (sc : SinkConf) : StartUp × Option ConfErr :=
  buildCamerasFrom env ini sc .start 0 ini.sections

/-! ## Release -/

/-- The body of the loop of `cams_release`. -/
def camRelease (entry : CamEntry) : CamEntry × List (Use StartUpResource) :=
  match entry.attached with
  | none => (entry, [])
  | some ⟨backend, impl, camera⟩ =>
    ({ entry with attached := some ⟨backend, none, none⟩ },
      (camera.toList.map fun camera ↦ .release (.camera camera.handle)) ++
        impl.toList.map fun impl ↦ .release (.impl backend impl.handle))

/-- `cams_release`: the table afterwards and what is given back. -/
def camsRelease (cams : List CamEntry) (n : ℕ) : List CamEntry × List (Use StartUpResource) :=
  ((cams.take n).map (fun entry ↦ (camRelease entry).1) ++ cams.drop n,
    (cams.take n).flatMap fun entry ↦ (camRelease entry).2)

/-- The number `main` passes to `cams_release`: the whole table if a camera could not be built. -/
def releaseCount (result : StartUp × Option ConfErr) : ℕ :=
  if result.2.isSome then sinkMaxCameras else result.1.specs.length

theorem set_blank {built : List CamEntry} (hroom : built.length < sinkMaxCameras)
    (entry : CamEntry) :
    (built ++ List.replicate (sinkMaxCameras - built.length) CamEntry.blank).set built.length entry
      = (built ++ [entry]) ++
        List.replicate (sinkMaxCameras - (built ++ [entry]).length) CamEntry.blank := by
  have hleft : sinkMaxCameras - built.length = sinkMaxCameras - (built.length + 1) + 1 := by
    omega
  rw [List.set_append_right _ _ le_rfl, Nat.sub_self, hleft, List.replicate_succ,
    List.set_cons_zero, List.length_append, List.length_singleton, List.append_assoc,
    List.singleton_append]

/-! ## Reading a section -/

section Read

variable {ini : Ini} {specs : List SinkCamSpec} {name : Bytes} {request : CamRequest}

theorem readCamera_none (h : readCamera ini specs name = .ok none) :
    isCamSection name = false ∨ iniGetBool ini name (ascii "enabled") true = .ok false := by
  rw [readCamera] at h
  by_cases hcam : isCamSection name = false
  · exact Or.inl hcam
  · rw [if_neg hcam] at h
    obtain ⟨enabled, henabled, h⟩ := bind_eq_ok.mp h
    cases enabled with
    | false => exact Or.inr henabled
    | true =>
      rw [if_neg Bool.noConfusion] at h
      split_ifs at h
      obtain ⟨value, -, h⟩ := bind_eq_ok.mp h
      split at h
      · cases h
      · split at h
        · cases h
        · obtain ⟨id, -, h⟩ := bind_eq_ok.mp h
          obtain ⟨fps, -, h⟩ := bind_eq_ok.mp h
          split_ifs at h
          cases h

theorem readCamera_some (h : readCamera ini specs name = .ok (some request)) :
    isCamSection name = true ∧ iniGetBool ini name (ascii "enabled") true = .ok true ∧
      specs.length < sinkMaxCameras ∧
      iniGet ini name (ascii "backend") = some request.backend.name ∧
      iniGetU32 ini name (ascii "id") 0 = .ok request.id ∧
      iniGetF64 ini name (ascii "fps") (.fin 30) = .ok request.fps ∧
      ∀ spec ∈ specs, spec.cameraId ≠ request.id := by
  rw [readCamera] at h
  by_cases hcam : isCamSection name = false
  · rw [if_pos hcam] at h
    cases h
  rw [if_neg hcam] at h
  obtain ⟨enabled, henabled, h⟩ := bind_eq_ok.mp h
  cases enabled with
  | false => cases h
  | true =>
    rw [if_neg Bool.noConfusion] at h
    split_ifs at h with hroom
    obtain ⟨value, hvalue, h⟩ := bind_eq_ok.mp h
    split at h
    · cases h
    · next value =>
      split at h
      · cases h
      · next backend hbackend =>
        obtain ⟨id, hid, h⟩ := bind_eq_ok.mp h
        obtain ⟨fps, hfps, h⟩ := bind_eq_ok.mp h
        split_ifs at h with hused
        obtain rfl := Option.some.inj (Except.ok.inj h)
        refine ⟨Bool.not_eq_false _ ▸ hcam, henabled, not_le.mp hroom, ?_, hid, hfps, ?_⟩
        · -- the default would be no backend at all
          rcases iniGetWith_eq_ok.mp hvalue with ⟨-, hdflt⟩ | ⟨raw, hraw, hread⟩
          · cases hdflt
          · split_ifs at hread
            obtain rfl := Option.some.inj (Except.ok.inj hread)
            rw [hraw, backendFind_eq_some hbackend]
        · simpa using hused

end Read

end SparseCamera
