import SparseCamera.Sink.Lifecycle
import SparseCamera.Smoke.Backends
import SparseCamera.Smoke.Basic
import SparseCamera.Smoke.Release

/-!
# The program

`main` loads the configuration, opens the sink, makes the context the cameras share, builds the
cameras and tells the sink about them. Each of these can fail, and then what was obtained before is
given back and the status is 2. After that come the threads, the drain loop and the report, which
are the smoke test, and at last everything is given back in one place.

What is obtained and given back goes to a log, with the thread of a camera under the number of the
camera.
-/

namespace SparseCamera

open CString Execution Resources

/-- What `main` obtains. -/
inductive MainResource where
  /-- The configuration file while it is read. -/
  | file
  | ini
  | sink (r : SinkResource)
  /-- The context the cameras share. -/
  | zmqCtx
  | startUp (r : StartUpResource)
  | thread (handle : ℕ)
deriving DecidableEq

/-- A webcam's context points into the store, where the name of its device is. A camera is built on
its context and on the socket context, and a thread ticks a camera. -/
def MainResource.needs : MainResource → List (MainResource → Bool)
  | sink r => r.needs.map fun p ↦ fun
    | sink r' => p r'
    | _ => false
  | startUp (.impl .v4l2 _) => [(· == ini)]
  | startUp (.camera k) => [(· == zmqCtx), fun
    | startUp (.impl _ k') => k' == k
    | _ => false]
  | thread k => [(· == startUp (.camera k))]
  | file | ini | zmqCtx | startUp (.impl .mock _) => []

/-- What `main` gets from outside before it creates the first thread. -/
structure MainEnv where
  /-- The first argument. -/
  argv : Option Bytes
  fopen : Bytes → Except Bytes Bytes
  /-- The store is allocated. -/
  ini : Bool
  sink : SinkNewEnv
  zmqCtx : Bool
  sections : ℕ → SectionEnv
  /-- The decode buffer can be grown. -/
  expect : Bool

/-- `DEFAULT_CONFIG`. -/
def defaultConfig : Bytes := ascii "configs/ini/smoke.ini"

def MainEnv.path (env : MainEnv) : Bytes := env.argv.getD defaultConfig

/-- Why `main` returns before it has created a thread. -/
inductive StartErr where
  | load (err : IniErr)
  | conf (err : ConfErr)
  | sink
  | zmqCtx
  | cameras (err : ConfErr)
  | noCameras
  | expect
deriving DecidableEq

/-- What `main` prints then. `err` has room for 255 characters. -/
def StartErr.text (path : Bytes) : StartErr → Bytes
  | load err => ascii "smoke: " ++ snprintf 256 err.text ++ ascii "\n"
  | conf err | cameras err =>
    ascii "smoke: " ++ path ++ ascii ": " ++ snprintf 256 err.text ++ ascii "\n"
  -- `sink_new` has said what is wrong
  | sink => []
  | zmqCtx => ascii "smoke: zmq_ctx_new failed\n"
  | noCameras => ascii "smoke: " ++ path ++ ascii ": no cameras enabled\n"
  | expect => ascii "smoke: sink_expect failed\n"

/-- What `main` has when it creates the first thread. -/
structure Started where
  ini : Ini
  conf : SinkConf
  sink : OpenSink
  built : StartUp

/-! ## Up to the first thread -/

/-- `ini_load`, with what it obtains and gives back. -/
def iniLoadLog (env : MainEnv) : Except IniErr Ini × List (Use MainResource) :=
  let result := iniLoad env.fopen env.ini (some env.path)
  match env.fopen env.path with
  | .error _ => (result, [])
  | .ok _ =>
    if env.ini = false then (result, [.acquire .file, .release .file])
    else
      match result with
      | .error _ => (result, [.acquire .file, .acquire .ini, .release .file, .release .ini])
      | .ok _ => (result, [.acquire .file, .acquire .ini, .release .file])

/-- The last lines of `main`, from `zmq_ctx_destroy` on. -/
def closeDown (sink : OpenSink) : List (Use MainResource) :=
  .release .zmqCtx :: (sinkDel sink.parts).map (Use.map .sink) ++ [.release .ini]

/-- `main` up to the first thread. -/
def mainStart (env : MainEnv) : Except StartErr Started × List (Use MainResource) :=
  match iniLoadLog env with
  | (.error err, log) => (.error (.load err), log)
  | (.ok ini, log) =>
    match loadSinkConf ini with
    | .error err => (.error (.conf err), log ++ [.release .ini])
    | .ok conf =>
      match sinkNewWith env.sink conf.endpoint (some conf.check) with
      | (none, sinkLog) => (.error .sink, log ++ sinkLog.map (Use.map .sink) ++ [.release .ini])
      | (some sink, sinkLog) =>
        let log := log ++ sinkLog.map (Use.map .sink)
        if env.zmqCtx = false then
          (.error .zmqCtx, log ++ (sinkDel sink.parts).map (Use.map .sink) ++ [.release .ini])
        else
          let log := log ++ [.acquire .zmqCtx]
          let result := buildCameras env.sections ini conf
          let built := result.1
          let log := log ++ built.log.map (Use.map .startUp)
          let released (n : ℕ) := (camsRelease built.cams n).2.map (Use.map .startUp)
          match result.2 with
          | some err =>
            (.error (.cameras err), log ++ released sinkMaxCameras ++ closeDown sink)
          | none =>
            if built.specs.length = 0 then (.error .noCameras, log ++ closeDown sink)
            else
              let (rc, told) := sinkExpect env.expect sink.toSink built.specs
              let sink := { sink with toSink := told }
              if rc ≠ 0 then
                (.error .expect, log ++ released built.specs.length ++ closeDown sink)
              else (.ok { ini := ini, conf := conf, sink := sink, built := built }, log)

/-! ## The smoke test that is started -/

def StartUp.cameraAt (st : StartUp) (i : ℕ) : Option (Object (CameraCtx AnyImpl)) :=
  st.cams[i]?.bind fun entry ↦ entry.attached.bind fun attached ↦
    attached.camera.map fun camera ↦ ⟨camera.handle, camera.state.toCameraCtx.toAny⟩

/-- The number of the camera in entry `i`. -/
def Started.handle (start : Started) (i : ℕ) : ℕ := (start.built.cameraAt i).elim 0 Object.handle

/-- The threads that were created, in order. -/
def Smoke.created {n : ℕ} {ι : Type} (s : Smoke n ι) : List (Fin n) :=
  (List.finRange n).filter fun i ↦ (s.threads i).started

def Started.threads {n : ℕ} {ι : Type} (start : Started) (s : Smoke n ι) : List MainResource :=
  s.created.map fun i : Fin n ↦ .thread (start.handle i)

/-- The status, once `main` has returned. -/
def Smoke.status {n : ℕ} {ι : Type} (s : Smoke n ι) : Option ℤ :=
  match s.main with
  | .returned _ status => some status
  | _ => none

end SparseCamera
