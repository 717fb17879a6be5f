import SparseCamera.Pipeline.Delivery
import SparseCamera.Smoke.Basic

/-!
# The smoke test on mock cameras

What `main` builds from a configuration with mock cameras is a `Launch`, so everything that is
proved about launches is about these configurations.
-/

namespace SparseCamera

def mockLaunch {sections : List (MockSection × Int64)}
    {built : List (CameraCtx MockCtx × SinkCamSpec)}
    (hbuild : buildMockCameras sections = some built) {check : Option SinkCheck} {sink₀ sink : Sink}
    {granted : Bool} (hopened : Opened check sink₀)
    (hexpect : sinkExpect granted sink₀ (built.map Prod.snd) = (0, sink))
    (frames timeoutS : UInt32) : Launch built.length MockCtx Int64 where
  backend _ := mockCameraInterface
  cams i := (built.get i).1
  sink := sink
  frames := frames
  timeoutS := timeoutS
  few := (buildMockCameras_spec hbuild).1
  fills _ := fills_mockCameraInterface
  ready i := ((buildMockCameras_spec hbuild).2.2 _ (List.get_mem built i)).ready
  fresh := (Opened.expect hopened hexpect).fresh

/-! ## Small launches -/

/-- `k` cameras with one cell each and two frames a second, brought up at time 0. -/
def smallSections (k : ℕ) : List (MockSection × Int64) :=
  (List.range k).map fun i ↦
    ({ id := .ofNat i, rows := 1, cols := 1, sites := 1, fps := .fin 2 }, 0)

theorem buildMockCameras_one : (buildMockCameras (smallSections 1)).isSome = true := by
  decide +kernel

theorem buildMockCameras_two : (buildMockCameras (smallSections 2)).isSome = true := by
  decide +kernel

section Small

variable {k : ℕ} (h : (buildMockCameras (smallSections k)).isSome = true)

/-- The cameras built from such a configuration. -/
def smallBuilt : List (CameraCtx MockCtx × SinkCamSpec) :=
  (buildMockCameras (smallSections k)).get h

theorem buildMockCameras_small : buildMockCameras (smallSections k) = some (smallBuilt h) :=
  (Option.some_get h).symm

def defaultSink : Sink := (sinkNew none).get rfl

theorem sinkNew_default : sinkNew none = some defaultSink := rfl

/-- The answer and the sink when it is told to expect them. -/
def smallSink : ℤ × Sink := sinkExpect true defaultSink ((smallBuilt h).map Prod.snd)

theorem smallSink_fst : (smallSink h).1 = 0 := by
  obtain ⟨hlen, -, -⟩ := buildMockCameras_spec (buildMockCameras_small h)
  obtain ⟨sink, hsink⟩ := sinkExpect_granted (fresh_sinkNew sinkNew_default).sized
    ((smallBuilt h).map Prod.snd) (by rwa [List.length_map])
  rw [smallSink, hsink]

/-- A test of `frames` frames for each of these cameras, without a time limit. -/
def smallLaunch (frames : UInt32) : Launch (smallBuilt h).length MockCtx Int64 :=
  mockLaunch (buildMockCameras_small h) (.new sinkNew_default)
    (Prod.ext (smallSink_fst h) rfl : smallSink h = (0, (smallSink h).2)) frames 0

end Small

end SparseCamera
