import SparseCamera.Ini.RoundTrip
import SparseCamera.Pipeline.Punctual
import SparseCamera.Smoke.Quiet
import SparseCamera.Smoke.Refinement

/-!
# A test on time

The program gives the sink the configured period of every mock camera, and the sink warns of jitter.
On a machine that wakes the cameras in time these warnings tell nothing new: over every execution of
the test there are as many as there are gaps in the sequence numbers.
-/

namespace SparseCamera

open Execution

/-! ## Periods

The period in the sink's table is a fraction of milliseconds, that of the camera a whole number of
nanoseconds, rounded down. They differ by less than a nanosecond. -/

/-- The backend and the sink are given the same period, the backend in whole nanoseconds. -/
theorem buildMockCamera_period {now : Int64} {sec : MockSection}
    {cam : CameraCtx MockCtx × SinkCamSpec} (h : buildMockCamera now sec = some cam) :
    ∃ expect : ℚ, cam.2.expectPeriodMs = .fin expect ∧
      cam.1.implCtx.periodNs.toInt = ⌊10 ^ 6 * expect⌋ := by
  simp only [buildMockCamera] at h
  split at h
  · cases h
  next impl himpl =>
  by_cases hsites : mockMaxSites impl = 0 ∨ 0xffffffff < mockMaxSites impl
  · rw [if_pos hsites] at h
    cases h
  rw [if_neg hsites] at h
  split at h
  · cases h
  next camera hcamera =>
  obtain rfl := Option.some.inj h
  simp only [mockFromIni] at himpl
  split_ifs at himpl with hgrid hfps
  obtain ⟨fps, hfin, hpos, hperiod⟩ := mockCtxCreate_period himpl
  have hlt : (mockMaxSites impl).toNat < 2 ^ 32 :=
    Nat.lt_of_le_of_lt (UInt64.le_iff_toNat_le.mp (UInt64.not_lt.mp (not_or.mp hsites).2))
      (by decide)
  obtain ⟨-, -, -, -, -, hinit⟩ := ready_cameraNew hcamera hlt
  have hkept : camera.implCtx.periodNs = impl.periodNs := by
    rw [mockInit] at hinit
    split_ifs at hinit
    · exact absurd (Prod.mk.inj hinit).1 (by decide)
    · exact (congrArg MockCtx.periodNs (Prod.mk.inj hinit).2).symm
  refine ⟨1000 / fps, ?_, ?_⟩
  · have hfin : sec.fps = .fin fps := hfin
    simp only [hfin, ExtRat.lt_fin, if_pos (decide_eq_true hpos), ExtRat.div_fin hpos.ne']
  · rw [hkept, hperiod]
    congr 1
    ring

private theorem periodOf_of_mem {check : SinkCheck} {specs : List SinkCamSpec} {spec : SinkCamSpec}
    (hdistinct : (specs.map SinkCamSpec.cameraId).Nodup) (hmem : spec ∈ specs) :
    periodOf check specs spec.cameraId = spec.expectPeriodMs := by
  have hfind : specs.find? (fun spec' ↦ spec'.cameraId == spec.cameraId) = some spec :=
    (find?_eq_some_of_nodup hdistinct).mpr ⟨hmem, rfl⟩
  rw [periodOf, hfind, Option.elim_some]

/-! ## The test

The account of `Pipeline.Punctual` holds of the pipeline in the test, since what the test does to it
is an execution of the pipeline. -/

section Mock

variable {sections : List (MockSection × Int64)}
  {built : List (CameraCtx MockCtx × SinkCamSpec)}
  (hbuild : buildMockCameras sections = some built) {check : Option SinkCheck} {sink₀ sink : Sink}
  {granted : Bool} (hopened : Opened check sink₀)
  (hexpect : sinkExpect granted sink₀ (built.map Prod.snd) = (0, sink))

/-- The launch of an accepted configuration on a machine that wakes each camera in time. -/
def punctualLaunch (late : Fin built.length → ℕ) (frames timeoutS : UInt32) :
    Launch built.length MockCtx Int64 :=
  { mockLaunch hbuild hopened hexpect frames timeoutS with
    backend := fun i ↦ punctualInterface (late i)
    fills := fun _ ↦ ⟨fills_mockCameraInterface.frame⟩ }

include hbuild hopened hexpect in
private theorem timed_start {tol : ℚ} (htol : sink.check.tol = .fin tol)
    {late : Fin built.length → ℕ}
    (htolerates : ∀ i p, (built.get i).2.expectPeriodMs = .fin p → Tolerates p tol (late i)) :
    (Pipeline.start built sink).Timed late tol := by
  obtain ⟨hfew, hnodup, hproducing⟩ := buildMockCameras_spec hbuild
  have hdistinct : ((built.map Prod.snd).map SinkCamSpec.cameraId).Nodup := by rwa [List.map_map]
  obtain ⟨-, hspecs, hwide⟩ := sinkExpect_zero hexpect
  have hfresh : sink.Fresh := (Opened.expect hopened hexpect).fresh
  have hcam (i : Fin built.length) := hproducing _ (List.get_mem built i)
  refine ⟨⟨fun i ↦ (hcam i).ready, fun i ↦ ?_, fun _ _ hmsg ↦ absurd hmsg List.not_mem_nil,
    hfresh.sized⟩, hfresh, fun _ ↦ rfl, fun i j hij ↦ ?_, hfew, htol, fun i ↦ ?_⟩
  · have hroom := hwide _ (List.mem_map_of_mem (List.get_mem built i))
    exact UInt32.le_iff_toNat_le.mpr
      ((hcam i).capacity.trans_le (UInt32.le_iff_toNat_le.mp hroom))
  · exact injective_idOf hbuild ((hcam i).cameraId.symm.trans (hij.trans (hcam j).cameraId))
  · obtain ⟨hall, -, -⟩ := buildMockCameras_eq_some.mp hbuild
    obtain ⟨sec, -, hsec⟩ := exists_of_mem_right hall (List.get_mem built i)
    obtain ⟨expect, hexpect', hperiod⟩ := buildMockCamera_period hsec
    refine ⟨expect, _, ?_, htolerates i expect hexpect', ⟨(hcam i).ready.sized, (hcam i).running,
      hperiod, ?_, by simp, List.IsChain.nil⟩⟩
    · change periodOf sink.check sink.specs (built.get i).1.cameraId = _
      rw [(hcam i).cameraId, hspecs]
      exact (periodOf_of_mem hdistinct
        (List.mem_map_of_mem (List.get_mem built i))).trans hexpect'
    · rw [Nat.cast_zero, zero_mul, add_zero]
      rfl

/-- **Jitter is loss.** For every configuration with mock cameras, every lateness the tolerance of
the sink leaves room for, and every execution of the test in which no camera is woken later than
that: whatever was sent, dropped or failed to be sent, and however threads, drain loop, clock and
signals were interleaved, the sink has counted exactly as many steps out of tolerance as gaps in the
sequence numbers. -/
theorem jitter_counts_gaps {tol : ℚ} (htol : sink.check.tol = .fin tol)
    {late : Fin built.length → ℕ}
    (htolerates : ∀ i p, (built.get i).2.expectPeriodMs = .fin p → Tolerates p tol (late i))
    {frames timeoutS : UInt32} {steps : List (SmokeStep built.length Int64)}
    {s : Smoke built.length MockCtx}
    (hexec : exec (Smoke.step (punctualLaunch hbuild hopened hexpect late frames timeoutS))
      (.start (punctualLaunch hbuild hopened hexpect late frames timeoutS)) steps = some s)
    (hlt : ∀ i, (ticksOf i (movesOf (punctualLaunch hbuild hopened hexpect late frames timeoutS)
      steps)).length < 2 ^ 64) :
    s.sink.stats.jitter = s.sink.stats.seqGaps :=
  (timed_start hbuild hopened hexpect htol htolerates).jitter_eq hlt (exec_movesOf hexec)

end Mock

/-! ## A dropped frame -/

private theorem opened_default : Opened none defaultSink := .new sinkNew_default

private theorem smallSink_one :
    smallSink buildMockCameras_one = (0, (smallSink buildMockCameras_one).2) :=
  Prod.ext (smallSink_fst _) rfl

/-- One camera with three frames to send, woken on time. -/
def threeLaunch : Launch (smallBuilt buildMockCameras_one).length MockCtx Int64 :=
  punctualLaunch (buildMockCameras_small buildMockCameras_one) opened_default smallSink_one
    (fun _ ↦ 0) 3 0

/-- The second of its frames is dropped, and the others are received. -/
def threeSteps : List (SmokeStep (smallBuilt buildMockCameras_one).length Int64) :=
  [.spawn true, .main, .main] ++ soloAttempt 500000000 .sent ++ soloAttempt 1000000000 .again ++
    soloAttempt 1500000000 .sent ++ [.recv solo true, .main, .main, .clock false, .main] ++
    [.recv solo true]

/-- One gap, and one step that takes too long. -/
theorem jitter_counts_gaps_three :
    ∃ s, exec (Smoke.step threeLaunch) (.start threeLaunch) threeSteps = some s ∧
      s.sink.stats.seqGaps = 1 ∧ s.sink.stats.jitter = 1 := by
  have hrun : (exec (Smoke.step threeLaunch) (.start threeLaunch) threeSteps).map
      (fun s ↦ s.sink.stats.seqGaps) = some 1 := by decide +kernel
  obtain ⟨s, hs, hgaps⟩ := Option.map_eq_some_iff.mp hrun
  have htol : (smallSink buildMockCameras_one).2.check.tol = .fin (1 / 2) := by decide +kernel
  have hexpect : ∀ i, ((smallBuilt buildMockCameras_one).get i).2.expectPeriodMs = .fin 500 := by
    decide +kernel
  have hlt : ∀ i, (ticksOf i (movesOf threeLaunch threeSteps)).length < 2 ^ 64 := by
    decide +kernel
  have htolerates (i) (p : ℚ)
      (hp : ((smallBuilt buildMockCameras_one).get i).2.expectPeriodMs = .fin p) :
      Tolerates p (1 / 2) 0 := by
    obtain rfl := ExtRat.fin.inj ((hexpect i).symm.trans hp)
    exact ⟨by norm_num, by norm_num⟩
  refine ⟨s, hs, hgaps, (jitter_counts_gaps (buildMockCameras_small buildMockCameras_one)
    opened_default smallSink_one htol htolerates hs hlt).trans hgaps⟩

end SparseCamera
