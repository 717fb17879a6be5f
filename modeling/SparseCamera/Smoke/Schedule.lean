import SparseCamera.Pipeline.Schedule
import SparseCamera.Smoke.Accepted

/-!
# What does not matter to the program

Two things that one cannot see in what a run of the program says. One is the wire: in every launch
from a configuration that `main` accepts the frames of the cameras fit the decode buffer, so nothing
would change if a camera could hand its frames to the sink as they are. The other is the schedule:
when each camera has made the same attempts, with the same answers from outside, and the same number
of its messages has been received, the counters and the records are the same, and so is the status
if `main` returns for the same reason.
-/

namespace SparseCamera

open Execution

section Accepted

variable {start : Started}

theorem AnyFits.capacity {spec : SinkCamSpec} {camera : CameraCtx AnyImpl}
    (h : AnyFits spec camera) : camera.frame.capacity = spec.maxSites := by
  obtain ⟨b, ctx, rfl, hfits⟩ := h
  exact hfits.capacity

/-- The cameras of an accepted configuration fit the decode buffer. -/
theorem Started.Good.wide (h : start.Good) : (Smoke.start (start.launch h)).toPipeline.Wide := by
  obtain ⟨-, -, hroom⟩ := h.table
  refine ⟨(start.launch h).ready, fun i ↦ ?_, fun _ _ hmsg ↦ absurd hmsg List.not_mem_nil,
    h.fresh.sized⟩
  have hcap : ((start.launch h).cams i).frame.capacity = (start.built.specs.get i).maxSites :=
    (h.fits i).capacity
  exact hcap ▸ hroom i

/-- No two of its cameras send under the same id. -/
theorem Started.Good.injective (h : start.Good) :
    Function.Injective fun i ↦ ((start.launch h).cams i).cameraId := by
  obtain ⟨htable, hdistinct, -⟩ := h.table
  rw [htable, List.nodup_iff_injective_getElem] at hdistinct
  intro i j hij
  have hid (i : Fin start.built.specs.length) :
      ((start.launch h).cams i).cameraId = (start.built.specs.get i).cameraId :=
    (h.fits i).cameraId
  simp only [hid] at hij
  have hlt (i : Fin start.built.specs.length) :
      (i : ℕ) < (start.built.specs.map SinkCamSpec.cameraId).length := by simp
  exact Fin.ext (Fin.mk.inj (@hdistinct ⟨i, hlt i⟩ ⟨j, hlt j⟩ (by simpa using hij)))

/-- **The wire is transparent.** For every configuration that `main` accepts, with whatever kinds of
cameras: the cameras, their connections and the sink can make exactly the moves they could make if
frames were handed over without being packed, sent and parsed, and the same moves lead to the same
cameras, the same frames on the way and the same ledger. Every execution of the test consists of
such moves. -/
theorem wire_transparent (h : start.Good) :
    (∀ moves, (exec (Pipeline.step fun _ ↦ anyBackend) (Smoke.start (start.launch h)).toPipeline
        moves).map Pipeline.wireless
      = exec (Wireless.step fun _ ↦ anyBackend)
          (Smoke.start (start.launch h)).toPipeline.wireless moves) ∧
    ∀ {steps : List (SmokeStep start.built.specs.length AnyEnv)}
      {s : Smoke start.built.specs.length AnyImpl},
      exec (Smoke.step (start.launch h)) (.start (start.launch h)) steps = some s →
      exec (Wireless.step fun _ ↦ anyBackend) (Smoke.start (start.launch h)).toPipeline.wireless
        (movesOf (start.launch h) steps) = some s.toPipeline.wireless := by
  have hfills (_ : Fin start.built.specs.length) : anyBackend.Fills := fills_anyBackend
  have hsame := h.wide.wireless_exec hfills
  refine ⟨hsame, fun {steps s} hexec ↦ ?_⟩
  have hmoves : exec (Pipeline.step fun _ ↦ anyBackend) (Smoke.start (start.launch h)).toPipeline
      (movesOf (start.launch h) steps) = some s.toPipeline := exec_movesOf hexec
  rw [← hsame, hmoves, Option.map_some]

end Accepted

/-- The frame of the mock camera, handed over. -/
theorem wire_transparent_twoKinds :
    ∃ w, exec (Wireless.step fun _ ↦ anyBackend) (Smoke.start twoKindsLaunch).toPipeline.wireless
        (movesOf twoKindsLaunch twoKindsSteps) = some w ∧ w.ledger.stats.received = 1 := by
  have hrun : (exec (Smoke.step twoKindsLaunch) (.start twoKindsLaunch) twoKindsSteps).map
      (fun s ↦ s.sink.stats.received) = some 1 := by decide +kernel
  obtain ⟨s, hs, hreceived⟩ := Option.map_eq_some_iff.mp hrun
  exact ⟨_, (wire_transparent good_twoKinds).2 hs, hreceived⟩

/-- **The schedule is irrelevant.** Take any configuration that `main` accepts and any two
executions of the test in which each camera makes the same attempts, in order, with the same answers
from outside, and the same number of its messages is received: however the threads, the drain loop,
signals and the clock were interleaved, the cameras count the same, and so does the sink, in every
counter and every record. If `main` returns in both, and time has run out in both or in neither, the
status is the same. -/
theorem schedule_irrelevant {start : Started} (h : start.Good)
    {steps steps' : List (SmokeStep start.built.specs.length AnyEnv)}
    {s s' : Smoke start.built.specs.length AnyImpl}
    (hexec : exec (Smoke.step (start.launch h)) (.start (start.launch h)) steps = some s)
    (hexec' : exec (Smoke.step (start.launch h)) (.start (start.launch h)) steps' = some s')
    (hticks : ∀ i, ticksOf i (movesOf (start.launch h) steps)
      = ticksOf i (movesOf (start.launch h) steps'))
    (hreceived : ∀ i, receivedOf i (movesOf (start.launch h) steps)
      = receivedOf i (movesOf (start.launch h) steps'))
    (hlt : ∀ i, receivedOf i (movesOf (start.launch h) steps) < 2 ^ 64) :
    (∀ i, (s.cams i).sent = (s'.cams i).sent ∧ (s.cams i).dropped = (s'.cams i).dropped) ∧
      s.sink.stats = s'.sink.stats ∧ (∀ id, s.sink.record id = s'.sink.record id) ∧
      ∀ why status why' status', s.main = .returned why status → s'.main = .returned why' status' →
        (why = .deadline ↔ why' = .deadline) → status = status' := by
  have hfills (_ : Fin start.built.specs.length) : anyBackend.Fills := fills_anyBackend
  obtain ⟨hproducers, -, hstats, hrecords⟩ := h.wide.schedules hfills h.fresh (fun _ ↦ rfl)
    h.injective h.few (exec_movesOf hexec) (exec_movesOf hexec') hticks hreceived hlt
  refine ⟨fun i ↦ ?_, hstats, hrecords, ?_⟩
  · exact ⟨congrArg Producer.sent (hproducers i), congrArg Producer.dropped (hproducers i)⟩
  · intro why status why' status' hmain hmain' hwhy
    rw [returned_exec hexec hmain, returned_exec hexec' hmain', sinkReport, sinkReport, hstats]
    simp only [hwhy]

/-- Each camera makes its attempt, but the webcam before the mock camera. -/
def twoKindsOther : List (SmokeStep twoKindsStart.built.specs.length AnyEnv) :=
  [.spawn true, .spawn true, .main] ++ List.replicate 4 (.run twoKindsSecond twoKindsTick) ++
    List.replicate 4 (.run twoKindsFirst twoKindsTick) ++
    twoKindsTurn (.recv twoKindsFirst true) ++ [.clock false] ++
    twoKindsTurn (.socket .nothing) ++ [.clock false] ++ twoKindsTurn (.socket .nothing) ++ [.main]

theorem ticksOf_eq_singleton {n : ℕ} {ι ε : Type} {launch : Launch n ι ε}
    {steps : List (SmokeStep n ε)} {env : TickEnv ε}
    (henv : ∀ i env', .run i env' ∈ steps → env' = env) {i : Fin n}
    (hlen : (ticksOf i (movesOf launch steps)).length = 1) :
    ticksOf i (movesOf launch steps) = [env] := by
  obtain ⟨env', heq⟩ := List.length_eq_one_iff.mp hlen
  have hmem : env' ∈ ticksOf i (movesOf launch steps) := heq ▸ List.mem_cons_self
  obtain ⟨move, hmove, htick⟩ := List.mem_filterMap.mp hmem
  rw [heq]
  cases move with
  | tick j env₀ =>
    simp only at htick
    split_ifs at htick
    rw [← Option.some.inj htick, henv j env₀ (run_of_mem_movesOf hmove)]
  | recv j granted => cases htick

/-- The sink counts the same. -/
theorem schedule_irrelevant_twoKinds :
    ∃ s s', exec (Smoke.step twoKindsLaunch) (.start twoKindsLaunch) twoKindsSteps = some s ∧
      exec (Smoke.step twoKindsLaunch) (.start twoKindsLaunch) twoKindsOther = some s' ∧
      s.sink.stats = s'.sink.stats := by
  obtain ⟨s, hs, -⟩ := Option.map_eq_some_iff.mp exec_twoKinds
  have hother : (exec (Smoke.step twoKindsLaunch) (.start twoKindsLaunch) twoKindsOther).isSome
      = true := by decide +kernel
  obtain ⟨s', hs'⟩ := Option.isSome_iff_exists.mp hother
  have hticks (i : Fin twoKindsStart.built.specs.length) :
      ticksOf i (movesOf twoKindsLaunch twoKindsSteps)
        = ticksOf i (movesOf twoKindsLaunch twoKindsOther) := by
    have hone : ∀ i, (ticksOf i (movesOf twoKindsLaunch twoKindsSteps)).length = 1 ∧
        (ticksOf i (movesOf twoKindsLaunch twoKindsOther)).length = 1 := by decide +kernel
    have henv (j : Fin twoKindsStart.built.specs.length) (env : TickEnv AnyEnv)
        (hmem : .run j env ∈ twoKindsSteps ∨ .run j env ∈ twoKindsOther) : env = twoKindsTick := by
      simp only [twoKindsSteps, twoKindsOther, twoKindsTurn, List.mem_append, List.mem_cons,
        List.mem_replicate, reduceCtorEq, SmokeStep.run.injEq] at hmem
      tauto
    rw [ticksOf_eq_singleton (fun j env hmem ↦ henv j env (Or.inl hmem)) (hone i).1,
      ticksOf_eq_singleton (fun j env hmem ↦ henv j env (Or.inr hmem)) (hone i).2]
  have hreceived : ∀ i, receivedOf i (movesOf twoKindsLaunch twoKindsSteps)
      = receivedOf i (movesOf twoKindsLaunch twoKindsOther) ∧
      receivedOf i (movesOf twoKindsLaunch twoKindsSteps) < 2 ^ 64 := by decide +kernel
  exact ⟨s, s', hs, hs', (schedule_irrelevant good_twoKinds hs hs' hticks
    (fun i ↦ (hreceived i).1) fun i ↦ (hreceived i).2).2.1⟩

end SparseCamera
