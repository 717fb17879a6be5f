import SparseCamera.Lib.Simulation
import SparseCamera.Pipeline.EndToEnd
import SparseCamera.Smoke.Program
import SparseCamera.Smoke.Termination

/-!
# The smoke test refines the pipeline

The pipeline knows cameras, connections and a sink, and lets them move in any order. The smoke test
adds threads, a stop flag, a drain loop and a status, and with them it decides who moves when. It
adds no move: what its threads and its drain loop do to the cameras and the sink is an execution of
the pipeline. So what is known of the pipeline is known of the smoke test, and for mock cameras that
is what the status comes to.

## The construction

`Smoke.move` says which step of the pipeline a step of the test is, if it is one. A tick is a tick,
a `sink_recv` that takes a message is a receive, and all others leave the pipeline as it is. So the
labels of the pipeline's execution are the trace of the test's (`Refines.exec`).

The test adds a bound as well. A thread ticks its camera no more often than it was asked to, and
what is left for it to do can be read off its phase.
-/

namespace SparseCamera

open Execution LossyStream

variable {n : ℕ} {ι ε : Type}

/-- What a step of the smoke test is to the pipeline. -/
def Smoke.move (s : Smoke n ι) : SmokeStep n ε → Option (PipelineStep n ε)
  | .run i env => if (s.threads i).phase = .tick then some (.tick i env) else none
  | .recv i granted => some (.recv i granted)
  | _ => none

/-- The moves of the pipeline in an execution of the smoke test. -/
def movesOf (launch : Launch n ι ε) (steps : List (SmokeStep n ε)) : List (PipelineStep n ε) :=
  trace (Smoke.step launch) Smoke.move (.start launch) steps

section Refines

variable {launch : Launch n ι ε} {s s' : Smoke n ι} {l : SmokeStep n ε}

private theorem move_camRun {i : Fin n} {env : TickEnv ε} (h : s.camRun launch i env = some s') :
    exec (Pipeline.step launch.backend) s.toPipeline (s.move (.run i env)).toList
      = some s'.toPipeline := by
  rw [Smoke.move]
  by_cases hphase : (s.threads i).phase = .tick
  · rw [if_pos hphase]
    simp only [Smoke.camRun, hphase] at h
    obtain ⟨⟨rc, p⟩, htick, rfl⟩ := Option.map_eq_some_iff.mp h
    rw [Option.toList_some, exec_cons, Pipeline.step, htick]
    rfl
  · rw [if_neg hphase]
    have hmoves := Smoke.moves_of_camRun h
    generalize s.event launch (.run i env) = e at hmoves
    cases hmoves with
    | tick htick => exact absurd htick hphase
    | _ => rfl

/-- **Every step is the pipeline's.** -/
theorem refines_pipeline (launch : Launch n ι ε) :
    Refines (Smoke.step launch) (Pipeline.step launch.backend) Smoke.toPipeline Smoke.move := by
  intro s l s' hstep
  have hmoves := Smoke.moves_of_step hstep
  generalize s.event launch l = e at hmoves
  cases hmoves with
  | enter | finish | tick | store | tally => exact move_camRun hstep
  | @recv i granted msg rest hmain hpipe =>
    rw [toPipeline_polled, Smoke.move, Option.toList_some, exec_cons,
      Pipeline.step_recv_eq_some.mpr ⟨msg, rest, hpipe, rfl⟩]
    rfl
  | silence hmain hempty =>
    rw [toPipeline_polled]
    rfl
  | fault hmain hrc =>
    rw [toPipeline_polled]
    rfl
  | _ => rfl

/-- **An execution of the smoke test is one of the pipeline.** -/
theorem exec_movesOf {steps : List (SmokeStep n ε)}
    (hexec : exec (Smoke.step launch) (.start launch) steps = some s) :
    exec (Pipeline.step launch.backend) (Smoke.start launch).toPipeline (movesOf launch steps)
      = some s.toPipeline :=
  Refines.exec (refines_pipeline launch) hexec

/-! ## Ticks

The ticks that a thread can still make go down with each tick and never up. -/

/-- How often a thread can still tick its camera. -/
def CamThread.ticksLeft (ct : CamThread) : ℕ :=
  match ct.phase with
  | .idle | .loop | .tick => ct.want.toNat - ct.ticks.toNat
  | .count => ct.want.toNat - ct.ticks.toNat - 1
  | .fail _ | .done => 0

private theorem ticksLeft_setThread {i : Fin n} {ct : CamThread} {k : ℕ}
    (hthreads : s'.threads = Function.update s.threads i ct)
    (hself : k + ct.ticksLeft ≤ (s.threads i).ticksLeft) (j : Fin n) :
    (if i = j then k else 0) + (s'.threads j).ticksLeft ≤ (s.threads j).ticksLeft := by
  rw [hthreads]
  rcases eq_or_ne i j with rfl | hj
  · rw [if_pos rfl, Function.update_self]
    exact hself
  · rw [if_neg hj, Function.update_of_ne (Ne.symm hj), Nat.zero_add]

/-- **A tick is one tick less.** -/
theorem ticksLeft_step {tr : List (SmokeEvent n)} (hwork : s.Working launch tr)
    (hstep : s.step launch l = some s') (j : Fin n) :
    (sendsOf j (s.move l).toList).length + (s'.threads j).ticksLeft ≤ (s.threads j).ticksLeft := by
  have hmoves := Smoke.moves_of_step hstep
  generalize s.event launch l = e at hmoves
  -- the steps without a tick
  have hkeep (i : Fin n) (ct : CamThread) (hthreads : s'.threads = Function.update s.threads i ct)
      (hself : ct.ticksLeft ≤ (s.threads i).ticksLeft) :
      0 + (s'.threads j).ticksLeft ≤ (s.threads j).ticksLeft := by
    have h := @ticksLeft_setThread _ _ s s' i ct 0 hthreads (by rwa [Nat.zero_add]) j
    rwa [ite_self] at h
  have hsame (hthreads : s'.threads = s.threads) :
      0 + (s'.threads j).ticksLeft ≤ (s.threads j).ticksLeft := by
    rw [hthreads, Nat.zero_add]
  have hidle {i : Fin n} {env : TickEnv ε} (hphase : (s.threads i).phase ≠ .tick) :
      (sendsOf j (s.move (.run i env)).toList).length = 0 := by
    rw [Smoke.move, if_neg hphase]
    rfl
  cases hmoves with
  | @created k hmain hk =>
    refine hkeep ⟨k, hk⟩ _ rfl ?_
    have hunborn := hwork.unborn k hmain ⟨k, hk⟩ le_rfl
    simp [CamThread.ticksLeft, hwork.unstarted _ hunborn]
  | @enter i env hphase hmore =>
    rw [hidle (by simp [hphase])]
    exact hkeep i _ rfl (by simp [CamThread.ticksLeft, hphase])
  | @finish i env hphase =>
    rw [hidle (by simp [hphase])]
    exact hkeep i _ rfl (by simp [CamThread.ticksLeft])
  | @tick i env rc camera message hphase htick =>
    have hlt := (hwork.worked i).attempts_lt (Or.inl hphase)
    rw [CamThread.attempts, if_neg (by simp [hphase]), ← (hwork.worked i).want_eq] at hlt
    have hone : (sendsOf j (s.move (.run i env)).toList).length = if i = j then 1 else 0 := by
      rw [Smoke.move, if_pos hphase, Option.toList_some, sendsOf_tick_cons]
      split_ifs <;> rfl
    rw [hone]
    refine @ticksLeft_setThread _ _ s _ i _ 1 rfl ?_ j
    simp only [CamThread.ticksLeft, hphase]
    split_ifs
    · simp only
      omega
    · simp only
      omega
  | @store i env rc hphase =>
    rw [hidle (by simp [hphase])]
    exact hkeep i _ rfl (by simp [CamThread.ticksLeft])
  | @tally i env hphase =>
    rw [hidle (by simp [hphase])]
    have htally := (hwork.worked i).attempts_tally hphase
    simp only [CamThread.attempts, hphase, if_true, reduceCtorEq, if_false, Nat.add_zero] at htally
    refine hkeep i _ rfl ?_
    simp only [CamThread.ticksLeft, hphase]
    omega
  | recv hmain hpipe => exact hsame (threads_polled _ _).1
  | silence hmain hempty => exact hsame (threads_polled _ _).1
  | fault hmain hrc => exact hsame (threads_polled _ _).1
  | _ => exact hsame rfl

/-- **No camera is ticked more often than it was asked to.** -/
theorem length_sendsOf_le (hframes : launch.frames ≠ 0) {steps : List (SmokeStep n ε)}
    (hexec : exec (Smoke.step launch) (.start launch) steps = some s) (i : Fin n) :
    (sendsOf i (movesOf launch steps)).length ≤ launch.frames.toNat := by
  have hstart : ((Smoke.start launch).threads i).ticksLeft = launch.frames.toNat := by
    simp [Smoke.start, CamThread.ticksLeft]
  suffices (sendsOf i (movesOf launch steps)).length + (s.threads i).ticksLeft
      ≤ launch.frames.toNat from (Nat.le_add_right _ _).trans this
  refine invariant (I := fun ls t ↦ (sendsOf i (movesOf launch ls)).length +
    (t.threads i).ticksLeft ≤ launch.frames.toNat) ?_ ?_ hexec
  · exact (Nat.zero_add _).trans_le hstart.le
  · intro ls t l t' hls hle hstep
    have hless := ticksLeft_step (invariants_exec hframes hls).2.1 hstep i
    rw [movesOf, trace_concat l hls, sendsOf_append, List.length_append]
    rw [movesOf] at hle
    omega

/-- A tick of the pipeline is a step of a thread. -/
theorem run_of_mem_movesOf {steps : List (SmokeStep n ε)} {i : Fin n} {env : TickEnv ε}
    (h : .tick i env ∈ movesOf launch steps) : .run i env ∈ steps := by
  obtain ⟨l, hl, t, hmove⟩ := exists_of_mem_trace h
  cases l with
  | run j env' =>
    rw [Smoke.move] at hmove
    split_ifs at hmove
    obtain ⟨rfl, rfl⟩ := PipelineStep.tick.inj (Option.some.inj hmove)
    exact hl
  | recv j granted => cases hmove
  | spawn | socket | main | clock | sigint => cases hmove

/-- **The smoke test refines the pipeline.** Its threads, signals, clock and drain loop do nothing
to the cameras, the connections and the sink that the pipeline cannot do: each of its executions is
one of the pipeline, whose ticks are steps of the threads, and if it is to end no camera is ticked
more often than it was asked to send frames. -/
theorem smoke_refines {steps : List (SmokeStep n ε)}
    (hexec : exec (Smoke.step launch) (.start launch) steps = some s) :
    exec (Pipeline.step launch.backend) (Smoke.start launch).toPipeline (movesOf launch steps)
        = some s.toPipeline ∧
      (∀ i env, .tick i env ∈ movesOf launch steps → .run i env ∈ steps) ∧
      (launch.frames ≠ 0 → ∀ i,
        (sendsOf i (movesOf launch steps)).length ≤ launch.frames.toNat) :=
  ⟨exec_movesOf hexec, fun _ _ ↦ run_of_mem_movesOf, fun hframes ↦ length_sendsOf_le hframes hexec⟩

end Refines

/-- The execution in which the frame of the only camera is received, as an execution of the
pipeline. -/
theorem smoke_refines_solo :
    ∃ s, exec (Pipeline.step soloLaunch.backend) (Smoke.start soloLaunch).toPipeline
        (movesOf soloLaunch soloArrives) = some (Smoke.toPipeline s) ∧
      (sendsOf solo (movesOf soloLaunch soloArrives)).length ≤ 1 := by
  have hrun : (exec (Smoke.step soloLaunch) (.start soloLaunch) soloArrives).isSome = true := by
    decide +kernel
  obtain ⟨s, hs⟩ := Option.isSome_iff_exists.mp hrun
  obtain ⟨hmoves, -, hfew⟩ := smoke_refines hs
  exact ⟨s, hmoves, hfew (by decide) solo⟩

/-! ## What the status of mock cameras says -/

section Mock

variable {sections : List (MockSection × Int64)}
  {built : List (CameraCtx MockCtx × SinkCamSpec)}
  (hbuild : buildMockCameras sections = some built) {check : Option SinkCheck} {sink₀ sink : Sink}
  {granted : Bool} (hopened : Opened check sink₀)
  (hexpect : sinkExpect granted sink₀ (built.map Prod.snd) = (0, sink)) {frames timeoutS : UInt32}

/-- If the test is to end, its cameras are too few to acquire `2 ^ 64` frames. -/
theorem sum_length_sendsOf_lt (hframes : frames ≠ 0)
    {steps : List (SmokeStep built.length Int64)} {s : Smoke built.length MockCtx}
    (hexec : exec (Smoke.step (mockLaunch hbuild hopened hexpect frames timeoutS))
      (.start (mockLaunch hbuild hopened hexpect frames timeoutS)) steps = some s) :
    ∑ i, (sendsOf i (movesOf (mockLaunch hbuild hopened hexpect frames timeoutS) steps)).length
      < 2 ^ 64 := by
  have hfew := (buildMockCameras_spec hbuild).1
  have hfrom := frames.toNat_lt
  calc ∑ i, (sendsOf i (movesOf (mockLaunch hbuild hopened hexpect frames timeoutS) steps)).length
      ≤ ∑ _i : Fin built.length, frames.toNat :=
        Finset.sum_le_sum fun i _ ↦ length_sendsOf_le hframes hexec i
    _ = built.length * frames.toNat := by
        rw [Finset.sum_const_nat fun _ _ ↦ rfl, Finset.card_univ, Fintype.card_fin]
    _ ≤ sinkMaxCameras * frames.toNat := Nat.mul_le_mul_right _ hfew
    _ < 2 ^ 64 := by
        rw [sinkMaxCameras]
        omega

/-- **The status of a test with mock cameras.** Whatever the schedule, with signals or without, and
also if the cameras are to run until a signal comes: if no send failed, `main` returns 0 exactly
when time did not run out, something was received, and no camera dropped a frame between two that
were received. Only a test without an end can count so far that a counter comes back to 0. -/
theorem mock_status {steps : List (SmokeStep built.length Int64)} {s : Smoke built.length MockCtx}
    (hexec : exec (Smoke.step (mockLaunch hbuild hopened hexpect frames timeoutS))
      (.start (mockLaunch hbuild hopened hexpect frames timeoutS)) steps = some s)
    (hsend : ∀ i env, .tick i env ∈ movesOf (mockLaunch hbuild hopened hexpect frames timeoutS)
      steps → env.send ≠ .failed)
    (hendless : frames = 0 → ∑ i, (sendsOf i (movesOf
      (mockLaunch hbuild hopened hexpect frames timeoutS) steps)).length < 2 ^ 64)
    {why : ExitReason} {status : ℤ} (hreturned : s.main = .returned why status) :
    let moves := movesOf (mockLaunch hbuild hopened hexpect frames timeoutS) steps
    status = 0 ↔ why ≠ .deadline ∧ (∃ i, 0 < receivedOf i moves) ∧
      ∀ i, dropsBetween (sendsOf i moves) (receivedOf i moves) = 0 := by
  intro moves
  have htotal : ∑ i, (sendsOf i moves).length < 2 ^ 64 := by
    by_cases hframes : frames = 0
    · exact hendless hframes
    · exact sum_length_sendsOf_lt hbuild hopened hexpect hframes hexec
  have hlt (i : Fin built.length) : (sendsOf i moves).length < 2 ^ 64 :=
    (Finset.single_le_sum (fun _ _ ↦ Nat.zero_le _) (Finset.mem_univ i)).trans_lt htotal
  have hmoves : exec (Pipeline.step fun _ ↦ mockCameraInterface) (.start built sink) moves
      = some s.toPipeline := exec_movesOf hexec
  obtain ⟨heard, waiting, h⟩ := linked_exec (linked_start hbuild hopened hexpect)
    (injective_idOf hbuild) hmoves hsend hlt
  obtain ⟨-, -, hverdict⟩ := h.sinkReport_eq_zero hbuild hlt htotal
  rw [returned_exec hexec hreturned, ← hverdict]
  by_cases hlate : why = .deadline
  · rw [if_pos hlate]
    exact iff_of_false (by decide) fun hboth ↦ hboth.1 hlate
  · rw [if_neg hlate]
    exact (and_iff_right hlate).symm

end Mock

/-- The second of three frames is dropped, the others are received, and then comes a signal. -/
def endlessDrops : List (SmokeStep (smallBuilt buildMockCameras_one).length Int64) :=
  [.spawn true, .main, .main] ++ soloAttempt 500000000 .sent ++ soloAttempt 1000000000 .again ++
    soloAttempt 1500000000 .sent ++ [.recv solo true, .main, .clock false, .main] ++
    [.recv solo true, .main, .clock false, .sigint, .main, soloRun .sent, .main]

/-- The test of one camera that may run for ever fails after a drop between two frames, and the test
of one frame passes. -/
theorem mock_status_drops :
    (∃ s status, exec (Smoke.step endlessLaunch) (.start endlessLaunch) endlessDrops = some s ∧
      s.main = .returned .stop status ∧
      sendsOf solo (movesOf endlessLaunch endlessDrops) = [true, false, true] ∧
      receivedOf solo (movesOf endlessLaunch endlessDrops) = 2 ∧ status ≠ 0) ∧
    ∃ s status, exec (Smoke.step soloLaunch) (.start soloLaunch) soloArrives = some s ∧
      s.main = .returned .total status ∧
      sendsOf solo (movesOf soloLaunch soloArrives) = [true] ∧
      receivedOf solo (movesOf soloLaunch soloArrives) = 1 ∧ status = 0 := by
  constructor
  · have hrun : (exec (Smoke.step endlessLaunch) (.start endlessLaunch) endlessDrops).map Smoke.main
        = some (.returned .stop 1) := by decide +kernel
    obtain ⟨s, hs, hmain⟩ := Option.map_eq_some_iff.mp hrun
    have hsend : ∀ i env, .tick i env ∈ movesOf endlessLaunch endlessDrops →
        env.send ≠ .failed := by
      intro i env htick
      have hmem := run_of_mem_movesOf htick
      simp only [endlessDrops, soloAttempt, soloRun, List.mem_append, List.mem_cons,
        List.mem_replicate, reduceCtorEq, SmokeStep.run.injEq, List.not_mem_nil, or_false, false_or]
        at hmem
      rcases hmem with ((⟨-, -, rfl⟩ | ⟨-, -, rfl⟩) | ⟨-, -, rfl⟩) | ⟨-, rfl⟩ <;> decide
    have hdrops : sendsOf solo (movesOf endlessLaunch endlessDrops) = [true, false, true] ∧
        receivedOf solo (movesOf endlessLaunch endlessDrops) = 2 ∧
        ∑ i, (sendsOf i (movesOf endlessLaunch endlessDrops)).length < 2 ^ 64 := by decide +kernel
    have hstatus := mock_status (buildMockCameras_small buildMockCameras_one) (.new sinkNew_default)
      (Prod.ext (smallSink_fst buildMockCameras_one) rfl) hs hsend (fun _ ↦ hdrops.2.2) hmain
    refine ⟨s, 1, hs, hmain, hdrops.1, hdrops.2.1, fun hzero ↦ ?_⟩
    -- one frame is missing between the two
    have hnone := (hstatus.mp hzero).2.2 solo
    change dropsBetween (sendsOf solo (movesOf endlessLaunch endlessDrops))
      (receivedOf solo (movesOf endlessLaunch endlessDrops)) = 0 at hnone
    rw [hdrops.1, hdrops.2.1] at hnone
    exact absurd hnone (by decide)
  · have hrun : (exec (Smoke.step soloLaunch) (.start soloLaunch) soloArrives).map Smoke.main
        = some (.returned .total 0) := by decide +kernel
    obtain ⟨s, hs, hmain⟩ := Option.map_eq_some_iff.mp hrun
    have hsend : ∀ i env, .tick i env ∈ movesOf soloLaunch soloArrives → env.send ≠ .failed := by
      intro i env htick
      have hmem := run_of_mem_movesOf htick
      simp only [soloArrives, soloRun, List.mem_cons, reduceCtorEq, SmokeStep.run.injEq,
        List.not_mem_nil, or_false, false_or, or_self] at hmem
      rw [hmem.2]
      decide
    have harrives : sendsOf solo (movesOf soloLaunch soloArrives) = [true] ∧
        receivedOf solo (movesOf soloLaunch soloArrives) = 1 := by decide +kernel
    refine ⟨s, _, hs, hmain, harrives.1, harrives.2, (mock_status
      (buildMockCameras_small buildMockCameras_one) (.new sinkNew_default)
      (Prod.ext (smallSink_fst buildMockCameras_one) rfl) hs hsend (fun hzero ↦ absurd hzero
        (by decide)) hmain).mpr ⟨by decide, ⟨solo, ?_⟩, ?_⟩⟩
    · change 0 < receivedOf solo (movesOf soloLaunch soloArrives)
      rw [harrives.2]
      decide
    · change ∀ i, dropsBetween (sendsOf i (movesOf soloLaunch soloArrives))
        (receivedOf i (movesOf soloLaunch soloArrives)) = 0
      decide +kernel

end SparseCamera
