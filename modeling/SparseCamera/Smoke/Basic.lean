import SparseCamera.Pipeline.Basic

/-!
# The smoke test

`main` starts one thread for each camera and drains the sink until it has what it wants, until the
cameras are done and the socket is quiet, or until time is up. The threads and `main` share the
cameras' progress, the socket and the stop flag; every step here reads or writes one of them, so an
execution is any interleaving the scheduler can produce.

Printing is left out, and so is what `main` does before the first thread is created: what that
leaves behind is a `Launch`.

## The steps

Whatever one thread does between two accesses to something shared is one step. A camera thread is at
its loop condition, in its tick, or about to count it; `main` creates threads, tests its condition,
polls, looks at the clock, looks at one camera after the other, joins. The scheduler picks who
moves, and a step that waits for something outside carries what came: an event of the socket, the
verdict of the clock, the answer to a tick.

A step that is not enabled is `none`. `Smoke.Moves` has a constructor for each way a step can go,
and every invariant is proved by cases on it.
-/

namespace SparseCamera

/-- Where a camera thread is in `cam_run`. -/
inductive ThreadPhase where
  /-- Not created. -/
  | idle
  /-- At the condition of the loop. -/
  | loop
  /-- About to call `camera_tick`. -/
  | tick
  /-- `camera_tick` failed, the code is about to be stored. -/
  | fail (rc : ℤ)
  /-- `camera_tick` did not fail, the attempt is about to be counted. -/
  | count
  /-- Returned. -/
  | done
deriving DecidableEq

/-- `cam_thread_t` without the camera, which is kept in the pipeline, and its backend. -/
structure CamThread where
  want : UInt64
  ticks : UInt64
  rc : ℤ
  started : Bool
  phase : ThreadPhase
deriving DecidableEq

/-- Why `main` left the drain loop. -/
inductive ExitReason where
  /-- The stop flag was set. -/
  | stop
  /-- `sink_recv` failed. -/
  | fault
  /-- Everything that was wanted has been received. -/
  | total
  /-- No camera is producing and the socket is quiet. -/
  | quiet
  /-- Time is up. -/
  | deadline
deriving DecidableEq

/-- Where `main` is. -/
inductive MainPhase where
  /-- About to create thread `k`. -/
  | spawn (k : ℕ)
  /-- At the condition of the drain loop. -/
  | loop
  /-- About to call `sink_recv`. -/
  | poll
  /-- About to read the progress of camera `k`; none before it is producing. -/
  | scan (k : ℕ)
  /-- About to read the clock. -/
  | clock
  /-- Waiting for the threads. -/
  | join (why : ExitReason)
  | returned (why : ExitReason) (status : ℤ)
deriving DecidableEq

/-- What `main` has built when it creates the first thread. -/
structure Launch (n : ℕ) (ι ε : Type) where
  backend : Fin n → Backend ι ε
  cams : Fin n → CameraCtx ι
  sink : Sink
  /-- Frames per camera; 0 runs until the stop flag is set. -/
  frames : UInt32
  /-- Seconds until time is up; 0 is no limit. -/
  timeoutS : UInt32
  few : n ≤ sinkMaxCameras
  fills : ∀ i, (backend i).Fills
  ready : ∀ i, (cams i).Ready
  fresh : sink.Fresh

/-- The pipeline, the threads and `main`. -/
structure Smoke (n : ℕ) (ι : Type) extends Pipeline n ι where
  threads : Fin n → CamThread
  gStop : Bool
  /-- How often in a row `sink_recv` had nothing; an `int` in the source. -/
  quiet : ℕ
  main : MainPhase

section Smoke

variable {n : ℕ} {ι ε : Type}

/-- `want_total`. -/
def Launch.wantTotal (launch : Launch n ι ε) : UInt64 := launch.frames.toUInt64 * UInt64.ofNat n

def Smoke.start (launch : Launch n ι ε) : Smoke n ι where
  cams := launch.cams
  pipes _ := []
  sink := launch.sink
  threads _ :=
    { want := launch.frames.toUInt64, ticks := 0, rc := 0, started := false, phase := .idle }
  gStop := false
  quiet := 0
  main := .spawn 0

/-! ## The threads -/

def Smoke.setThread (s : Smoke n ι) (i : Fin n) (ct : CamThread) : Smoke n ι :=
  { s with threads := Function.update s.threads i ct }

/-- The next step of `cam_run` in thread `i`; `env` is what a tick gets from outside. -/
def Smoke.camRun (launch : Launch n ι ε) (s : Smoke n ι) (i : Fin n) (env : TickEnv ε) :
    Option (Smoke n ι) :=
  let ct := s.threads i
  match ct.phase with
  | .idle => none
  | .loop =>
    if s.gStop = false ∧ (ct.want = 0 ∨ ct.ticks < ct.want) then
      some (s.setThread i { ct with phase := .tick })
    else some (s.setThread i { ct with phase := .done })
  | .tick =>
    (s.toPipeline.tick launch.backend i env).map fun (rc, p) ↦
      { s with toPipeline := p }.setThread i
        { ct with phase := if rc < 0 then .fail rc else .count }
  | .fail rc => some (s.setThread i { ct with rc := rc, phase := .done })
  | .count => some (s.setThread i { ct with ticks := ct.ticks + 1, phase := .loop })
  | .done => none

/-! ## The drain loop

The source reads the progress of the cameras one by one while they go on. Each look is a step of its
own here, and a thread can move between two of them. -/

/-- `producing`, as `main` reads it for one camera. -/
def CamThread.producing (ct : CamThread) : Bool :=
  ct.started && ct.rc == 0 && (ct.want == 0 || ct.ticks < ct.want)

/-- Leaving the loop sets the stop flag. -/
def Smoke.leave (s : Smoke n ι) (why : ExitReason) : Smoke n ι :=
  { s with gStop := true, main := .join why }

/-- What `main` does with the result of `sink_recv`, up to the scan of the cameras. -/
def Smoke.polled (launch : Launch n ι ε) (s : Smoke n ι) (rc : ℤ) : Smoke n ι :=
  if rc < 0 then s.leave .fault
  else
    let s := { s with quiet := if rc = 1 then s.quiet + 1 else 0 }
    if launch.wantTotal ≠ 0 ∧ launch.wantTotal ≤ s.sink.stats.received then s.leave .total
    else { s with main := .scan 0 }

/-- The next step of `main` where it does not touch the socket or the clock. -/
def Smoke.mainStep (s : Smoke n ι) : Option (Smoke n ι) :=
  match s.main with
  | .spawn k => if k < n then none else some { s with main := .loop }
  | .loop => if s.gStop then some (s.leave .stop) else some { s with main := .poll }
  | .scan k =>
    if h : k < n then
      if (s.threads ⟨k, h⟩).producing then some { s with main := .clock }
      else some { s with main := .scan (k + 1) }
    else if 2 ≤ s.quiet then some (s.leave .quiet)
    else some { s with main := .clock }
  | .join why =>
    if ∀ i, (s.threads i).started = true → (s.threads i).phase = .done then
      some { s with
        main := .returned why (if why = .deadline then 1 else sinkReport s.sink.toLedger) }
    else none
  | _ => none

/-- `pthread_create` for the next camera. If it fails no more are created. -/
def Smoke.spawn (s : Smoke n ι) (created : Bool) : Option (Smoke n ι) :=
  match s.main with
  | .spawn k =>
    if h : k < n then
      if created then
        some { s.setThread ⟨k, h⟩ { s.threads ⟨k, h⟩ with started := true, phase := .loop } with
          main := .spawn (k + 1) }
      else some { s with gStop := true, main := .loop }
    else none
  | _ => none

/-- Who moves. -/
inductive SmokeStep (n : ℕ) (ε : Type) where
  | spawn (created : Bool)
  /-- Thread `i`. -/
  | run (i : Fin n) (env : TickEnv ε)
  /-- `main` receives a message of camera `i`. -/
  | recv (i : Fin n) (granted : Bool)
  /-- `sink_recv` returns without a message. -/
  | socket (event : SocketEvent)
  /-- `main` moves on. -/
  | main
  /-- `main` reads the clock. -/
  | clock (late : Bool)
  | sigint

/-- The socket waits as long as it has a message to deliver, unless a signal interrupts it. -/
def Smoke.canReturn (s : Smoke n ι) : SocketEvent → Bool
  | .nothing => s.gStop || decide (∀ i, s.pipes i = [])
  | .message _ => false
  | .pollFailed | .recvFailed => true

def Smoke.step (launch : Launch n ι ε) (s : Smoke n ι) : SmokeStep n ε → Option (Smoke n ι)
  | .spawn created => s.spawn created
  | .run i env => s.camRun launch i env
  | .recv i granted =>
    if s.main = .poll then
      (s.toPipeline.recv i granted).map fun (rc, p) ↦
        { s with toPipeline := p }.polled launch rc
    else none
  | .socket event =>
    if s.main = .poll ∧ s.canReturn event = true then
      let (rc, sink) := sinkRecv true s.sink event
      some ({ s with sink := sink }.polled launch rc)
    else none
  | .main => s.mainStep
  | .clock late =>
    if s.main = .clock then
      if late = true ∧ launch.timeoutS ≠ 0 then some (s.leave .deadline)
      else some { s with main := .loop }
    else none
  | .sigint => some { s with gStop := true }

/-! ## What an execution did

The invariants are about what happened and not about who was scheduled. Ticks and receives are the
events, and most steps are none. -/

/-- What happened at the cameras and at the sink. -/
inductive SmokeEvent (n : ℕ) where
  /-- A `camera_tick`: whether the backend acquired a frame, and whether its message was taken. -/
  | tick (i : Fin n) (acquired sent : Bool)
  /-- A `sink_recv` and the message it received. -/
  | recv (taken : Option (Fin n × Bytes))
deriving DecidableEq

def Smoke.event (launch : Launch n ι ε) (s : Smoke n ι) : SmokeStep n ε → Option (SmokeEvent n)
  | .run i env =>
    let camera := s.cams i
    if (s.threads i).phase = .tick then
      some (.tick i (camera.acquires (launch.backend i) env)
        (cameraTick (launch.backend i) env camera).2.2.isSome)
    else none
  | .recv i _ => (s.pipes i).head?.map fun msg ↦ .recv (some (i, msg))
  | .socket _ => some (.recv none)
  | _ => none

/-! ## Inside and outside the drain loop -/

/-- `main` is between the condition of the loop and the end of its body. -/
def Smoke.Inside (s : Smoke n ι) : Prop := s.main = .poll ∨ s.main = .clock ∨ ∃ k, s.main = .scan k

/-- `main` left the loop for this reason, some time ago or just now. -/
def Smoke.LeftBy (s : Smoke n ι) (why : ExitReason) : Prop :=
  s.main = .join why ∨ ∃ status, s.main = .returned why status

@[simp] theorem leftBy_leave (s : Smoke n ι) (why why' : ExitReason) :
    (s.leave why).LeftBy why' ↔ why = why' := by
  simp [Smoke.leave, Smoke.LeftBy]

@[simp] theorem not_inside_leave (s : Smoke n ι) (why : ExitReason) : ¬(s.leave why).Inside := by
  simp [Smoke.leave, Smoke.Inside]

/-- After `sink_recv`, `main` leaves because of an error or because it has everything, or goes on to
the cameras. -/
theorem Smoke.polled_cases (launch : Launch n ι ε) (s : Smoke n ι) (rc : ℤ) :
    (rc < 0 ∧ s.polled launch rc = s.leave .fault) ∨
    (0 ≤ rc ∧ launch.wantTotal ≠ 0 ∧ launch.wantTotal ≤ s.sink.stats.received ∧
      s.polled launch rc = { s with quiet := if rc = 1 then s.quiet + 1 else 0 }.leave .total) ∨
    (0 ≤ rc ∧ s.polled launch rc
      = { s with quiet := if rc = 1 then s.quiet + 1 else 0, main := .scan 0 }) := by
  by_cases hrc : rc < 0
  · exact Or.inl ⟨hrc, if_pos hrc⟩
  · by_cases htotal : launch.wantTotal ≠ 0 ∧ launch.wantTotal ≤ s.sink.stats.received
    · refine Or.inr (Or.inl ⟨not_lt.mp hrc, htotal.1, htotal.2, ?_⟩)
      rw [polled, if_neg hrc]
      exact if_pos htotal
    · refine Or.inr (Or.inr ⟨not_lt.mp hrc, ?_⟩)
      rw [polled, if_neg hrc]
      exact if_neg htotal

/-! ## Case by case

The inversion of `Smoke.step`: who moved, what is known of the state before, and what the state is
afterwards. Nothing about a step is left out. -/

/-- What a step does and what happens at the cameras and at the sink, one rule for each way it can
go. -/
inductive Smoke.Moves (launch : Launch n ι ε) (s : Smoke n ι) :
    SmokeStep n ε → Option (SmokeEvent n) → Smoke n ι → Prop where
  | created {k : ℕ} (hmain : s.main = .spawn k) (hk : k < n) :
    Moves launch s (.spawn true) none
      { s.setThread ⟨k, hk⟩ { s.threads ⟨k, hk⟩ with started := true, phase := .loop } with
        main := .spawn (k + 1) }
  | notCreated {k : ℕ} (hmain : s.main = .spawn k) (hk : k < n) :
    Moves launch s (.spawn false) none { s with gStop := true, main := .loop }
  | enter {i : Fin n} {env : TickEnv ε} (hphase : (s.threads i).phase = .loop)
      (hmore : (s.threads i).want = 0 ∨ (s.threads i).ticks < (s.threads i).want) :
    Moves launch s (.run i env) none (s.setThread i { s.threads i with phase := .tick })
  | finish {i : Fin n} {env : TickEnv ε} (hphase : (s.threads i).phase = .loop) :
    Moves launch s (.run i env) none (s.setThread i { s.threads i with phase := .done })
  | tick {i : Fin n} {env : TickEnv ε} {rc : ℤ} {camera : CameraCtx ι} {message : Option Bytes}
      (hphase : (s.threads i).phase = .tick)
      (htick : cameraTick (launch.backend i) env (s.cams i) = (rc, camera, message)) :
    Moves launch s (.run i env)
      (some (.tick i ((s.cams i).acquires (launch.backend i) env) message.isSome))
      ({ s with
        cams := Function.update s.cams i camera
        pipes := Function.update s.pipes i (s.pipes i ++ message.toList) }.setThread i
          { s.threads i with phase := if rc < 0 then .fail rc else .count })
  | store {i : Fin n} {env : TickEnv ε} {rc : ℤ} (hphase : (s.threads i).phase = .fail rc) :
    Moves launch s (.run i env) none (s.setThread i { s.threads i with rc := rc, phase := .done })
  | tally {i : Fin n} {env : TickEnv ε} (hphase : (s.threads i).phase = .count) :
    Moves launch s (.run i env) none
      (s.setThread i { s.threads i with ticks := (s.threads i).ticks + 1, phase := .loop })
  | recv {i : Fin n} {granted : Bool} {msg : Bytes} {rest : List Bytes} (hmain : s.main = .poll)
      (hpipe : s.pipes i = msg :: rest) :
    Moves launch s (.recv i granted) (some (.recv (some (i, msg))))
      ({ s with
        pipes := Function.update s.pipes i rest
        sink := (sinkRecv granted s.sink (.message msg)).2 }.polled launch 0)
  | silence (hmain : s.main = .poll) (hempty : s.gStop = true ∨ ∀ i, s.pipes i = []) :
    Moves launch s (.socket .nothing) (some (.recv none)) (s.polled launch 1)
  | fault {event : SocketEvent} {rc : ℤ} (hmain : s.main = .poll) (hrc : rc < 0) :
    Moves launch s (.socket event) (some (.recv none)) (s.polled launch rc)
  | started {k : ℕ} (hmain : s.main = .spawn k) (hk : n ≤ k) :
    Moves launch s .main none { s with main := .loop }
  | stop (hmain : s.main = .loop) (hstop : s.gStop = true) :
    Moves launch s .main none (s.leave .stop)
  | poll (hmain : s.main = .loop) (hstop : s.gStop = false) :
    Moves launch s .main none { s with main := .poll }
  | producing {k : ℕ} (hmain : s.main = .scan k) :
    Moves launch s .main none { s with main := .clock }
  | idle {k : ℕ} (hmain : s.main = .scan k) (hk : k < n)
      (hidle : (s.threads ⟨k, hk⟩).producing = false) :
    Moves launch s .main none { s with main := .scan (k + 1) }
  | quiet {k : ℕ} (hmain : s.main = .scan k) (hk : n ≤ k) (hquiet : 2 ≤ s.quiet) :
    Moves launch s .main none (s.leave .quiet)
  | joined {why : ExitReason} (hmain : s.main = .join why)
      (hdone : ∀ i, (s.threads i).started = true → (s.threads i).phase = .done) :
    Moves launch s .main none { s with
      main := .returned why (if why = .deadline then 1 else sinkReport s.sink.toLedger) }
  | late (hmain : s.main = .clock) : Moves launch s (.clock true) none (s.leave .deadline)
  | early {late : Bool} (hmain : s.main = .clock) :
    Moves launch s (.clock late) none { s with main := .loop }
  | sigint : Moves launch s .sigint none { s with gStop := true }

theorem Smoke.moves_of_spawn {launch : Launch n ι ε} {s s' : Smoke n ι} {created : Bool}
    (h : s.spawn created = some s') : s.Moves launch (.spawn created) none s' := by
  rw [spawn] at h
  split at h
  · next k hmain =>
    split_ifs at h with hk hcreated
    · obtain rfl := Option.some.inj h
      obtain rfl := hcreated
      exact .created hmain hk
    · obtain rfl := Option.some.inj h
      obtain rfl := Bool.not_eq_true _ ▸ hcreated
      exact .notCreated hmain hk
  · cases h

theorem Smoke.moves_of_camRun {launch : Launch n ι ε} {s s' : Smoke n ι} {i : Fin n}
    {env : TickEnv ε} (h : s.camRun launch i env = some s') :
    s.Moves launch (.run i env) (s.event launch (.run i env)) s' := by
  rw [camRun] at h
  simp only [event]
  split at h
  · cases h
  · next hphase =>
    rw [if_neg (by simp [hphase])]
    split_ifs at h with hmore
    · obtain rfl := Option.some.inj h
      exact .enter hphase hmore.2
    · obtain rfl := Option.some.inj h
      exact .finish hphase
  · next hphase =>
    rw [if_pos hphase]
    obtain ⟨⟨rc, p⟩, htick, rfl⟩ := Option.map_eq_some_iff.mp h
    rw [Pipeline.tick] at htick
    split_ifs at htick
    obtain ⟨rfl, rfl⟩ := Prod.mk.inj (Option.some.inj htick)
    exact .tick hphase rfl
  · next rc hphase =>
    rw [if_neg (by simp [hphase])]
    obtain rfl := Option.some.inj h
    exact .store hphase
  · next hphase =>
    rw [if_neg (by simp [hphase])]
    obtain rfl := Option.some.inj h
    exact .tally hphase
  · cases h

theorem Smoke.moves_of_mainStep {launch : Launch n ι ε} {s s' : Smoke n ι}
    (h : s.mainStep = some s') : s.Moves launch .main none s' := by
  rw [mainStep] at h
  split at h
  · next k hmain =>
    split_ifs at h with hk
    obtain rfl := Option.some.inj h
    exact .started hmain (not_lt.mp hk)
  · next hmain =>
    split_ifs at h with hstop
    · obtain rfl := Option.some.inj h
      exact .stop hmain hstop
    · obtain rfl := Option.some.inj h
      exact .poll hmain (Bool.eq_false_iff.mpr hstop)
  · next k hmain =>
    split_ifs at h with hk hproducing hquiet
    · obtain rfl := Option.some.inj h
      exact .producing hmain
    · obtain rfl := Option.some.inj h
      exact .idle hmain hk (Bool.eq_false_iff.mpr hproducing)
    · obtain rfl := Option.some.inj h
      exact .quiet hmain (not_lt.mp hk) hquiet
    · obtain rfl := Option.some.inj h
      exact .producing hmain
  · next why hmain =>
    by_cases hdone : ∀ i, (s.threads i).started = true → (s.threads i).phase = .done
    · rw [if_pos hdone] at h
      obtain rfl := Option.some.inj h
      exact .joined hmain hdone
    · rw [if_neg hdone] at h
      cases h
  · cases h

/-- Every step goes one of these ways. -/
theorem Smoke.moves_of_step {launch : Launch n ι ε} {s s' : Smoke n ι} {l : SmokeStep n ε}
    (h : s.step launch l = some s') : s.Moves launch l (s.event launch l) s' := by
  cases l with
  | spawn created => exact moves_of_spawn h
  | run i env => exact moves_of_camRun h
  | recv i granted =>
    simp only [step, Pipeline.recv] at h
    split_ifs at h with hmain
    cases hpipe : s.pipes i with
    | nil => simp [hpipe] at h
    | cons msg rest =>
      simp only [hpipe, Option.map_some, Option.some_inj] at h
      obtain rfl := h
      simp only [event, hpipe, List.head?_cons, Option.map_some]
      exact .recv hmain hpipe
  | socket event =>
    simp only [step] at h
    split_ifs at h with hsocket
    obtain ⟨hmain, hreturn⟩ := hsocket
    obtain rfl := Option.some.inj h
    cases event with
    | nothing =>
      refine .silence hmain ?_
      simpa [canReturn] using hreturn
    | pollFailed => exact .fault hmain (show (-2 : ℤ) < 0 by decide)
    | recvFailed => exact .fault hmain (show (-3 : ℤ) < 0 by decide)
    | message msg => cases hreturn
  | main => exact moves_of_mainStep h
  | clock late =>
    simp only [step] at h
    split_ifs at h with hmain hlate
    · obtain rfl := Option.some.inj h
      obtain ⟨rfl, -⟩ := hlate
      exact .late hmain
    · obtain rfl := Option.some.inj h
      exact .early hmain
  | sigint =>
    obtain rfl := Option.some.inj h
    exact .sigint

end Smoke

end SparseCamera
