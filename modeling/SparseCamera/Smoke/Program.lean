import SparseCamera.Smoke.Invariant
import SparseCamera.Smoke.Started
import SparseCamera.Smoke.Stopping

/-!
# Runs of the program

What `main` has built when it gets to the threads is a smoke test that can be launched, whatever
kinds of cameras the configuration asks for. A run of the program either ends in the start or goes
on with an execution of that test.

At every moment of a run everything that is held has what it needs: no camera is given back while
its thread is at work, no context while a camera is built on it, no socket context while it has
sockets, and the store that the contexts point into goes last. When `main` returns nothing is held.

## The invariant

What is held while the test runs is known from the state: the resources of the start, and a thread
for each one that was created and not joined (`Started.holding`). A step of the test acquires or
releases accordingly. That a thread needs its camera is why the threads are joined before the
cameras are given back, and `main` does not get to the release before every thread has ended.
-/

namespace SparseCamera

open CString Execution Resources

/-! ## The launch

A launch has cameras of all kinds, each with an id of its own, fresh counters and a spec in the
table of the sink. All of this is read off `Started.Good`. -/

section Launch

variable {start : Started}

theorem Started.Good.madeAt (h : start.Good) (i : Fin start.built.specs.length) :
    ∃ sec entry, start.built.cams[(i : ℕ)]? = some entry ∧
      MadeFrom start.ini start.conf sec (entry, start.built.specs.get i) := by
  obtain ⟨sections, hbuild⟩ := h.built
  obtain ⟨built, hmade⟩ := made_buildCameras hbuild
  have hlen : start.built.specs.length = built.length := by
    rw [hmade.specs, List.length_map]
  have hi : (i : ℕ) < built.length := hlen ▸ i.isLt
  have hcam : start.built.cams[(i : ℕ)]? = some (built.get ⟨i, hi⟩).1 := by
    rw [hmade.cams, List.getElem?_append_left (by rwa [List.length_map]), List.getElem?_map,
      List.getElem?_eq_getElem hi]
    rfl
  have hspec : start.built.specs.get i = (built.get ⟨i, hi⟩).2 := by
    have hsame := congrArg (·[(i : ℕ)]?) hmade.specs
    simp only [List.getElem?_map, List.getElem?_eq_getElem hi,
      List.getElem?_eq_getElem i.isLt, Option.map_some, Option.some_inj] at hsame
    exact hsame
  obtain ⟨sec, -, hfrom⟩ :=
    exists_of_mem_right hmade.sections (List.get_mem built ⟨i, hi⟩)
  exact ⟨sec, _, hcam, hspec ▸ hfrom⟩

/-- **The cameras of the table** agree with the specs the sink has of them. -/
theorem Started.Good.cameraAt (h : start.Good) (i : Fin start.built.specs.length) :
    ∃ camera, start.built.cameraAt i = some camera ∧
      AnyFits (start.built.specs.get i) camera.state ∧
      .startUp (.camera camera.handle) ∈ entryResources start.entries := by
  obtain ⟨sec, entry, hcam, hmade⟩ := h.madeAt i
  obtain ⟨b, camera, hfrom⟩ := hmade.builtFrom h.wellFormed
  obtain ⟨j, impl, hattached⟩ := hfrom.attached
  refine ⟨⟨j, camera.toCameraCtx.toAny⟩, ?_, ⟨b, _, rfl, hfrom.fits⟩, ?_⟩
  · rw [StartUp.cameraAt, hcam, Option.bind_some, hattached]
    rfl
  · -- the entry is one of those in use
    have hentry : entry ∈ start.entries := by
      rw [Started.entries, List.mem_iff_getElem?]
      exact ⟨i, by rw [List.getElem?_take_of_lt i.isLt, hcam]⟩
    refine List.mem_map_of_mem (List.mem_flatMap.mpr ⟨_, hentry, ?_⟩)
    rw [CamEntry.resources, hattached]
    simp

theorem Started.Good.isSome (h : start.Good) (i : Fin start.built.specs.length) :
    (start.built.cameraAt i).isSome = true := by
  obtain ⟨camera, hcamera, -⟩ := h.cameraAt i
  exact Option.isSome_iff_exists.mpr ⟨camera, hcamera⟩

theorem Started.Good.fits (h : start.Good) (i : Fin start.built.specs.length) :
    AnyFits (start.built.specs.get i) ((start.built.cameraAt i).get (h.isSome i)).state := by
  obtain ⟨camera, hcamera, hfits, -⟩ := h.cameraAt i
  simpa [hcamera] using hfits

theorem Started.Good.handle (h : start.Good) (i : Fin start.built.specs.length) :
    .startUp (.camera (start.handle i)) ∈ entryResources start.entries := by
  obtain ⟨camera, hcamera, -, hmem⟩ := h.cameraAt i
  rw [Started.handle, hcamera]
  exact hmem

theorem Started.Good.fresh (h : start.Good) : start.sink.toSink.Fresh := by
  obtain ⟨sink, granted, hnew, hexpect⟩ := h.sink
  exact (Opened.expect (.new hnew) hexpect).fresh

theorem Started.Good.few (h : start.Good) : start.built.specs.length ≤ sinkMaxCameras := by
  obtain ⟨sections, hbuild⟩ := h.built
  obtain ⟨built, hmade⟩ := made_buildCameras hbuild
  rw [hmade.specs, List.length_map]
  exact hmade.few

def Started.launch (start : Started) (h : start.Good) :
    Launch start.built.specs.length AnyImpl AnyEnv where
  backend _ := anyBackend
  cams i := ((start.built.cameraAt i).get (h.isSome i)).state
  sink := start.sink.toSink
  frames := start.conf.frames
  timeoutS := start.conf.timeoutS
  few := h.few
  fills _ := fills_anyBackend
  ready i := (h.fits i).ready
  fresh := h.fresh

end Launch

section Held

variable {n : ℕ} {ι ε : Type} {start : Started} {launch : Launch n ι ε} {s s' : Smoke n ι}
  {l : SmokeStep n ε}

private theorem status_polled (s : Smoke n ι) (rc : ℤ) : (s.polled launch rc).status = none := by
  rcases s.polled_cases launch rc with ⟨-, heq⟩ | ⟨-, -, -, heq⟩ | ⟨-, heq⟩
  · rw [heq]
    rfl
  · rw [heq]
    rfl
  · rw [heq]
    rfl

end Held

section Runs

variable {env : MainEnv} {log : List (Use MainResource)} {status : Option ℤ} {start : Started}

/-- The status is settled when `main` returns. -/
theorem returned_exec {n : ℕ} {ι ε : Type} {launch : Launch n ι ε} {steps : List (SmokeStep n ε)}
    {s : Smoke n ι} (hexec : exec (Smoke.step launch) (.start launch) steps = some s)
    {why : ExitReason} {status : ℤ} (hmain : s.main = .returned why status) :
    status = if why = .deadline then 1 else sinkReport s.sink.toLedger := by
  suffices ∀ why status, s.main = .returned why status →
      status = if why = .deadline then 1 else sinkReport s.sink.toLedger from this why status hmain
  refine invariant (I := fun _ t ↦ ∀ why status, t.main = .returned why status →
    status = if why = .deadline then 1 else sinkReport t.sink.toLedger) ?_ ?_ hexec
  · rintro why status ⟨⟩
  · intro ls t l t' _ ih hstep
    have hmoves := Smoke.moves_of_step hstep
    generalize t.event launch l = e at hmoves
    have hnone (h : t'.status = none) (why : ExitReason) (status : ℤ)
        (hmain : t'.main = .returned why status) :
        status = if why = .deadline then 1 else sinkReport t'.sink.toLedger := by
      rw [Smoke.status, hmain] at h
      cases h
    cases hmoves with
    | enter | finish | tick | store | tally | sigint => exact ih
    | recv | silence | fault => exact hnone (status_polled _ _)
    | joined hjoin hdone =>
      rintro why status ⟨⟩
      rfl
    | _ => exact hnone rfl

end Runs

theorem mainStart_of_isSome {env : MainEnv} (h : (mainStart env).1.toOption.isSome = true) :
    mainStart env = (.ok ((mainStart env).1.toOption.get h), (mainStart env).2) := by
  have hsome : (mainStart env).1.toOption = some ((mainStart env).1.toOption.get h) :=
    (Option.some_get _).symm
  refine Prod.ext ?_ rfl
  generalize (mainStart env).1.toOption.get h = start at hsome
  generalize (mainStart env).1 = result at hsome
  cases result with
  | error err => cases hsome
  | ok start => rw [Option.some.inj hsome]

/-! ## A mock camera and a webcam -/

def twoKindsFile : Bytes :=
  ascii "[sink]\nframes = 1\n[cam.a]\nbackend = mock\ngrid = 1x1\n[cam.b]\nbackend = v4l2\nid = 1\n"

/-- The file is there and nothing fails. -/
def twoKindsEnv : MainEnv where
  argv := none
  fopen _ := .ok twoKindsFile
  ini := true
  sink := ⟨true, true, true, true, true⟩
  zmqCtx := true
  sections := allGranted
  expect := true

private theorem isSome_twoKinds :
    (mainStart twoKindsEnv).1.toOption.isSome = true := by decide +kernel

def twoKindsStart : Started := (mainStart twoKindsEnv).1.toOption.get isSome_twoKinds

private theorem mainStart_twoKinds :
    mainStart twoKindsEnv = (.ok twoKindsStart, (mainStart twoKindsEnv).2) :=
  mainStart_of_isSome isSome_twoKinds

theorem good_twoKinds : twoKindsStart.Good :=
  ((leaves_mainStart twoKindsEnv).2 twoKindsStart (congrArg Prod.fst mainStart_twoKinds)).1

def twoKindsLaunch := twoKindsStart.launch good_twoKinds

def twoKindsFirst : Fin twoKindsStart.built.specs.length := ⟨0, by decide +kernel⟩

def twoKindsSecond : Fin twoKindsStart.built.specs.length := ⟨1, by decide +kernel⟩

/-- The mock camera is due, and the webcam has nothing. -/
def twoKindsTick : TickEnv AnyEnv where
  acquire
    | .mock => (500000000 : Int64)
    | .v4l2 => (⟨.timeout, .again, [], true⟩ : V4l2AcquireEnv)
  stamp := 7
  send := .sent

/-- One turn of the drain loop, up to the clock. -/
def twoKindsTurn (poll : SmokeStep twoKindsStart.built.specs.length AnyEnv) :
    List (SmokeStep twoKindsStart.built.specs.length AnyEnv) :=
  [.main, poll, .main, .main, .main]

/-- Each camera makes its attempt, the frame of the first is received, and then it is quiet. -/
def twoKindsSteps : List (SmokeStep twoKindsStart.built.specs.length AnyEnv) :=
  [.spawn true, .spawn true, .main] ++ List.replicate 4 (.run twoKindsFirst twoKindsTick) ++
    List.replicate 4 (.run twoKindsSecond twoKindsTick) ++
    twoKindsTurn (.recv twoKindsFirst true) ++ [.clock false] ++
    twoKindsTurn (.socket .nothing) ++ [.clock false] ++ twoKindsTurn (.socket .nothing) ++ [.main]

theorem exec_twoKinds : (exec (Smoke.step twoKindsLaunch) (.start twoKindsLaunch)
    twoKindsSteps).map Smoke.main = some (.returned .quiet 0) := by decide +kernel

end SparseCamera
