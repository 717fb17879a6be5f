import SparseCamera.Camera.Basic
import SparseCamera.Lib.Execution
import SparseCamera.Sink.Run

/-!
# The pipeline

Any number of cameras and one sink. Each camera has a connection of its own to the sink's socket: a
message the connection took stays there, behind those before it, until the sink receives it. The
sink receives from any connection that holds a message, so an execution is any interleaving of
ticks and receives.

## The steps

A step is a `camera_tick` or a `sink_recv`, each with what it meets outside: an answer for the
backend and the fate of the send, or the camera whose message comes first and whether the allocator
serves the sink. A `sink_recv` that finds nothing does not move the pipeline and is no step of it. A
tick the outside world cannot make, such as a wake-up before the deadline, is not enabled.
-/

namespace SparseCamera

open Execution

/-- The cameras, what is on the way from each of them, oldest first, and the sink. -/
structure Pipeline (n : ℕ) (ι : Type) where
  cams : Fin n → CameraCtx ι
  pipes : Fin n → List Bytes
  sink : Sink

section Pipeline

variable {n : ℕ} {ι ε : Type}

/-- One `camera_tick` of camera `i`: its return code and the pipeline afterwards. -/
def Pipeline.tick (backend : Fin n → Backend ι ε) (p : Pipeline n ι) (i : Fin n)
    (env : TickEnv ε) : Option (ℤ × Pipeline n ι) :=
  if (backend i).allowed env.acquire (p.cams i).implCtx = true then
    let (rc, camera, message) := cameraTick (backend i) env (p.cams i)
    some (rc, { p with
      cams := Function.update p.cams i camera
      pipes := Function.update p.pipes i (p.pipes i ++ message.toList) })
  else none

/-- One `sink_recv` that takes a message of camera `i`; `granted` is the allocator's answer should
it be asked. -/
def Pipeline.recv (p : Pipeline n ι) (i : Fin n) (granted : Bool) : Option (ℤ × Pipeline n ι) :=
  match p.pipes i with
  | [] => none
  | msg :: rest =>
    let (rc, sink) := sinkRecv granted p.sink (.message msg)
    some (rc, { p with pipes := Function.update p.pipes i rest, sink := sink })

/-- Who moves. -/
inductive PipelineStep (n : ℕ) (ε : Type) where
  | tick (i : Fin n) (env : TickEnv ε)
  | recv (i : Fin n) (granted : Bool)

def Pipeline.step (backend : Fin n → Backend ι ε) (p : Pipeline n ι) :
    PipelineStep n ε → Option (Pipeline n ι)
  | .tick i env => (p.tick backend i env).map Prod.snd
  | .recv i granted => (p.recv i granted).map Prod.snd

/-! ## What an execution did -/

/-- The ticks of camera `i`, each with whether its message was taken. -/
def sendsOf (i : Fin n) (steps : List (PipelineStep n ε)) : List Bool :=
  steps.filterMap fun
    | .tick j env => if j = i then some (env.send = .sent) else none
    | .recv _ _ => none

/-- How many messages of camera `i` were received. -/
def receivedOf (i : Fin n) (steps : List (PipelineStep n ε)) : ℕ :=
  steps.countP fun
    | .tick _ _ => false
    | .recv j _ => j = i

variable {i j : Fin n} {env : TickEnv ε} {granted : Bool} {steps : List (PipelineStep n ε)}

@[simp] theorem sendsOf_nil : sendsOf i ([] : List (PipelineStep n ε)) = [] := rfl

@[simp] theorem receivedOf_nil : receivedOf i ([] : List (PipelineStep n ε)) = 0 := rfl

theorem sendsOf_append (steps' : List (PipelineStep n ε)) :
    sendsOf i (steps ++ steps') = sendsOf i steps ++ sendsOf i steps' :=
  List.filterMap_append

theorem receivedOf_append (steps' : List (PipelineStep n ε)) :
    receivedOf i (steps ++ steps') = receivedOf i steps + receivedOf i steps' :=
  List.countP_append

theorem sendsOf_tick_cons : sendsOf i (.tick j env :: steps)
    = if j = i then decide (env.send = .sent) :: sendsOf i steps else sendsOf i steps := by
  by_cases hj : j = i
  · simp [sendsOf, hj]
  · simp [sendsOf, hj]

@[simp] theorem sendsOf_recv_cons : sendsOf i (.recv j granted :: steps) = sendsOf i steps := rfl

@[simp] theorem receivedOf_tick_cons :
    receivedOf i (.tick j env :: steps) = receivedOf i steps := rfl

theorem receivedOf_recv_cons : receivedOf i (.recv j granted :: steps)
    = receivedOf i steps + if j = i then 1 else 0 := by
  simp [receivedOf, List.countP_cons]

/-! ## What a step changes

A tick changes one camera and the end of one connection. A receive changes the front of one
connection and the sink. Later modules start from these two equivalences. -/

variable {backend : Fin n → Backend ι ε} {p p' : Pipeline n ι}

theorem Pipeline.step_tick_eq_some : p.step backend (.tick i env) = some p' ↔
    (backend i).allowed env.acquire (p.cams i).implCtx = true ∧
      p' = { p with
        cams := Function.update p.cams i (cameraTick (backend i) env (p.cams i)).2.1
        pipes := Function.update p.pipes i
          (p.pipes i ++ (cameraTick (backend i) env (p.cams i)).2.2.toList) } := by
  rw [step, tick]
  split_ifs with hallowed
  · rw [Option.map_some, Option.some_inj, eq_comm]
    exact (and_iff_right hallowed).symm
  · exact ⟨fun h ↦ absurd h (by simp), fun h ↦ absurd h.1 hallowed⟩

theorem Pipeline.step_recv_eq_some : p.step backend (.recv i granted) = some p' ↔
    ∃ msg rest, p.pipes i = msg :: rest ∧
      p' = { p with
        pipes := Function.update p.pipes i rest
        sink := (sinkRecv granted p.sink (.message msg)).2 } := by
  rw [step, recv]
  cases hpipe : p.pipes i with
  | nil => simp
  | cons msg rest =>
    rw [Option.map_some, Option.some_inj, eq_comm]
    constructor
    · rintro rfl
      exact ⟨msg, rest, rfl, rfl⟩
    · rintro ⟨msg', rest', hcons, rfl⟩
      obtain ⟨rfl, rfl⟩ := List.cons.inj hcons
      rfl

end Pipeline

/-! ## Receiving into a buffer that is wide enough -/

/-- A message that carries a frame the buffer can hold is observed as that frame, whatever the
allocator would have answered, and leaves the buffer as wide as it was. -/
theorem sinkRecv_of_parse (granted : Bool) {sink : Sink} {msg : Bytes} {f : Contents}
    (hsized : sink.decoded.Sized) (hparse : parse msg = some f)
    (hwide : f.support.length ≤ sink.decoded.capacity.toNat) :
    (sinkRecv granted sink (.message msg)).1 = 0 ∧
      (sinkRecv granted sink (.message msg)).2.toLedger = observe sink.toLedger (some f) ∧
      (sinkRecv granted sink (.message msg)).2.decoded.Sized ∧
      (sinkRecv granted sink (.message msg)).2.decoded.capacity = sink.decoded.capacity := by
  have hcount : ¬sink.decoded.capacity < (FrameWireHeader.ofBytes msg).count := by
    have hcontents : f = messageContents msg := by
      rw [parse] at hparse
      split_ifs at hparse
      exact (Option.some.inj hparse).symm
    rw [hcontents, length_support_messageContents] at hwide
    exact UInt32.not_lt.mpr (UInt32.le_iff_toNat_le.mpr hwide)
  obtain ⟨houtcome, hsized', hcap⟩ := sinkDecode_eq granted msg hsized
  have hdecode : decodeOutcome sink.decoded.capacity granted msg = some f := by
    rw [decodeOutcome, if_neg fun h ↦ hcount h.2, hparse]
  rw [decodeCapacity, if_neg fun h ↦ hcount h.2.2] at hcap
  refine ⟨rfl, ?_, hsized', hcap⟩
  rw [← hdecode, ← houtcome]
  rfl

end SparseCamera
