import SparseCamera.Lib.Simulation
import SparseCamera.Pipeline.Basic

/-!
# The pipeline without a wire

Between a camera and the sink's checks a frame is packed into a scratch buffer, sent as bytes,
unpacked into a decode buffer and only then looked at. Here is the pipeline as it is meant: a camera
hands over what its backend left in the frame, and the sink checks that. If the cameras' frames are
no wider than the decode buffer, the two are the same. They can make the same moves, and after the
same moves the cameras, what is on the way and the ledger of the sink agree.

## The construction

The pipeline without a wire takes the same steps, so the two are compared by a function from one
state to the other that forgets the scratch buffers and parses what is on the way. It commutes with
every step of a `Wide` pipeline, and the steps keep the pipeline wide (`exec_map`).
-/

namespace SparseCamera

open Execution Memory

/-! ## Cameras

A frame is handed over instead of the message it is packed into. What the sink parses out of the
message is the live part of that frame, so nothing else of it can matter. -/

/-- `struct camera_ctx` without what it needs to send. -/
structure Producer (ι : Type) where
  frame : Frame
  cameraId : UInt32
  sent : UInt64
  dropped : UInt64
  implCtx : ι

variable {n : ℕ} {ι ε : Type}

def CameraCtx.producer (camera : CameraCtx ι) : Producer ι where
  frame := camera.frame
  cameraId := camera.cameraId
  sent := camera.sent
  dropped := camera.dropped
  implCtx := camera.implCtx

/-- One tick that hands over the frame itself. -/
def Producer.tick (backend : Backend ι ε) (env : TickEnv ε) (producer : Producer ι) :
    ℤ × Producer ι × Option Contents :=
  let frame := { frameReset producer.frame with cameraId := producer.cameraId }
  let (rc, frame, implCtx) := backend.acquire env.acquire producer.implCtx frame
  let producer := { producer with frame := frame, implCtx := implCtx }
  if rc ≠ 0 then (rc, producer, none)
  else
    let frame := stampedFrame env.stamp frame
    let producer := { producer with frame := frame }
    if frame.capacity < frame.count then (-2, producer, none)
    else
      match env.send with
      | .failed => (-3, producer, none)
      | .again => (1, { producer with dropped := producer.dropped + 1 }, none)
      | .sent => (0, { producer with sent := producer.sent + 1 }, some frame.contents)

section Tick

variable {backend : Backend ι ε} {env : TickEnv ε} {camera : CameraCtx ι}

/-- **A tick without a wire**, of which packing and parsing leave nothing to be seen. A message that
was sent parses, and as a frame no wider than the camera's. -/
theorem producer_cameraTick (hfills : backend.Fills) (hready : camera.Ready) :
    ((cameraTick backend env camera).1, (cameraTick backend env camera).2.1.producer,
        (cameraTick backend env camera).2.2.bind parse) = camera.producer.tick backend env ∧
      (cameraTick backend env camera).2.1.frame.capacity = camera.frame.capacity ∧
      ∀ msg ∈ (cameraTick backend env camera).2.2, ∃ f, parse msg = some f ∧
        f.support.length ≤ camera.frame.capacity.toNat := by
  have hreset : Frame.Sized { frameReset camera.frame with cameraId := camera.cameraId } :=
    ⟨hready.sized.support, hready.sized.signal⟩
  obtain ⟨hsized, hcap, -⟩ := @hfills.frame env.acquire camera.implCtx _ hreset
  cases hacquire : backend.acquire env.acquire camera.implCtx
    { frameReset camera.frame with cameraId := camera.cameraId } with
  | mk rc rest =>
  obtain ⟨frame, implCtx⟩ := rest
  rw [hacquire] at hsized hcap
  have hcap : frame.capacity = camera.frame.capacity := hcap
  have hfold : (if frame.tNs = 0 then timestampFrame env.stamp frame else frame)
      = stampedFrame env.stamp frame := rfl
  simp only [cameraTick, Producer.tick, CameraCtx.producer, hacquire, hfold]
  by_cases hrc : rc ≠ 0
  · rw [if_pos hrc, if_pos hrc]
    exact ⟨rfl, hcap, by simp⟩
  rw [if_neg hrc, if_neg hrc]
  obtain ⟨hgsized, hgcap⟩ : (stampedFrame env.stamp frame).Sized ∧
      (stampedFrame env.stamp frame).capacity = camera.frame.capacity := by
    obtain ⟨tNs, hstamped⟩ := stampedFrame_eq env.stamp frame
    rw [hstamped]
    exact ⟨⟨hsized.support, hsized.signal⟩, hcap⟩
  generalize stampedFrame env.stamp frame = g at hgsized hgcap
  by_cases hcount : g.capacity < g.count
  · -- a frame that claims more than it holds does not fit the scratch buffer
    rw [hready.pack_of_lt hgcap hcount, if_pos hcount]
    exact ⟨rfl, hgcap, by simp⟩
  · have hle := UInt32.not_lt.mp hcount
    obtain ⟨hpack, hne, htake, -⟩ := hready.pack hgsized hgcap hle
    have hholds := hgsized.mono (UInt32.le_iff_toNat_le.mp hle)
    rw [hpack, if_neg hcount]
    simp only [hne, if_false]
    cases env.send with
    | failed => exact ⟨rfl, hgcap, by simp⟩
    | again => exact ⟨rfl, hgcap, by simp⟩
    | sent =>
      refine ⟨?_, hgcap, fun msg hmsg ↦ ⟨g.contents, ?_, ?_⟩⟩
      · simp only [htake, Option.bind_some, parse_image hholds]
      · rw [← Option.some.inj hmsg, htake, parse_image hholds]
      · rw [length_support_contents hholds, ← hgcap]
        exact UInt32.le_iff_toNat_le.mp hle

end Tick

/-! ## The pipeline -/

/-- The pipeline with frames where the wire has messages, and no decode buffer. -/
structure Wireless (n : ℕ) (ι : Type) where
  producers : Fin n → Producer ι
  queues : Fin n → List Contents
  ledger : Ledger

def Pipeline.wireless (p : Pipeline n ι) : Wireless n ι where
  producers i := (p.cams i).producer
  queues i := (p.pipes i).filterMap parse
  ledger := p.sink.toLedger

/-- The moves of the pipeline, with nothing to pack and nothing to parse. -/
def Wireless.step (backend : Fin n → Backend ι ε) (w : Wireless n ι) :
    PipelineStep n ε → Option (Wireless n ι)
  | .tick i env =>
    if (backend i).allowed env.acquire (w.producers i).implCtx = true then
      let (_, producer, frame) := (w.producers i).tick (backend i) env
      some { w with
        producers := Function.update w.producers i producer
        queues := Function.update w.queues i (w.queues i ++ frame.toList) }
    else none
  | .recv i _ =>
    match w.queues i with
    | [] => none
    | f :: rest => some { w with
        queues := Function.update w.queues i rest
        ledger := observe w.ledger (some f) }

theorem Wireless.step_tick_eq_some {backend : Fin n → Backend ι ε} {w w' : Wireless n ι} {i : Fin n}
    {env : TickEnv ε} : w.step backend (.tick i env) = some w' ↔
      (backend i).allowed env.acquire (w.producers i).implCtx = true ∧
        w' = { w with
          producers := Function.update w.producers i
            ((w.producers i).tick (backend i) env).2.1
          queues := Function.update w.queues i
            (w.queues i ++ ((w.producers i).tick (backend i) env).2.2.toList) } := by
  rw [step]
  split_ifs with hallowed
  · rw [Option.some_inj, eq_comm]
    exact (and_iff_right hallowed).symm
  · exact ⟨fun h ↦ absurd h (by simp), fun h ↦ absurd h.1 hallowed⟩

theorem Wireless.step_recv_eq_some {backend : Fin n → Backend ι ε} {w w' : Wireless n ι} {i : Fin n}
    {granted : Bool} : w.step backend (.recv i granted) = some w' ↔
      ∃ f rest, w.queues i = f :: rest ∧
        w' = { w with
          queues := Function.update w.queues i rest
          ledger := observe w.ledger (some f) } := by
  rw [step]
  cases hqueue : w.queues i with
  | nil => simp
  | cons f rest =>
    rw [Option.some_inj, eq_comm]
    constructor
    · rintro rfl
      exact ⟨f, rest, rfl, rfl⟩
    · rintro ⟨f', rest', hcons, rfl⟩
      obtain ⟨rfl, rfl⟩ := List.cons.inj hcons
      rfl

/-- No frame of any camera is wider than the decode buffer. -/
structure Pipeline.Wide (p : Pipeline n ι) : Prop where
  ready : ∀ i, (p.cams i).Ready
  cams : ∀ i, (p.cams i).frame.capacity ≤ p.sink.decoded.capacity
  pipes : ∀ i, ∀ msg ∈ p.pipes i, ∃ f, parse msg = some f ∧
    f.support.length ≤ p.sink.decoded.capacity.toNat
  sized : p.sink.decoded.Sized

section Step

variable {backend : Fin n → Backend ι ε} {p p' : Pipeline n ι}

theorem Pipeline.Wide.tick (h : p.Wide) (hfills : ∀ i, (backend i).Fills) {i : Fin n}
    {env : TickEnv ε} (hstep : p.step backend (.tick i env) = some p') : p'.Wide := by
  obtain ⟨-, rfl⟩ := Pipeline.step_tick_eq_some.mp hstep
  obtain ⟨-, hcap, hmsg⟩ := @producer_cameraTick _ _ (backend i) env _ (hfills i) (h.ready i)
  obtain ⟨hready, -, -⟩ := @cameraTick_fills _ _ (backend i) env _ (hfills i) (h.ready i)
  refine ⟨?_, ?_, ?_, h.sized⟩
  · rw [Function.forall_update_iff p.cams fun _ camera ↦ camera.Ready]
    exact ⟨hready, fun j _ ↦ h.ready j⟩
  · rw [Function.forall_update_iff p.cams fun _ camera ↦
      camera.frame.capacity ≤ p.sink.decoded.capacity]
    exact ⟨hcap ▸ h.cams i, fun j _ ↦ h.cams j⟩
  · rw [Function.forall_update_iff p.pipes fun _ pipe ↦ ∀ msg ∈ pipe, ∃ f, parse msg = some f ∧
      f.support.length ≤ p.sink.decoded.capacity.toNat]
    refine ⟨fun msg hmem ↦ ?_, fun j _ ↦ h.pipes j⟩
    rcases List.mem_append.mp hmem with hmem | hmem
    · exact h.pipes i msg hmem
    · obtain ⟨f, hparse, hlen⟩ := hmsg msg (Option.mem_toList.mp hmem)
      exact ⟨f, hparse, hlen.trans (UInt32.le_iff_toNat_le.mp (h.cams i))⟩

theorem Pipeline.Wide.recv (h : p.Wide) {i : Fin n} {granted : Bool}
    (hstep : p.step backend (.recv i granted) = some p') : p'.Wide := by
  obtain ⟨msg, rest, hpipe, rfl⟩ := Pipeline.step_recv_eq_some.mp hstep
  obtain ⟨f, hparse, hlen⟩ := h.pipes i msg (hpipe ▸ List.mem_cons_self)
  obtain ⟨-, -, hsized, hcap⟩ := sinkRecv_of_parse granted h.sized hparse hlen
  refine ⟨h.ready, fun j ↦ ?_, ?_, hsized⟩
  · rw [hcap]
    exact h.cams j
  · rw [hcap, Function.forall_update_iff p.pipes fun _ pipe ↦ ∀ msg ∈ pipe, ∃ f,
      parse msg = some f ∧ f.support.length ≤ p.sink.decoded.capacity.toNat]
    refine ⟨fun msg' hmem ↦ h.pipes i msg' ?_, fun j _ ↦ h.pipes j⟩
    rw [hpipe]
    exact List.mem_cons_of_mem msg hmem

theorem Pipeline.Wide.step (h : p.Wide) (hfills : ∀ i, (backend i).Fills) {l : PipelineStep n ε}
    (hstep : p.step backend l = some p') : p'.Wide := by
  cases l with
  | tick i env => exact h.tick hfills hstep
  | recv i granted => exact h.recv hstep

theorem Pipeline.Wide.wireless_recv (h : p.Wide) (i : Fin n) (granted : Bool) :
    (p.step backend (.recv i granted)).map Pipeline.wireless
      = p.wireless.step backend (.recv i granted) := by
  rw [Pipeline.step, Pipeline.recv, Wireless.step]
  cases hpipe : p.pipes i with
  | nil =>
    have hqueue : p.wireless.queues i = [] := congrArg (List.filterMap parse) hpipe
    rw [hqueue]
    rfl
  | cons msg rest =>
    obtain ⟨f, hparse, hlen⟩ := h.pipes i msg (hpipe ▸ List.mem_cons_self)
    obtain ⟨-, hledger, -, -⟩ := sinkRecv_of_parse granted h.sized hparse hlen
    have hqueue : p.wireless.queues i = f :: rest.filterMap parse :=
      (congrArg (List.filterMap parse) hpipe).trans (List.filterMap_cons_some hparse)
    rw [hqueue]
    simp only [Option.map_some, wireless, hledger, Option.some_inj, Wireless.mk.injEq, true_and,
      and_true]
    exact funext fun j ↦ Function.apply_update (fun _ ↦ List.filterMap parse) _ i rest j

theorem Pipeline.Wide.wireless_tick (h : p.Wide) (hfills : ∀ i, (backend i).Fills) (i : Fin n)
    (env : TickEnv ε) :
    (p.step backend (.tick i env)).map Pipeline.wireless
      = p.wireless.step backend (.tick i env) := by
  obtain ⟨htick, -, -⟩ := @producer_cameraTick _ _ (backend i) env _ (hfills i) (h.ready i)
  have hparsed (message : Option Bytes) :
      message.toList.filterMap parse = (message.bind parse).toList := by
    cases message with
    | none => rfl
    | some msg => cases hmsg : parse msg <;> simp [hmsg]
  have hctx : (p.wireless.producers i).implCtx = (p.cams i).implCtx := rfl
  have htick' : (p.wireless.producers i).tick (backend i) env = _ := htick.symm
  rw [Pipeline.step, Pipeline.tick, Wireless.step, hctx]
  by_cases hallowed : (backend i).allowed env.acquire (p.cams i).implCtx = true
  · rw [if_pos hallowed, if_pos hallowed, htick']
    simp only [Option.map_some, wireless, Option.some_inj, Wireless.mk.injEq, and_true]
    refine ⟨funext fun j ↦ Function.apply_update (fun _ ↦ CameraCtx.producer) _ i _ j,
      funext fun j ↦ ?_⟩
    rw [Function.apply_update (fun _ ↦ List.filterMap parse), List.filterMap_append, hparsed]
  · rw [if_neg hallowed, if_neg hallowed]
    rfl

/-- **The same moves.** -/
theorem Pipeline.Wide.wireless_exec (h : p.Wide) (hfills : ∀ i, (backend i).Fills)
    (steps : List (PipelineStep n ε)) :
    (exec (Pipeline.step backend) p steps).map Pipeline.wireless
      = exec (Wireless.step backend) p.wireless steps := by
  refine exec_map (I := Pipeline.Wide) (fun h hstep ↦ h.step hfills hstep) ?_ h steps
  intro p h l
  cases l with
  | tick i env => exact h.wireless_tick hfills i env
  | recv i granted => exact h.wireless_recv i granted

end Step

end SparseCamera
