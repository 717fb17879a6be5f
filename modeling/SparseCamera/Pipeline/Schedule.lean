import SparseCamera.Pipeline.Link
import SparseCamera.Pipeline.Wireless
import SparseCamera.Sink.Jitter

/-!
# The schedule

Cameras tick and the sink receives in whatever order the scheduler picks. What a camera hands over
depends on its own ticks only, and each connection keeps its order, so the sink hears of each camera
a first part of what that camera handed over. Two executions in which every camera gets the same
from outside and the sink takes as much from each may interleave these in different ways: the
cameras, what is on the way, the counters, the records and with them the verdict are the same.

## The invariant

`Wireless.Ran` compares a run of the whole system with runs of its cameras on their own. A camera's
own run is a function of what it gets from outside, tick by tick. Its outcome is what the sink heard
of it followed by what waits, and the ledger is the fold of the checks over what the sink heard of
all of them. Of the order of the steps nothing is left but the order of `heard`.
-/

namespace SparseCamera

open Execution KeyedHistory

variable {n : ℕ} {ι ε : Type}

/-! ## One camera

A camera is a machine of its own: nothing that the others or the sink do changes what it does
next. -/

/-- What camera `i` gets from outside, tick by tick. -/
def ticksOf (i : Fin n) (steps : List (PipelineStep n ε)) : List (TickEnv ε) :=
  steps.filterMap fun
    | .tick j env => if j = i then some env else none
    | .recv _ _ => none

/-- Ticks one after the other: the camera afterwards and what it has handed over. -/
def Producer.run (backend : Backend ι ε) (producer : Producer ι) (envs : List (TickEnv ε)) :
    Producer ι × List Contents :=
  envs.foldl (fun (producer, frames) env ↦
    let (_, producer, frame) := producer.tick backend env
    (producer, frames ++ frame.toList)) (producer, [])

/-- Every tick was one the outside world can make, where the ticks before it had led. -/
def Producer.Allowed (backend : Backend ι ε) (producer : Producer ι) (envs : List (TickEnv ε)) :
    Prop :=
  ∀ pre env post, envs = pre ++ env :: post →
    backend.allowed env.acquire (producer.run backend pre).1.implCtx = true

section Camera

variable {backend : Backend ι ε} {producer : Producer ι} {env : TickEnv ε} {i j : Fin n}
  {steps : List (PipelineStep n ε)} {granted : Bool}

theorem Producer.run_concat (envs : List (TickEnv ε)) :
    producer.run backend (envs ++ [env])
      = (((producer.run backend envs).1.tick backend env).2.1, (producer.run backend envs).2 ++
          ((producer.run backend envs).1.tick backend env).2.2.toList) := by
  rw [run, List.foldl_append]
  rfl

theorem Producer.length_run_le (envs : List (TickEnv ε)) :
    (producer.run backend envs).2.length ≤ envs.length := by
  induction envs using List.reverseRecOn with
  | nil => exact le_rfl
  | append_singleton envs env ih =>
    rw [run_concat, List.length_append, List.length_append, List.length_singleton]
    refine add_le_add ih ?_
    cases ((producer.run backend envs).1.tick backend env).2.2 with
    | none => exact Nat.zero_le 1
    | some f => exact le_rfl

theorem Producer.allowed_concat {envs : List (TickEnv ε)} :
    producer.Allowed backend (envs ++ [env]) ↔ producer.Allowed backend envs ∧
      backend.allowed env.acquire (producer.run backend envs).1.implCtx = true := by
  constructor
  · refine fun h ↦ ⟨fun pre env' post heq ↦ ?_, h envs env [] rfl⟩
    exact h pre env' (post ++ [env]) (by rw [heq, List.append_assoc, List.cons_append])
  · rintro ⟨hall, hlast⟩ pre env' post heq
    obtain rfl | ⟨post, last, rfl⟩ := post.eq_nil_or_concat
    · obtain ⟨rfl, hcons⟩ := List.append_inj' heq rfl
      obtain rfl := List.singleton_inj.mp hcons
      exact hlast
    · rw [List.concat_eq_append, ← List.cons_append, ← List.append_assoc] at heq
      exact hall pre env' post (List.append_inj' heq rfl).1

theorem ticksOf_tick_self :
    ticksOf i (steps ++ [.tick i env]) = ticksOf i steps ++ [env] := by
  simp [ticksOf]

theorem ticksOf_tick_of_ne (h : j ≠ i) : ticksOf i (steps ++ [.tick j env]) = ticksOf i steps := by
  simp [ticksOf, h]

theorem ticksOf_recv : ticksOf i (steps ++ [.recv j granted]) = ticksOf i steps := by
  simp [ticksOf]

theorem Producer.tick_named (hfills : backend.Fills) (hsized : producer.frame.Sized) :
    (producer.tick backend env).2.1.frame.Sized ∧
      (producer.tick backend env).2.1.cameraId = producer.cameraId ∧
      ∀ f ∈ (producer.tick backend env).2.2, f.cameraId = producer.cameraId := by
  have hreset : Frame.Sized { frameReset producer.frame with cameraId := producer.cameraId } :=
    ⟨hsized.support, hsized.signal⟩
  obtain ⟨hsized', -, hid⟩ := @hfills.frame env.acquire producer.implCtx _ hreset
  cases hacquire : backend.acquire env.acquire producer.implCtx
    { frameReset producer.frame with cameraId := producer.cameraId } with
  | mk rc rest =>
  obtain ⟨frame, implCtx⟩ := rest
  rw [hacquire] at hsized' hid
  obtain ⟨tNs, hstamped⟩ := stampedFrame_eq env.stamp frame
  simp only [tick, hacquire, hstamped]
  split_ifs
  · exact ⟨hsized', rfl, by simp⟩
  · exact ⟨⟨hsized'.support, hsized'.signal⟩, rfl, by simp⟩
  · cases env.send with
    | failed => exact ⟨⟨hsized'.support, hsized'.signal⟩, rfl, by simp⟩
    | again => exact ⟨⟨hsized'.support, hsized'.signal⟩, rfl, by simp⟩
    | sent =>
      refine ⟨⟨hsized'.support, hsized'.signal⟩, rfl, fun f hf ↦ ?_⟩
      rw [← Option.some.inj hf]
      exact hid

end Camera

/-! ## Any schedule

Two executions that agree in what goes in agree, camera by camera, in what was heard. Then the two
histories are `Shuffled`, and neither counters nor records can tell them apart. -/

/-- After `steps`, with the frames `heard`: each camera is where its own ticks led, and what it
handed over was heard or waits in its queue, in order. -/
structure Wireless.Ran (backend : Fin n → Backend ι ε) (start : Wireless n ι)
    (steps : List (PipelineStep n ε)) (heard : List Contents) (w : Wireless n ι) : Prop where
  sized : ∀ i, (w.producers i).frame.Sized
  cameraId : ∀ i, (w.producers i).cameraId = (start.producers i).cameraId
  waiting : ∀ i, ∀ f ∈ w.queues i, f.cameraId = (start.producers i).cameraId
  ran : ∀ i, (start.producers i).run (backend i) (ticksOf i steps)
    = (w.producers i,
        stream Contents.cameraId heard (start.producers i).cameraId ++ w.queues i)
  taken : ∀ i, (stream Contents.cameraId heard (start.producers i).cameraId).length
    = receivedOf i steps
  known : ∀ f ∈ heard, ∃ i, f.cameraId = (start.producers i).cameraId
  allowed : ∀ i, (start.producers i).Allowed (backend i) (ticksOf i steps)
  ledger : w.ledger = (heard.map some).foldl observe start.ledger

section Ran

variable {backend : Fin n → Backend ι ε} {start w w' : Wireless n ι}
  {steps : List (PipelineStep n ε)} {heard : List Contents}

theorem Wireless.Ran.tick (h : start.Ran backend steps heard w) (hfills : ∀ i, (backend i).Fills)
    {i : Fin n} {env : TickEnv ε} (hstep : w.step backend (.tick i env) = some w') :
    start.Ran backend (steps ++ [.tick i env]) heard w' := by
  obtain ⟨hallowed, rfl⟩ := step_tick_eq_some.mp hstep
  obtain ⟨hsized, hid, hframe⟩ :=
    @Producer.tick_named _ _ (backend i) _ env (hfills i) (h.sized i)
  refine ⟨?_, ?_, ?_, fun j ↦ ?_, fun j ↦ ?_, h.known, fun j ↦ ?_, h.ledger⟩
  · rw [Function.forall_update_iff w.producers fun _ producer ↦ producer.frame.Sized]
    exact ⟨hsized, fun j _ ↦ h.sized j⟩
  · rw [Function.forall_update_iff w.producers fun j producer ↦
      producer.cameraId = (start.producers j).cameraId]
    exact ⟨hid.trans (h.cameraId i), fun j _ ↦ h.cameraId j⟩
  · rw [Function.forall_update_iff w.queues fun j queue ↦
      ∀ f ∈ queue, f.cameraId = (start.producers j).cameraId]
    refine ⟨fun f hf ↦ ?_, fun j _ ↦ h.waiting j⟩
    rcases List.mem_append.mp hf with hf | hf
    · exact h.waiting i f hf
    · exact (hframe f (Option.mem_toList.mp hf)).trans (h.cameraId i)
  · rcases eq_or_ne i j with rfl | hj
    · simp only [ticksOf_tick_self, Producer.run_concat, h.ran i, Function.update_self,
        List.append_assoc]
    · simp only [ticksOf_tick_of_ne hj, Function.update_of_ne (Ne.symm hj), h.ran j]
  · rw [receivedOf_append, receivedOf_tick_cons, receivedOf_nil, Nat.add_zero]
    exact h.taken j
  · rcases eq_or_ne i j with rfl | hj
    · rw [ticksOf_tick_self, Producer.allowed_concat, h.ran i]
      exact ⟨h.allowed i, hallowed⟩
    · rw [ticksOf_tick_of_ne hj]
      exact h.allowed j

theorem Wireless.Ran.recv (h : start.Ran backend steps heard w)
    (hinj : Function.Injective fun i ↦ (start.producers i).cameraId) {i : Fin n} {granted : Bool}
    (hstep : w.step backend (.recv i granted) = some w') :
    ∃ f, start.Ran backend (steps ++ [.recv i granted]) (heard ++ [f]) w' := by
  obtain ⟨f, rest, hqueue, rfl⟩ := step_recv_eq_some.mp hstep
  have hid : f.cameraId = (start.producers i).cameraId :=
    h.waiting i f (hqueue ▸ List.mem_cons_self)
  have hself : stream Contents.cameraId (heard ++ [f]) (start.producers i).cameraId
      = stream Contents.cameraId heard (start.producers i).cameraId ++ [f] := by
    rw [← hid]
    exact stream_concat_self _ _ _
  -- the other cameras have other ids
  have hother {j : Fin n} (hj : i ≠ j) :
      stream Contents.cameraId (heard ++ [f]) (start.producers j).cameraId
        = stream Contents.cameraId heard (start.producers j).cameraId :=
    stream_concat_of_ne _ fun heq ↦ hj (hinj (hid.symm.trans heq))
  refine ⟨f, h.sized, h.cameraId, ?_, fun j ↦ ?_, fun j ↦ ?_, fun g hg ↦ ?_, fun j ↦ ?_, ?_⟩
  · rw [Function.forall_update_iff w.queues fun j queue ↦
      ∀ f ∈ queue, f.cameraId = (start.producers j).cameraId]
    refine ⟨fun g hg ↦ h.waiting i g ?_, fun j _ ↦ h.waiting j⟩
    rw [hqueue]
    exact List.mem_cons_of_mem f hg
  · rw [ticksOf_recv, h.ran j]
    rcases eq_or_ne i j with rfl | hj
    · simp only [hself, hqueue, Function.update_self, List.append_assoc, List.singleton_append]
    · simp only [hother hj, Function.update_of_ne (Ne.symm hj)]
  · rw [receivedOf_append, receivedOf_recv_cons, receivedOf_nil, Nat.zero_add]
    rcases eq_or_ne i j with rfl | hj
    · rw [hself, List.length_append, if_pos rfl, h.taken i, List.length_singleton]
    · rw [hother hj, if_neg hj, Nat.add_zero]
      exact h.taken j
  · rcases List.mem_append.mp hg with hg | hg
    · exact h.known g hg
    · exact ⟨i, List.mem_singleton.mp hg ▸ hid⟩
  · rw [ticksOf_recv]
    exact h.allowed j
  · rw [List.map_append, List.foldl_append, ← h.ledger]
    rfl

/-- **Any execution.** -/
theorem ran_exec (hfills : ∀ i, (backend i).Fills) (hsized : ∀ i, (start.producers i).frame.Sized)
    (hqueues : ∀ i, start.queues i = [])
    (hinj : Function.Injective fun i ↦ (start.producers i).cameraId)
    (hexec : exec (Wireless.step backend) start steps = some w) :
    ∃ heard, start.Ran backend steps heard w := by
  refine invariant (I := fun steps w ↦ ∃ heard, start.Ran backend steps heard w) ?_ ?_ hexec
  · refine ⟨[], hsized, fun _ ↦ rfl, fun i f hf ↦ ?_, fun i ↦ ?_, fun _ ↦ rfl, by simp,
      fun i pre env post heq ↦ absurd heq (by simp [ticksOf]), rfl⟩
    · rw [hqueues i] at hf
      exact absurd hf List.not_mem_nil
    · rw [hqueues i]
      rfl
  · rintro steps w step w' - ⟨heard, h⟩ hstep
    cases step with
    | tick i env => exact ⟨heard, h.tick hfills hstep⟩
    | recv i granted =>
      obtain ⟨f, h'⟩ := h.recv hinj hstep
      exact ⟨heard ++ [f], h'⟩

/-- **Two schedules of the same moves** lead to the same cameras and queues, and to streams that are
interleaved in different ways. -/
theorem Wireless.Ran.agree {steps' : List (PipelineStep n ε)} {heard' : List Contents}
    (h : start.Ran backend steps heard w) (h' : start.Ran backend steps' heard' w')
    (hticks : ∀ i, ticksOf i steps = ticksOf i steps')
    (hreceived : ∀ i, receivedOf i steps = receivedOf i steps') :
    w.producers = w'.producers ∧ w.queues = w'.queues ∧
      Shuffled Contents.cameraId heard heard' := by
  have hrun (i : Fin n) := (h.ran i).symm.trans ((hticks i) ▸ h'.ran i)
  have hsplit (i : Fin n) := List.append_inj (Prod.mk.inj (hrun i)).2
    ((h.taken i).trans ((hreceived i).trans (h'.taken i).symm))
  refine ⟨funext fun i ↦ (Prod.mk.inj (hrun i)).1, funext fun i ↦ (hsplit i).2, fun id ↦ ?_⟩
  by_cases hid : ∃ i, (start.producers i).cameraId = id
  · obtain ⟨i, rfl⟩ := hid
    exact (hsplit i).1
  · -- nobody sends under this id
    have hnone {l : List Contents} (hl : ∀ f ∈ l, ∃ i, f.cameraId = (start.producers i).cameraId) :
        stream Contents.cameraId l id = [] := by
      refine (stream_eq_nil _).mpr fun hmem ↦ hid ?_
      obtain ⟨f, hf, rfl⟩ := (mem_keySet _).mp hmem
      obtain ⟨i, hi⟩ := hl f hf
      exact ⟨i, hi.symm⟩
    rw [hnone h.known, hnone h'.known]

theorem Wireless.Ran.account (h : start.Ran backend steps heard w)
    (hcams : start.ledger.cams = List.replicate sinkMaxCameras .blank)
    (hstats : start.ledger.stats = .zero) (hlt : ∀ i, receivedOf i steps < 2 ^ 64) :
    Accounts start.ledger.check start.ledger.specs (heard.map some) w.ledger ∧
      JitterCounted start.ledger.check start.ledger.specs (heard.map some) w.ledger := by
  have hbound : Bounded ([] ++ heard.map some) := by
    intro id
    rw [List.nil_append, reduceOption_map_some]
    by_cases hid : id ∈ keySet Contents.cameraId heard
    · obtain ⟨f, hf, rfl⟩ := (mem_keySet _).mp hid
      obtain ⟨i, hi⟩ := h.known f hf
      rw [hi, h.taken i]
      exact hlt i
    · rw [(stream_eq_nil _).mpr hid]
      exact Nat.two_pow_pos 64
  have hjitter : JitterCounted start.ledger.check start.ledger.specs [] start.ledger := by
    rw [JitterCounted, hstats]
    rfl
  have hempty := accounts_nil hcams hstats
  rw [h.ledger]
  exact ⟨accounts_foldl hempty _ hbound, hjitter.foldl hempty _ hbound⟩

theorem Wireless.Ran.card_le (h : start.Ran backend steps heard w) :
    (keySet Contents.cameraId heard).card ≤ n := by
  have hsub : keySet Contents.cameraId heard
      ⊆ Finset.univ.image fun i ↦ (start.producers i).cameraId := by
    intro id hid
    obtain ⟨f, hf, rfl⟩ := (mem_keySet _).mp hid
    obtain ⟨i, hi⟩ := h.known f hf
    exact Finset.mem_image.mpr ⟨i, Finset.mem_univ i, hi.symm⟩
  exact (Finset.card_le_card hsub).trans
    (Finset.card_image_le.trans_eq (Finset.card_fin n))

end Ran

theorem Pipeline.Wide.ran {backend : Fin n → Backend ι ε} {p q : Pipeline n ι} (h : p.Wide)
    (hfills : ∀ i, (backend i).Fills) (hpipes : ∀ i, p.pipes i = [])
    (hinj : Function.Injective fun i ↦ (p.cams i).cameraId) {steps : List (PipelineStep n ε)}
    (hexec : exec (Pipeline.step backend) p steps = some q) :
    ∃ heard, p.wireless.Ran backend steps heard q.wireless := by
  have hwireless := h.wireless_exec hfills steps
  rw [hexec, Option.map_some] at hwireless
  exact ran_exec hfills (fun i ↦ (h.ready i).sized)
    (fun i ↦ congrArg (List.filterMap parse) (hpipes i)) hinj hwireless.symm

/-- **The pipeline does not depend on the schedule.** -/
theorem Pipeline.Wide.schedules {backend : Fin n → Backend ι ε} {p q q' : Pipeline n ι}
    (h : p.Wide) (hfills : ∀ i, (backend i).Fills) (hfresh : p.sink.Fresh)
    (hpipes : ∀ i, p.pipes i = []) (hinj : Function.Injective fun i ↦ (p.cams i).cameraId)
    (hfew : n ≤ sinkMaxCameras) {steps steps' : List (PipelineStep n ε)}
    (hexec : exec (Pipeline.step backend) p steps = some q)
    (hexec' : exec (Pipeline.step backend) p steps' = some q')
    (hticks : ∀ i, ticksOf i steps = ticksOf i steps')
    (hreceived : ∀ i, receivedOf i steps = receivedOf i steps')
    (hlt : ∀ i, receivedOf i steps < 2 ^ 64) :
    (∀ i, (q.cams i).producer = (q'.cams i).producer) ∧
      (∀ i, (q.pipes i).filterMap parse = (q'.pipes i).filterMap parse) ∧
      q.sink.stats = q'.sink.stats ∧ ∀ id, q.sink.record id = q'.sink.record id := by
  obtain ⟨heard, h₁⟩ := h.ran hfills hpipes hinj hexec
  obtain ⟨heard', h₂⟩ := h.ran hfills hpipes hinj hexec'
  obtain ⟨hproducers, hqueues, hshuffled⟩ := h₁.agree h₂ hticks hreceived
  obtain ⟨hacc₁, hjitter₁⟩ := h₁.account hfresh.cams hfresh.stats hlt
  obtain ⟨hacc₂, hjitter₂⟩ := h₂.account hfresh.cams hfresh.stats fun i ↦ hreceived i ▸ hlt i
  have hcount (l : List Contents) : (l.map some).count none = 0 := by
    rw [List.count_eq_zero]
    simp
  refine ⟨congrFun hproducers, congrFun hqueues, ?_⟩
  exact hacc₁.shuffled hjitter₁ hacc₂ hjitter₂
    (by rwa [reduceOption_map_some, reduceOption_map_some])
    ((hcount heard).trans (hcount heard').symm)
    (by rw [reduceOption_map_some]; exact h₁.card_le.trans hfew)

end SparseCamera
