import SparseCamera.Pipeline.Delivery

/-!
# Mock cameras end to end

The account of `Delivery` for a whole configuration: what `build_cameras` accepts, the table
registered with the sink, and any execution from there. The verdict passes exactly when something
was delivered and nothing is missing between two delivered frames of one camera, as long as the
cameras together ticked fewer than `2 ^ 64` times. Beyond that the counters wrap, and the verdict
with them.

## The construction

The bound on the ticks is needed for the verdict only: below it no counter can come back to zero.
That it is needed is shown by an execution that no machine has time for. Four cameras with a frame
every nanosecond deliver 2^62 frames each, and the number of received messages is 0 again. The list
of its steps is never written out: it is made of rounds, and what a list of rounds does is shown for
all of them (`exec_quad`).
-/

namespace SparseCamera

open Execution KeyedHistory LossyStream

theorem Linked.sinkReport_eq_zero {sections : List (MockSection × Int64)}
    {built : List (CameraCtx MockCtx × SinkCamSpec)} {check : SinkCheck}
    {steps : List (PipelineStep built.length Int64)} {heard : List Contents}
    {waiting : Fin built.length → List Contents} {p : Pipeline built.length MockCtx}
    (hbuild : buildMockCameras sections = some built)
    (h : Linked check (built.map Prod.snd) (idOf built) (fun i ↦ (built.get i).2.maxSites.toNat)
      steps heard waiting p) (hlt : ∀ i, (sendsOf i steps).length < 2 ^ 64)
    (htotal : ∑ i, (sendsOf i steps).length < 2 ^ 64) :
    (p.sink.stats.seqLost.toNat = ∑ i, dropsBetween (sendsOf i steps) (receivedOf i steps)) ∧
    (p.sink.stats.seqGaps.toNat = ∑ i, dropRuns (sendsOf i steps) (receivedOf i steps)) ∧
    (sinkReport p.sink.toLedger = 0 ↔ (∃ i, 0 < receivedOf i steps) ∧
      ∀ i, dropsBetween (sendsOf i steps) (receivedOf i steps) = 0) := by
  obtain ⟨hreceived, hgaps, hlost⟩ := h.sums hbuild hlt
  obtain ⟨hparse, hindex, hvalue, hback, hunexpected⟩ := h.counters hbuild
  have hsmall {F : Fin built.length → ℕ} (hF : ∀ i, F i ≤ (sendsOf i steps).length) :
      ∑ i, F i < 2 ^ 64 := (Finset.sum_le_sum fun i _ ↦ hF i).trans_lt htotal
  have hreceivedLt : ∑ i, receivedOf i steps < 2 ^ 64 :=
    hsmall fun i ↦ (h.received i).symm.le.trans (h.length_stream_le i)
  have hgapsLt : ∑ i, dropRuns (sendsOf i steps) (receivedOf i steps) < 2 ^ 64 :=
    hsmall fun i ↦ (dropRuns_le _ _).trans List.count_le_length
  have hlostLt : ∑ i, dropsBetween (sendsOf i steps) (receivedOf i steps) < 2 ^ 64 :=
    hsmall fun i ↦ (dropsBetween_le _ _).trans List.count_le_length
  refine ⟨?_, ?_, ?_⟩
  · rw [hlost, UInt64.toNat_ofNat_of_lt' hlostLt]
  · rw [hgaps, UInt64.toNat_ofNat_of_lt' hgapsLt]
  · rw [SparseCamera.sinkReport_eq_zero, eq_zero_of_ofNat hreceived hreceivedLt,
      eq_zero_of_ofNat hgaps hgapsLt, Finset.sum_eq_zero_iff, Finset.sum_eq_zero_iff]
    simp only [hparse, hindex, hvalue, hback, hunexpected, Finset.mem_univ, true_implies, and_true,
      true_and, dropRuns_eq_zero, not_forall, Nat.pos_iff_ne_zero]

/-- **The sink sees exactly the drops of its cameras.** For every accepted configuration of mock
cameras and every execution whose sends are taken or dropped: no other rule is ever broken, no frame
is lost between the counters of a camera, the record of a drained camera counts what the camera
sent, and the gap counters are the drops between the first and the last delivered frame of each
camera, modulo their width. While the cameras together ticked fewer than `2 ^ 64` times these are
the numbers themselves, and the verdict is a pass exactly when something was delivered and nothing
was dropped in between. -/
theorem pipeline_accounting {sections : List (MockSection × Int64)}
    {built : List (CameraCtx MockCtx × SinkCamSpec)}
    (hbuild : buildMockCameras sections = some built) {check : Option SinkCheck} {sink₀ sink : Sink}
    {granted : Bool} (hopened : Opened check sink₀)
    (hexpect : sinkExpect granted sink₀ (built.map Prod.snd) = (0, sink))
    {steps : List (PipelineStep built.length Int64)} {p : Pipeline built.length MockCtx}
    (hexec : exec (Pipeline.step fun _ ↦ mockCameraInterface) (.start built sink) steps = some p)
    (hsend : ∀ i env, .tick i env ∈ steps → env.send ≠ .failed)
    (hlt : ∀ i, (sendsOf i steps).length < 2 ^ 64) :
    let stats := p.sink.stats
    let lost := ∑ i, dropsBetween (sendsOf i steps) (receivedOf i steps)
    let gaps := ∑ i, dropRuns (sendsOf i steps) (receivedOf i steps)
    (stats.badParse = 0 ∧ stats.badIndex = 0 ∧ stats.badValue = 0 ∧ stats.backwards = 0 ∧
      stats.unexpectedCams = 0) ∧
    (∀ i, (p.cams i).sent.toNat + (p.cams i).dropped.toNat = (sendsOf i steps).length ∧
      (p.cams i).implCtx.sequence.toNat = (sendsOf i steps).length) ∧
    (∀ i, (p.cams i).cameraId = idOf built i ∧
      (idOf built i ∈ p.sink.records.map CamState.cameraId ↔ 0 < receivedOf i steps) ∧
      (p.pipes i = [] → receivedOf i steps = (p.cams i).sent.toNat) ∧
      ∀ cam ∈ p.sink.records, cam.cameraId = idOf built i →
        cam.frames.toNat = receivedOf i steps ∧ (p.pipes i = [] → cam.frames = (p.cams i).sent)) ∧
    stats.seqLost = UInt64.ofNat lost ∧ stats.seqGaps = UInt64.ofNat gaps ∧
    (∑ i, (sendsOf i steps).length < 2 ^ 64 →
      stats.seqLost.toNat = lost ∧ stats.seqGaps.toNat = gaps ∧
      (sinkReport p.sink.toLedger = 0 ↔ (∃ i, 0 < receivedOf i steps) ∧
        ∀ i, dropsBetween (sendsOf i steps) (receivedOf i steps) = 0)) := by
  intro stats lost gaps
  obtain ⟨heard, waiting, h⟩ := linked_exec (linked_start hbuild hopened hexpect)
    (injective_idOf hbuild) hexec hsend hlt
  obtain ⟨-, hgaps, hlost⟩ := h.sums hbuild hlt
  have hreceivedLt (i : Fin built.length) : receivedOf i steps < 2 ^ 64 := by
    rw [← h.received i]
    exact (h.length_stream_le i).trans_lt (hlt i)
  have hdrained (i : Fin built.length) (hpipe : p.pipes i = []) :
      receivedOf i steps = (p.cams i).sent.toNat := by
    have hwaiting : waiting i = [] := by
      have := h.pipes i
      rw [hpipe, List.map_nil] at this
      exact List.map_eq_nil_iff.mp this.symm
    have hlen := (h.cameras i).length_eq
    rw [hwaiting, List.append_nil, h.received i] at hlen
    rw [(h.cameras i).sent, ← hlen, UInt64.toNat_ofNat_of_lt' (hreceivedLt i)]
  refine ⟨h.counters hbuild, fun i ↦ (h.cameras i).sent_add_dropped (hlt i), fun i ↦ ?_, hlost,
    hgaps, h.sinkReport_eq_zero hbuild hlt⟩
  obtain ⟨hrecord, hframes⟩ := h.records hbuild i
  refine ⟨(h.cameras i).cameraId, hrecord, hdrained i, fun cam hcam hid ↦ ?_⟩
  have hcount : cam.frames.toNat = receivedOf i steps := by
    rw [hframes cam hcam hid, UInt64.toNat_ofNat_of_lt' (hreceivedLt i)]
  exact ⟨hcount, fun hpipe ↦ UInt64.toNat_inj.mp (hcount.trans (hdrained i hpipe))⟩

/-! ## Runs on time

Ticks of one camera at its deadlines, one after the other. A frame that is sent is received at
once, so nothing is on the way after a round. -/

section Rounds

variable {n : ℕ}

/-- Ticks of camera `i`, one a nanosecond, with the given fates; what was sent is received at
once. -/
def rounds (i : Fin n) (tNs : Int64) : List Bool → List (PipelineStep n Int64)
  | [] => []
  | true :: outs => .tick i { acquire := tNs, stamp := 0, send := .sent } :: .recv i true ::
      rounds i (tNs + 1) outs
  | false :: outs => .tick i { acquire := tNs, stamp := 0, send := .again } ::
      rounds i (tNs + 1) outs

/-- The same ticks for several cameras, one camera after the other. -/
def allRounds (tNs : Int64) (outs : List Bool) (cams : List (Fin n)) :
    List (PipelineStep n Int64) :=
  cams.flatMap fun i ↦ rounds i tNs outs

private theorem sendsOf_rounds (i : Fin n) (tNs : Int64) (outs : List Bool) :
    sendsOf i (rounds i tNs outs) = outs ∧ receivedOf i (rounds i tNs outs) = outs.count true := by
  induction outs generalizing tNs with
  | nil => exact ⟨rfl, rfl⟩
  | cons out outs ih =>
    obtain ⟨hsends, hreceived⟩ := ih (tNs + 1)
    cases out with
    | true =>
      rw [rounds, sendsOf_tick_cons, if_pos rfl, sendsOf_recv_cons, receivedOf_tick_cons,
        receivedOf_recv_cons, if_pos rfl, hsends, hreceived, List.count_cons_self]
      exact ⟨rfl, rfl⟩
    | false =>
      rw [rounds, sendsOf_tick_cons, if_pos rfl, receivedOf_tick_cons, hsends, hreceived,
        List.count_cons_of_ne (by simp)]
      exact ⟨rfl, rfl⟩

private theorem sendsOf_rounds_of_ne {i j : Fin n} (h : i ≠ j) (tNs : Int64) (outs : List Bool) :
    sendsOf j (rounds i tNs outs) = [] ∧ receivedOf j (rounds i tNs outs) = 0 := by
  induction outs generalizing tNs with
  | nil => exact ⟨rfl, rfl⟩
  | cons out outs ih =>
    cases out with
    | true =>
      rw [rounds, sendsOf_tick_cons, if_neg h, sendsOf_recv_cons, receivedOf_tick_cons,
        receivedOf_recv_cons, if_neg h]
      exact ih (tNs + 1)
    | false =>
      rw [rounds, sendsOf_tick_cons, if_neg h, receivedOf_tick_cons]
      exact ih (tNs + 1)

private theorem send_of_mem_allRounds {tNs : Int64} {outs : List Bool} {cams : List (Fin n)}
    {i : Fin n}
    {env : TickEnv Int64} (h : .tick i env ∈ allRounds tNs outs cams) : env.send ≠ .failed := by
  obtain ⟨c, -, hc⟩ := List.mem_flatMap.mp h
  clear h
  induction outs generalizing tNs with
  | nil => exact absurd hc List.not_mem_nil
  | cons out outs ih =>
    cases out with
    | true =>
      rcases List.mem_cons.mp hc with heq | hc
      · obtain ⟨-, rfl⟩ := PipelineStep.tick.inj heq
        simp
      rcases List.mem_cons.mp hc with heq | hc
      · cases heq
      · exact ih hc
    | false =>
      rcases List.mem_cons.mp hc with heq | hc
      · obtain ⟨-, rfl⟩ := PipelineStep.tick.inj heq
        simp
      · exact ih hc

/-- A camera with the shortest period whose next deadline is `tNs`. -/
structure Paced (camera : CameraCtx MockCtx) (tNs : Int64) : Prop where
  period : camera.implCtx.periodNs = 1
  next : camera.implCtx.nextNs = tNs
  producing : ∃ id total sends produced, Producing id total camera sends produced

theorem Paced.tick {camera : CameraCtx MockCtx} {tNs : Int64} (h : Paced camera tNs)
    (hpos : 0 < tNs) (hfits : tNs.toInt + 1 < 2 ^ 63) (send : SendOutcome)
    (hsend : send ≠ .failed) :
    camera.implCtx.allowed tNs = true ∧ ∃ rc camera' image,
      cameraTick mockCameraInterface { acquire := tNs, stamp := 0, send := send } camera
        = (rc, camera', if send = .sent then some image else none) ∧ Paced camera' (tNs + 1) := by
  obtain ⟨id, total, sends, produced, hproducing⟩ := h.producing
  have hallowed : camera.implCtx.allowed tNs = true := by
    simp only [MockCtx.allowed, h.next, h.period, Bool.and_eq_true, decide_eq_true_eq]
    exact ⟨⟨⟨Int64.le_refl _, hpos⟩, hfits⟩, hfits⟩
  obtain ⟨rc, camera', image, f, htick, -, -, hproducing'⟩ :=
    hproducing.tick { acquire := tNs, stamp := 0, send := send } hallowed hsend
  have hctx := @implCtx_cameraTick _ _ mockCameraInterface
    { acquire := tNs, stamp := 0, send := send } camera
  have hnext := mockAcquire_onTime hproducing.running.up
    { frameReset camera.frame with cameraId := camera.cameraId }
  rw [h.next] at hnext
  rw [htick] at hctx
  have hcamera : camera'.implCtx = _ := hctx.trans hnext
  refine ⟨hallowed, rc, camera', image, htick, ?_, ?_, ?_⟩
  · rw [hcamera]
    exact h.period
  · rw [hcamera, h.period]
  · exact ⟨id, total, _, _, hproducing'⟩

/-- A round of camera `i` can be run. It leaves nothing on the way and touches no other camera. -/
theorem exec_round (i : Fin n) (out : Bool) {p : Pipeline n MockCtx} {tNs : Int64}
    (h : Paced (p.cams i) tNs) (hpos : 0 < tNs) (hfits : tNs.toInt + 1 < 2 ^ 63)
    (hpipe : p.pipes i = []) :
    ∃ p', exec (Pipeline.step fun _ ↦ mockCameraInterface) p (rounds i tNs [out]) = some p' ∧
      Paced (p'.cams i) (tNs + 1) ∧ p'.pipes i = [] ∧
      ∀ j, j ≠ i → p'.cams j = p.cams j ∧ p'.pipes j = p.pipes j := by
  cases out with
  | true =>
    obtain ⟨hallowed, rc, camera, image, htick, hpaced⟩ :=
      h.tick hpos hfits .sent (by simp)
    obtain ⟨p₁, hp₁, hcams₁, hpipes₁⟩ : ∃ p₁,
        p.step (fun _ ↦ mockCameraInterface) (.tick i ⟨tNs, 0, .sent⟩) = some p₁ ∧
          p₁.cams = Function.update p.cams i camera ∧
          p₁.pipes = Function.update p.pipes i [image] := by
      refine ⟨_, Pipeline.step_tick_eq_some.mpr ⟨hallowed, rfl⟩, ?_, ?_⟩
      · simp only [htick]
      · simp only [htick, hpipe, List.nil_append, if_true, Option.toList_some]
    -- the frame is received at once
    obtain ⟨p₂, hp₂, hcams₂, hpipes₂⟩ : ∃ p₂,
        p₁.step (fun _ ↦ mockCameraInterface) (.recv i true) = some p₂ ∧
          p₂.cams = p₁.cams ∧ p₂.pipes = Function.update p₁.pipes i [] := by
      refine ⟨_, Pipeline.step_recv_eq_some.mpr ⟨image, [], ?_, rfl⟩, rfl, rfl⟩
      rw [hpipes₁, Function.update_self]
    refine ⟨p₂, ?_, ?_, ?_, fun j hj ↦ ?_⟩
    · rw [rounds, exec_cons, hp₁, Option.bind_some, exec_cons, hp₂]
      rfl
    · rwa [hcams₂, hcams₁, Function.update_self]
    · rw [hpipes₂, Function.update_self]
    · rw [hcams₂, hcams₁, hpipes₂, hpipes₁, Function.update_of_ne hj, Function.update_of_ne hj,
        Function.update_of_ne hj]
      exact ⟨rfl, rfl⟩
  | false =>
    obtain ⟨hallowed, rc, camera, image, htick, hpaced⟩ :=
      h.tick hpos hfits .again (by simp)
    obtain ⟨p₁, hp₁, hcams₁, hpipes₁⟩ : ∃ p₁,
        p.step (fun _ ↦ mockCameraInterface) (.tick i ⟨tNs, 0, .again⟩) = some p₁ ∧
          p₁.cams = Function.update p.cams i camera ∧
          p₁.pipes = Function.update p.pipes i [] := by
      refine ⟨_, Pipeline.step_tick_eq_some.mpr ⟨hallowed, rfl⟩, ?_, ?_⟩
      · simp only [htick]
      · simp [htick, hpipe]
    refine ⟨p₁, ?_, ?_, ?_, fun j hj ↦ ?_⟩
    · rw [rounds, exec_cons, hp₁]
      rfl
    · rwa [hcams₁, Function.update_self]
    · rw [hpipes₁, Function.update_self]
    · rw [hcams₁, hpipes₁, Function.update_of_ne hj, Function.update_of_ne hj]
      exact ⟨rfl, rfl⟩

private theorem rounds_cons (i : Fin n) (tNs : Int64) (out : Bool) (outs : List Bool) :
    rounds i tNs (out :: outs) = rounds i tNs [out] ++ rounds i (tNs + 1) outs := by
  cases out <;> rfl

private theorem exec_rounds (i : Fin n) (outs : List Bool) {p : Pipeline n MockCtx} {tNs : Int64}
    (h : Paced (p.cams i) tNs) (hpos : 0 < tNs) (hfits : tNs.toInt + outs.length < 2 ^ 63)
    (hpipe : p.pipes i = []) :
    ∃ p', exec (Pipeline.step fun _ ↦ mockCameraInterface) p (rounds i tNs outs) = some p' ∧
      p'.pipes i = [] ∧ ∀ j, j ≠ i → p'.cams j = p.cams j ∧ p'.pipes j = p.pipes j := by
  induction outs generalizing p tNs with
  | nil => exact ⟨p, rfl, hpipe, fun _ _ ↦ ⟨rfl, rfl⟩⟩
  | cons out outs ih =>
    rw [List.length_cons] at hfits
    push_cast at hfits
    have hone : tNs.toInt + 1 < 2 ^ 63 := by omega
    have hsucc : (tNs + 1).toInt = tNs.toInt + 1 := toInt_add_of_lt (by decide) hone
    -- the next deadline is still a time after the start
    have hpos' : 0 < tNs + 1 := by
      have hpos := Int64.lt_iff_toInt_lt.mp hpos
      have hzero : (0 : Int64).toInt = 0 := rfl
      rw [Int64.lt_iff_toInt_lt, hsucc]
      omega
    obtain ⟨p₁, hp₁, hpaced, hpipe₁, hother₁⟩ := exec_round i out h hpos hone hpipe
    obtain ⟨p', hp', hdone, hother⟩ := ih hpaced hpos' (by omega) hpipe₁
    refine ⟨p', ?_, hdone, fun j hj ↦ ?_⟩
    · rw [rounds_cons, exec_append, hp₁, Option.bind_some, hp']
    · rw [(hother j hj).1, (hother j hj).2]
      exact hother₁ j hj

private theorem exec_allRounds (outs : List Bool) (tNs : Int64) (hpos : 0 < tNs)
    (hfits : tNs.toInt + outs.length < 2 ^ 63) {cams : List (Fin n)} (hnodup : cams.Nodup)
    {p : Pipeline n MockCtx} (h : ∀ i ∈ cams, Paced (p.cams i) tNs ∧ p.pipes i = []) :
    ∃ p', exec (Pipeline.step fun _ ↦ mockCameraInterface) p (allRounds tNs outs cams) = some p' ∧
      (∀ i ∈ cams, p'.pipes i = [] ∧ sendsOf i (allRounds tNs outs cams) = outs ∧
        receivedOf i (allRounds tNs outs cams) = outs.count true) ∧
      ∀ i ∉ cams, p'.pipes i = p.pipes i ∧ sendsOf i (allRounds tNs outs cams) = [] ∧
        receivedOf i (allRounds tNs outs cams) = 0 := by
  induction cams generalizing p with
  | nil => exact ⟨p, rfl, by simp, fun i _ ↦ ⟨rfl, rfl, rfl⟩⟩
  | cons c cams ih =>
    obtain ⟨hnew, hnodup'⟩ := List.nodup_cons.mp hnodup
    obtain ⟨hpaced, hpipe⟩ := h c List.mem_cons_self
    obtain ⟨p₁, hp₁, hdone, hother⟩ := exec_rounds c outs hpaced hpos hfits hpipe
    have hrest (i : Fin n) (hi : i ∈ cams) : Paced (p₁.cams i) tNs ∧ p₁.pipes i = [] := by
      obtain ⟨hcam, hpipe⟩ := hother i (ne_of_mem_of_not_mem hi hnew)
      rw [hcam, hpipe]
      exact h i (List.mem_cons_of_mem c hi)
    obtain ⟨p', hp', hin, hout⟩ := ih hnodup' hrest
    have happ : allRounds tNs outs (c :: cams) = rounds c tNs outs ++ allRounds tNs outs cams := rfl
    rw [happ]
    obtain ⟨hsends, hreceived⟩ := sendsOf_rounds c tNs outs
    obtain ⟨hpipes', hsends', hreceived'⟩ := hout c hnew
    refine ⟨p', ?_, fun i hi ↦ ?_, fun i hi ↦ ?_⟩
    · rw [exec_append, hp₁, Option.bind_some, hp']
    · rw [sendsOf_append, receivedOf_append]
      rcases List.mem_cons.mp hi with rfl | hi
      · rw [hpipes', hsends, hreceived, hsends', hreceived', List.append_nil]
        exact ⟨hdone, rfl, rfl⟩
      · obtain ⟨hskip, hskip'⟩ :=
          sendsOf_rounds_of_ne (ne_of_mem_of_not_mem hi hnew).symm tNs outs
        rw [hskip, hskip', List.nil_append, Nat.zero_add]
        exact hin i hi
    · obtain ⟨hne, hi⟩ := not_or.mp (mt List.mem_cons.mpr hi)
      obtain ⟨hskip, hskip'⟩ := sendsOf_rounds_of_ne (Ne.symm hne) tNs outs
      rw [sendsOf_append, receivedOf_append, hskip, hskip', List.nil_append, Nat.zero_add,
        ← (hother i hne).2]
      exact hout i hi

end Rounds

/-! ## Four cameras -/

/-- Four cameras with one cell each and a frame every nanosecond, brought up at time 1. -/
def quadSections : List (MockSection × Int64) :=
  (List.range 4).map fun i ↦
    ({ id := .ofNat i, rows := 1, cols := 1, sites := 1, fps := .fin (10 ^ 9) }, 1)

private theorem exec_quad (outs : List Bool) (hlen : outs.length ≤ 2 ^ 62) :
    ∃ built sink₀ sink p, buildMockCameras quadSections = some built ∧ built.length = 4 ∧
      sinkNew none = some sink₀ ∧ sinkExpect true sink₀ (built.map Prod.snd) = (0, sink) ∧
      exec (Pipeline.step fun _ ↦ mockCameraInterface) (.start built sink)
        (allRounds 2 outs (List.finRange built.length)) = some p ∧
      ∀ i, p.pipes i = [] ∧ sendsOf i (allRounds 2 outs (List.finRange built.length)) = outs ∧
        receivedOf i (allRounds 2 outs (List.finRange built.length)) = outs.count true := by
  have hfacts : ((buildMockCameras quadSections).map fun built ↦
      built.map fun cam ↦ (cam.1.implCtx.periodNs, cam.1.implCtx.nextNs))
      = some (List.replicate 4 (1, 2)) := by decide +kernel
  obtain ⟨built, hbuild, hpace⟩ := Option.map_eq_some_iff.mp hfacts
  obtain ⟨hbound, -, hproducing⟩ := buildMockCameras_spec hbuild
  obtain ⟨sink₀, hsink⟩ : ∃ sink₀, sinkNew none = some sink₀ := ⟨_, rfl⟩
  obtain ⟨sink, hexpect⟩ := sinkExpect_granted (fresh_sinkNew hsink).sized
    (built.map Prod.snd) (by rwa [List.length_map])
  have hpaced (i : Fin built.length) : Paced (built.get i).1 2 := by
    have hmem := List.get_mem built i
    have hpair := List.eq_of_mem_replicate (hpace ▸ List.mem_map.mpr ⟨_, hmem, rfl⟩)
    obtain ⟨hperiod, hnext⟩ := Prod.mk.inj hpair
    exact ⟨hperiod, hnext, _, _, _, _, hproducing _ hmem⟩
  have htwo : (2 : Int64).toInt = 2 := rfl
  obtain ⟨p, hp, hall, -⟩ := exec_allRounds outs 2 (by decide) (by omega)
    (List.nodup_finRange built.length) (p := .start built sink) fun i _ ↦ ⟨hpaced i, rfl⟩
  refine ⟨built, sink₀, sink, p, hbuild, ?_, hsink, hexpect, hp,
    fun i ↦ hall i (List.mem_finRange i)⟩
  have hlen := congrArg List.length hpace
  rwa [List.length_map, List.length_replicate] at hlen

/-- Four cameras that each drop their second frame of three: the sink finds four frames missing. -/
theorem pipeline_accounting_quad :
    ∃ built sink₀ sink p, buildMockCameras quadSections = some built ∧
      sinkNew none = some sink₀ ∧ sinkExpect true sink₀ (built.map Prod.snd) = (0, sink) ∧
      exec (Pipeline.step fun _ ↦ mockCameraInterface) (.start built sink)
        (allRounds 2 [true, false, true] (List.finRange built.length)) = some p ∧
      p.sink.stats.seqLost.toNat = 4 ∧ p.sink.stats.seqGaps.toNat = 4 ∧
      ∀ i, (p.cams i).sent.toNat = 2 ∧ (p.cams i).dropped.toNat = 1 := by
  obtain ⟨built, sink₀, sink, p, hbuild, hfour, hsink, hexpect, hexec, hall⟩ :=
    exec_quad [true, false, true] (by decide)
  have hsends (i : Fin built.length) := (hall i).2.1
  have hreceived (i : Fin built.length) := (hall i).2.2
  obtain ⟨-, hcounts, hrecords, -, -, htotal⟩ := pipeline_accounting hbuild (.new hsink) hexpect
    hexec (fun i env h ↦ send_of_mem_allRounds h) (fun i ↦ by rw [hsends i]; decide)
  simp only [hsends, hreceived, Finset.sum_const, Finset.card_univ, Fintype.card_fin, hfour]
    at hcounts hrecords htotal
  obtain ⟨hlost, hgaps, -⟩ := htotal (by decide)
  refine ⟨built, sink₀, sink, p, hbuild, hsink, hexpect, hexec, hlost, hgaps, fun i ↦ ?_⟩
  have hsent := (hrecords i).2.2.1 (hall i).1
  have hsum := (hcounts i).1
  have htwo : ([true, false, true] : List Bool).count true = 2 := rfl
  have hthree : ([true, false, true] : List Bool).length = 3 := rfl
  omega

/-- **The verdict wraps.** Four cameras that deliver `2 ^ 62` frames each, all they acquired, bring
the number of received messages back to 0, and the run fails. -/
theorem pipeline_accounting_wraps :
    ∃ built sink₀ sink p, buildMockCameras quadSections = some built ∧ built.length = 4 ∧
      sinkNew none = some sink₀ ∧ sinkExpect true sink₀ (built.map Prod.snd) = (0, sink) ∧
      exec (Pipeline.step fun _ ↦ mockCameraInterface) (.start built sink)
        (allRounds 2 (List.replicate (2 ^ 62) true) (List.finRange built.length)) = some p ∧
      (∀ i, p.pipes i = [] ∧
        sendsOf i (allRounds 2 (List.replicate (2 ^ 62) true) (List.finRange built.length))
          = List.replicate (2 ^ 62) true ∧
        receivedOf i (allRounds 2 (List.replicate (2 ^ 62) true) (List.finRange built.length))
          = 2 ^ 62 ∧
        dropsBetween (List.replicate (2 ^ 62) true) (2 ^ 62) = 0) ∧
      sinkReport p.sink.toLedger = 1 := by
  -- the length is kept a variable, so that nothing tries to write the list out
  have hgeneral (k : ℕ) (hk : k ≤ 2 ^ 62) (hzero : UInt64.ofNat (4 * k) = 0) :
      ∃ built sink₀ sink p, buildMockCameras quadSections = some built ∧ built.length = 4 ∧
        sinkNew none = some sink₀ ∧ sinkExpect true sink₀ (built.map Prod.snd) = (0, sink) ∧
        exec (Pipeline.step fun _ ↦ mockCameraInterface) (.start built sink)
          (allRounds 2 (List.replicate k true) (List.finRange built.length)) = some p ∧
        (∀ i, p.pipes i = [] ∧
          sendsOf i (allRounds 2 (List.replicate k true) (List.finRange built.length))
            = List.replicate k true ∧
          receivedOf i (allRounds 2 (List.replicate k true) (List.finRange built.length)) = k ∧
          dropsBetween (List.replicate k true) k = 0) ∧
        sinkReport p.sink.toLedger = 1 := by
    obtain ⟨built, sink₀, sink, p, hbuild, hfour, hsink, hexpect, hexec, hall⟩ :=
      exec_quad (List.replicate k true) (by rwa [List.length_replicate])
    have hreceived (i : Fin built.length) :
        receivedOf i (allRounds 2 (List.replicate k true) (List.finRange built.length)) = k := by
      rw [(hall i).2.2, List.count_replicate_self]
    have hlt (i : Fin built.length) : (sendsOf i (allRounds 2 (List.replicate k true)
        (List.finRange built.length))).length < 2 ^ 64 := by
      rw [(hall i).2.1, List.length_replicate]
      omega
    obtain ⟨heard, waiting, h⟩ := linked_exec (linked_start hbuild (.new hsink) hexpect)
      (injective_idOf hbuild) hexec (fun i env h ↦ send_of_mem_allRounds h) hlt
    -- four times `k` frames bring the counter back to 0
    have hwrapped : p.sink.stats.received = 0 := by
      rw [(h.sums hbuild hlt).1, Finset.sum_const_nat fun i _ ↦ hreceived i, Finset.card_univ,
        Fintype.card_fin, hfour, hzero]
    refine ⟨built, sink₀, sink, p, hbuild, hfour, hsink, hexpect, hexec, fun i ↦ ?_, ?_⟩
    · exact ⟨(hall i).1, (hall i).2.1, hreceived i, dropsBetween_replicate k k⟩
    · rw [sinkReport]
      exact if_pos (Or.inl hwrapped)
  exact hgeneral (2 ^ 62) le_rfl (by decide)

end SparseCamera
