import SparseCamera.Sink.Lookup

/-!
# Registering a table during a run

`sink_expect` replaces the table of configured cameras at any time. The bounds of a camera are
copied from that table when the camera takes its slot, and so is the decision to count it as
unexpected. A table registered later does not reach the cameras that have a slot by then, and a
camera that finds no slot is not checked at all.

## The construction

The bounds of a record are fixed when the record is made, so what a frame is checked against goes
back to the moment its camera appeared. `Governs` asks that they are those of the table in force.
For a camera that appears after the registration they are; one that has a record already keeps the
old ones, and it can only happen by chance that they agree. The condition of `governs_iff` is about
the records at the time of the registration.
-/

namespace SparseCamera

open KeyedHistory KeyedTable

/-- The period a camera is checked for; 0 is no check. -/
def periodOf (check : SinkCheck) (specs : List SinkCamSpec) (id : UInt32) : ExtRat :=
  (specs.find? fun spec ↦ spec.cameraId == id).elim check.expectPeriodMs
    SinkCamSpec.expectPeriodMs

/-- The bounds a camera has under a table. -/
def CamState.BoundedBy (cam : CamState) (check : SinkCheck) (specs : List SinkCamSpec)
    (id : UInt32) : Prop :=
  cam.maxSites = boundOf check specs id ∧ cam.expectPeriodMs = periodOf check specs id

/-! ## Runs of requests -/

/-- A sink serving requests, each with the allocator's answer should it be asked. -/
def serveAll (sink : Sink) (calls : List (SinkRequest × Bool)) : Sink :=
  calls.foldl (fun sink call ↦ (serve call.2 sink call.1).2) sink

/-- The camera that sent what a request handles. -/
def SinkRequest.sender : SinkRequest → Option UInt32
  | .recv (.message msg) => (parse msg).map Contents.cameraId
  | _ => none

/-- The cameras a run counts as unexpected. -/
def unexpectedOf : Sink → List (SinkRequest × Bool) → List UInt32
  | _, [] => []
  | sink, (request, granted) :: calls =>
    let sink' := (serve granted sink request).2
    (if sink'.stats.unexpectedCams ≠ sink.stats.unexpectedCams then request.sender.toList
      else []) ++ unexpectedOf sink' calls

/-- The requests that handle some messages. -/
def receiving (history : List (Bytes × Bool)) : List (SinkRequest × Bool) :=
  history.map fun message ↦ (.recv (.message message.1), message.2)

/-- The frames a sink decodes from some messages. -/
def acceptedFrames (sink : Sink) (history : List (Bytes × Bool)) : List Contents :=
  (decodeHistory sink.decoded.capacity history).reduceOption

/-- **A table governs the messages behind it**: every frame is checked with the bounds it gives the
camera, and every camera it does not have is counted by then. -/
structure Governs (sink₀ : Sink) (calls : List (SinkRequest × Bool)) (granted : Bool)
    (specs : List SinkCamSpec) (sink : Sink) (history : List (Bytes × Bool)) : Prop where
  bounds : ∀ id ∈ keySet Contents.cameraId (acceptedFrames sink history),
    ∀ check ∈ checksOf id sink.toLedger (decodeHistory sink.decoded.capacity history),
      ∃ cam, check.against = some cam ∧ cam.BoundedBy sink.check specs id
  counted : ∀ id ∈ keySet Contents.cameraId (acceptedFrames sink history),
    specs ≠ [] → ¬Configured specs id →
      id ∈ unexpectedOf sink₀ (calls ++ (.expect specs, granted) :: receiving history)

/-! ## One request

Registering a table touches no record and no counter. A message may make one record, and that has
the bounds of the table in force. -/

section Step

variable {sink : Ledger}

theorem openCam_boundedBy (check : SinkCheck) (specs : List SinkCamSpec) (id : UInt32) :
    (openCam check specs .blank id).BoundedBy check specs id := by
  refine ⟨openCam_maxSites check specs id, ?_⟩
  rw [openCam, periodOf]
  cases specs.find? fun spec ↦ spec.cameraId == id with
  | none => rfl
  | some spec => rfl

theorem boundedBy_advance (check : SinkCheck) (specs : List SinkCamSpec) (id : UInt32)
    (cam : CamState) (f : Contents) :
    (advance cam f).BoundedBy check specs id ↔ cam.BoundedBy check specs id := by
  obtain ⟨-, -, -, hsites, hperiod⟩ := advance_fixed cam f
  rw [CamState.BoundedBy, CamState.BoundedBy, hsites, hperiod]

theorem unexpectedCams_observe (h : sink.Tabled) (f : Contents) :
    (observe sink (some f)).stats.unexpectedCams ≠ sink.stats.unexpectedCams ↔
      f.cameraId ∉ sink.table.keys ∧
        (sink.policy.slot sink.table f.cameraId).isSome = true ∧ sink.specs ≠ [] ∧
        ¬Configured sink.specs f.cameraId := by
  rw [stats_observe h]
  by_cases hmem : f.cameraId ∈ sink.table.keys
  · rw [Policy.slot_of_mem hmem, Option.elim_some, if_pos hmem, judge_eq_add]
    exact iff_of_false (not_not.mpr rfl) fun hnew ↦ hnew.1 hmem
  · by_cases hroom : sink.table.keys.card < sink.policy.room
    · have hslot : sink.policy.slot sink.table f.cameraId
          = some (openCam sink.check sink.specs .blank f.cameraId) :=
        Policy.slot_of_room hmem hroom
      have hunknown : (openCam sink.check sink.specs .blank f.cameraId).specKnown = false
          ↔ ¬Configured sink.specs f.cameraId := by
        rw [openCam_specKnown, decide_eq_false_iff_not]
      rw [hslot, Option.elim_some, if_neg hmem, judge_eq_add, takeSlot]
      simp only [hunknown]
      by_cases hnew : sink.specs ≠ [] ∧ ¬Configured sink.specs f.cameraId
      · rw [if_pos hnew]
        have hne : sink.stats.unexpectedCams + 1 ≠ sink.stats.unexpectedCams := by
          intro heq
          exact absurd (UInt32.add_eq_left.mp heq) (by decide)
        exact iff_of_true hne ⟨hmem, rfl, hnew⟩
      · rw [if_neg hnew]
        exact iff_of_false (not_not.mpr rfl) fun hall ↦ hnew hall.2.2
    · rw [Policy.slot_of_full hmem hroom, Option.elim_none]
      exact iff_of_false (not_not.mpr rfl) fun hall ↦ absurd hall.2.1 Bool.false_ne_true

/-- A camera is counted for a frame, or for one of those behind it, if it has no record before, gets
one and is not in the table. -/
theorem counted_cons (h : sink.Tabled) (f : Contents) (frames : List Contents) (id : UInt32) :
    (id ∈ (if (observe sink (some f)).stats.unexpectedCams ≠ sink.stats.unexpectedCams then
          [f.cameraId] else []) ∨
        id ∈ keySet Contents.cameraId frames ∧ id ∉ (sink.policy.step sink.table f).keys ∧
          sink.policy.HasRoom (sink.policy.step sink.table f) frames id ∧ sink.specs ≠ [] ∧
          ¬Configured sink.specs id) ↔
      id ∈ keySet Contents.cameraId (f :: frames) ∧ id ∉ sink.table.keys ∧
        sink.policy.HasRoom sink.table (f :: frames) id ∧ sink.specs ≠ [] ∧
        ¬Configured sink.specs id := by
  have hkeySet : keySet Contents.cameraId (f :: frames)
      = insert f.cameraId (keySet Contents.cameraId frames) := by
    rw [keySet, List.map_cons, List.toFinset_cons, ← keySet]
  simp only [unexpectedCams_observe h f, hkeySet, Finset.mem_insert]
  by_cases hid : f.cameraId = id
  · -- it is counted now or never
    subst hid
    have hself : f.cameraId ∈ (sink.policy.step sink.table f).keys
        ↔ (sink.policy.slot sink.table f.cameraId).isSome = true := Policy.mem_keys_step_self
    have hroom : sink.policy.HasRoom sink.table (f :: frames) f.cameraId
        ↔ (sink.policy.slot sink.table f.cameraId).isSome = true := Policy.hasRoom_cons_self
    have hlater : sink.policy.HasRoom (sink.policy.step sink.table f) frames f.cameraId →
        (sink.policy.slot sink.table f.cameraId).isSome = true := by
      intro hroom'
      have hstart := Policy.isSome_start.mpr hroom'
      rw [show f.cameraId = sink.policy.key f from rfl, Policy.start_step_self,
        Option.isSome_map] at hstart
      exact hstart
    rw [hself, hroom]
    constructor
    · rintro (hnow | ⟨-, hnot, hroom', -⟩)
      · split_ifs at hnow with hall
        · exact ⟨Or.inl rfl, hall⟩
        · exact absurd hnow List.not_mem_nil
      · exact absurd (hlater hroom') hnot
    · rintro ⟨-, hall⟩
      apply Or.inl
      rw [if_pos hall]
      exact List.mem_singleton_self _
  · have hkeys : id ∈ (sink.policy.step sink.table f).keys ↔ id ∈ sink.table.keys :=
      Policy.mem_keys_step_of_ne hid
    have hroom : sink.policy.HasRoom (sink.policy.step sink.table f) frames id
        ↔ sink.policy.HasRoom sink.table (f :: frames) id := Policy.hasRoom_step_of_ne hid
    have hnot : id ∉ if f.cameraId ∉ sink.table.keys ∧
        (sink.policy.slot sink.table f.cameraId).isSome = true ∧ sink.specs ≠ [] ∧
        ¬Configured sink.specs f.cameraId then [f.cameraId] else [] := by
      split_ifs
      · rw [List.mem_singleton]
        exact Ne.symm hid
      · exact List.not_mem_nil
    rw [hkeys, hroom, or_iff_right hnot, or_iff_right (Ne.symm hid)]

end Step

/-! ## A run

Once the table stands, the requests behind it are messages, and what they do to one camera can be
followed by its own stream. -/

section Run

variable {sink : Sink}

private theorem unexpectedOf_append (calls calls' : List (SinkRequest × Bool)) :
    unexpectedOf sink (calls ++ calls')
      = unexpectedOf sink calls ++ unexpectedOf (serveAll sink calls) calls' := by
  induction calls generalizing sink with
  | nil => rfl
  | cons call calls ih =>
    rw [List.cons_append, unexpectedOf, unexpectedOf, ih, List.append_assoc]
    rfl

private theorem unexpectedOf_expect {granted : Bool} {specs : List SinkCamSpec} {sink' : Sink}
    (hexpect : sinkExpect granted sink specs = (0, sink')) (calls : List (SinkRequest × Bool)) :
    unexpectedOf sink ((.expect specs, granted) :: calls) = unexpectedOf sink' calls := by
  have hserve : (serve granted sink (.expect specs)).2 = sink' := congrArg Prod.snd hexpect
  have hsender : (SinkRequest.expect specs).sender.toList = [] := rfl
  rw [unexpectedOf, hserve, hsender, ite_self]
  rfl

theorem serve_message (hsized : sink.decoded.Sized) (granted : Bool) (msg : Bytes) :
    (serve granted sink (.recv (.message msg))).2.toLedger
        = observe sink.toLedger (decodeOutcome sink.decoded.capacity granted msg) ∧
      (serve granted sink (.recv (.message msg))).2.decoded.Sized ∧
      (serve granted sink (.recv (.message msg))).2.decoded.capacity
        = decodeCapacity sink.decoded.capacity granted msg := by
  obtain ⟨houtcome, hsized', hcap⟩ := sinkDecode_eq granted msg hsized
  refine ⟨?_, hsized', hcap⟩
  rw [← houtcome]
  rfl

/-- **The cameras that are counted** while messages come in: those without a record that get one
and are not in the table. -/
theorem mem_unexpectedOf_receiving (htabled : sink.toLedger.Tabled) (hsized : sink.decoded.Sized)
    (history : List (Bytes × Bool)) (id : UInt32) :
    id ∈ unexpectedOf sink (receiving history) ↔
      id ∈ keySet Contents.cameraId (acceptedFrames sink history) ∧ id ∉ sink.table.keys ∧
        sink.GetsSlot (acceptedFrames sink history) id ∧ sink.specs ≠ [] ∧
        ¬Configured sink.specs id := by
  induction history generalizing sink with
  | nil => simp [receiving, unexpectedOf, acceptedFrames, decodeHistory]
  | cons message history ih =>
    obtain ⟨msg, granted⟩ := message
    obtain ⟨hledger, hsized', hcap⟩ := serve_message hsized granted msg
    set sink' := (serve granted sink (.recv (.message msg))).2 with hsink'
    obtain ⟨htabled', -, hspecs', htable'⟩ :=
      observe_tabled htabled (decodeOutcome sink.decoded.capacity granted msg)
    have hpolicy : sink'.policy = sink.policy := by
      obtain ⟨-, hcheck, hspecs, -⟩ :=
        observe_tabled htabled (decodeOutcome sink.decoded.capacity granted msg)
      rw [Ledger.policy, Ledger.policy, hledger, hcheck, hspecs]
    rw [← hledger] at htabled' hspecs' htable'
    have hrest := ih htabled' hsized'
    have hmsg : unexpectedOf sink (receiving ((msg, granted) :: history))
        = (if sink'.stats.unexpectedCams ≠ sink.stats.unexpectedCams then
            ((parse msg).map Contents.cameraId).toList else []) ++
          unexpectedOf sink' (receiving history) := rfl
    have hframes : acceptedFrames sink ((msg, granted) :: history)
        = (decodeOutcome sink.decoded.capacity granted msg).toList
          ++ acceptedFrames sink' history := by
      rw [acceptedFrames, decodeHistory, acceptedFrames, hcap]
      cases decodeOutcome sink.decoded.capacity granted msg with
      | none => rw [List.reduceOption_cons_of_none]; rfl
      | some f => rw [List.reduceOption_cons_of_some]; rfl
    rw [hmsg, hframes, List.mem_append, hrest, hspecs', Ledger.GetsSlot, Ledger.GetsSlot, hpolicy,
      htable']
    cases houtcome : decodeOutcome sink.decoded.capacity granted msg with
    | none =>
      have hstats : sink'.stats.unexpectedCams = sink.stats.unexpectedCams := by
        rw [hledger, houtcome]
        rfl
      rw [hstats, if_neg (not_not.mpr rfl)]
      simp only [List.not_mem_nil, false_or, Option.elim_none, Option.toList_none,
        List.nil_append]
    | some f =>
      have hparse : parse msg = some f := by
        rw [decodeOutcome] at houtcome
        split_ifs at houtcome
        exact houtcome
      have hledger' : sink'.toLedger = observe sink.toLedger (some f) := by rw [hledger, houtcome]
      rw [hledger', hparse]
      exact counted_cons htabled f (acceptedFrames sink' history) id

/-- **The frames of a camera are checked with the bounds in force** when it has a record with these
bounds or gets a slot. -/
theorem forall_checks_boundedBy {sink : Ledger} (htabled : sink.Tabled) {id : UInt32}
    {outcomes : List (Option Contents)}
    (hid : id ∈ keySet Contents.cameraId outcomes.reduceOption) :
    (∀ check ∈ checksOf id sink outcomes,
      ∃ cam, check.against = some cam ∧ cam.BoundedBy sink.check sink.specs id) ↔
      sink.GetsSlot outcomes.reduceOption id ∧
        ∀ cam, sink.record id = some cam → cam.BoundedBy sink.check sink.specs id := by
  have hne : stream sink.policy.key outcomes.reduceOption id ≠ [] :=
    fun hnil ↦ (stream_eq_nil _).mp hnil hid
  have hfound := @Policy.forall_found_iff _ _ _ sink.policy _
    (fun cam ↦ cam.BoundedBy sink.check sink.specs id) (boundedBy_advance sink.check sink.specs id)
    hne (sink.policy.start sink.table outcomes.reduceOption id)
  rw [checksOf_eq htabled, Policy.looks_eq, List.forall_mem_map]
  apply hfound.trans
  obtain ⟨ids, rec, hby⟩ := htabled
  rw [← held_table hby, Table.held, Ledger.GetsSlot]
  by_cases hmem : id ∈ sink.table.keys
  · have hroom : sink.policy.HasRoom sink.table outcomes.reduceOption id := Or.inl hmem
    rw [Policy.start_of_mem hmem, if_pos hmem]
    simp [hroom]
  · rw [if_neg hmem, Policy.start, if_neg hmem]
    by_cases hroom : sink.policy.HasRoom sink.table outcomes.reduceOption id
    · rw [if_pos hroom]
      refine iff_of_true ⟨_, rfl, openCam_boundedBy sink.check sink.specs id⟩ ⟨hroom, ?_⟩
      intro cam hcam
      cases hcam
    · rw [if_neg hroom]
      refine iff_of_false ?_ fun h ↦ hroom h.1
      rintro ⟨cam, hcam, -⟩
      cases hcam

end Run

private theorem tabled_serveAll {sink : Sink} (htabled : sink.toLedger.Tabled)
    (hsized : sink.decoded.Sized) (calls : List (SinkRequest × Bool)) :
    (serveAll sink calls).toLedger.Tabled ∧ (serveAll sink calls).decoded.Sized := by
  induction calls generalizing sink with
  | nil => exact ⟨htabled, hsized⟩
  | cons call calls ih => exact ih (tabled_serve htabled _ _) (sized_serve _ hsized _)

/-- **When a table governs the messages behind it**: when every camera that sends one of them gets a
slot and, if it has one already, has the bounds of the table in its record and was counted before
if the table does not have it. -/
theorem governs_iff {check : Option SinkCheck} {sink₀ : Sink} (hnew : sinkNew check = some sink₀)
    (calls : List (SinkRequest × Bool)) {granted : Bool} {specs : List SinkCamSpec} {sink : Sink}
    (hexpect : sinkExpect granted (serveAll sink₀ calls) specs = (0, sink))
    (history : List (Bytes × Bool)) :
    Governs sink₀ calls granted specs sink history ↔
      ∀ id ∈ keySet Contents.cameraId (acceptedFrames sink history),
        sink.GetsSlot (acceptedFrames sink history) id ∧
        ∀ cam, (serveAll sink₀ calls).record id = some cam →
          cam.BoundedBy sink.check specs id ∧
          (specs ≠ [] → ¬Configured specs id → id ∈ unexpectedOf sink₀ calls) := by
  have hcalls := tabled_serveAll (tabled_sinkNew hnew) (fresh_sinkNew hnew).sized calls
  have hserve : (serve granted (serveAll sink₀ calls) (.expect specs)).2 = sink :=
    congrArg Prod.snd hexpect
  have htabled : sink.toLedger.Tabled := hserve ▸ tabled_serve hcalls.1 granted (.expect specs)
  have hsized : sink.decoded.Sized := hserve ▸ sized_serve granted hcalls.2 (.expect specs)
  obtain ⟨-, hspecs, -⟩ := sinkExpect_zero hexpect
  have hcams : sink.cams = (serveAll sink₀ calls).cams := by
    have hledger := congrArg Ledger.cams
      (sinkExpect_ledger granted (serveAll sink₀ calls) specs)
    rw [← hserve]
    exact hledger
  have hrecord (id : UInt32) : sink.record id = (serveAll sink₀ calls).record id := by
    rw [Ledger.record, hcams, Ledger.record]
  have hbounds (id : UInt32) (hid : id ∈ keySet Contents.cameraId (acceptedFrames sink history)) :=
    forall_checks_boundedBy htabled hid
  have hcounted (id : UInt32) :
      id ∈ unexpectedOf sink₀ (calls ++ (.expect specs, granted) :: receiving history) ↔
        id ∈ unexpectedOf sink₀ calls ∨ id ∈ unexpectedOf sink (receiving history) := by
    rw [unexpectedOf_append, unexpectedOf_expect hexpect, List.mem_append]
  rw [hspecs] at hbounds
  constructor
  · intro hgoverns id hid
    obtain ⟨hslot, hbounded⟩ := (hbounds id hid).mp (hgoverns.bounds id hid)
    refine ⟨hslot, fun cam hcam ↦ ⟨hbounded cam ((hrecord id).trans hcam), fun hne hnot ↦ ?_⟩⟩
    rcases (hcounted id).mp (hgoverns.counted id hid hne hnot) with hbefore | hafter
    · exact hbefore
    · -- a camera with a record is not counted any more
      obtain ⟨-, hmem, -⟩ := (mem_unexpectedOf_receiving htabled hsized history id).mp hafter
      rw [mem_keys_iff_record htabled, hrecord, hcam] at hmem
      exact absurd rfl hmem
  · intro h
    refine ⟨fun id hid ↦ ?_, fun id hid hne hnot ↦ ?_⟩
    · obtain ⟨hslot, hold⟩ := h id hid
      exact (hbounds id hid).mpr
        ⟨hslot, fun cam hcam ↦ (hold cam ((hrecord id).symm.trans hcam)).1⟩
    · obtain ⟨hslot, hold⟩ := h id hid
      rw [hcounted]
      cases hcam : (serveAll sink₀ calls).record id with
      | some cam => exact Or.inl ((hold cam hcam).2 hne hnot)
      | none =>
        refine Or.inr ((mem_unexpectedOf_receiving htabled hsized history id).mpr
          ⟨hid, ?_, hslot, hspecs ▸ hne, hspecs ▸ hnot⟩)
        rw [mem_keys_iff_record htabled, hrecord, hcam]
        exact Bool.false_ne_true

/-! ## Two cameras -/

def freshSink : Sink where
  check := ⟨.fin 0, .fin 1, 4⟩
  stats := .zero
  cams := List.replicate sinkMaxCameras .blank
  specs := []
  decoded := ⟨List.replicate 4 0, List.replicate 4 ⟨0⟩, 0, 0, 0, 0, 4⟩

private theorem sinkNew_freshSink : sinkNew (some ⟨.fin 0, .fin 1, 4⟩) = some freshSink := by
  decide +kernel

def roundAt (tNs : Int64) (sequence : UInt64) : List (Bytes × Bool) :=
  [(emptyMessage 3 tNs sequence, true), (emptyMessage 5 tNs sequence, true)]

/-- A table that bounds one of them and does not have the other. -/
def boundsThree : List SinkCamSpec := [⟨3, 2, .fin 0⟩]

/-- The table is registered before anything comes in. -/
theorem governs_first :
    ∃ sink, sinkExpect true (serveAll freshSink []) boundsThree = (0, sink) ∧
      Governs freshSink [] true boundsThree sink (roundAt 10 0) := by
  have hexpect : sinkExpect true (serveAll freshSink []) boundsThree
      = (0, { freshSink with specs := boundsThree }) := by decide +kernel
  refine ⟨_, hexpect, (governs_iff sinkNew_freshSink [] hexpect _).mpr ?_⟩
  have hids : keySet Contents.cameraId (acceptedFrames
      { freshSink with specs := boundsThree } (roundAt 10 0)) = {3, 5} := by decide +kernel
  intro id hid
  rw [hids, Finset.mem_insert, Finset.mem_singleton] at hid
  rcases hid with rfl | rfl
  · refine ⟨by decide +kernel, fun cam hcam ↦ ?_⟩
    rw [show (serveAll freshSink []).record 3 = none by decide +kernel] at hcam
    cases hcam
  · refine ⟨by decide +kernel, fun cam hcam ↦ ?_⟩
    rw [show (serveAll freshSink []).record 5 = none by decide +kernel] at hcam
    cases hcam

/-- Both have a slot when the table is registered: the bound is not taken up and the stranger is not
counted. -/
theorem not_governs_late :
    ∃ sink, sinkExpect true (serveAll freshSink (receiving (roundAt 10 0))) boundsThree
        = (0, sink) ∧
      (checksOf 3 sink.toLedger (decodeHistory sink.decoded.capacity (roundAt 11 1))).map
        (fun check ↦ check.against.map CamState.maxSites) = [some 4] ∧
      unexpectedOf freshSink (receiving (roundAt 10 0) ++ (.expect boundsThree, true) ::
        receiving (roundAt 11 1)) = [] ∧
      ¬Governs freshSink (receiving (roundAt 10 0)) true boundsThree sink (roundAt 11 1) := by
  have hcounted : unexpectedOf freshSink (receiving (roundAt 10 0) ++
      (.expect boundsThree, true) :: receiving (roundAt 11 1)) = [] := by decide +kernel
  have hexpect : sinkExpect true (serveAll freshSink (receiving (roundAt 10 0))) boundsThree
      = (0, (sinkExpect true (serveAll freshSink (receiving (roundAt 10 0))) boundsThree).2) := by
    decide +kernel
  refine ⟨_, hexpect, by decide +kernel, hcounted, fun hgoverns ↦ ?_⟩
  have hfive := hgoverns.counted 5 (by decide +kernel) (by decide) (by decide)
  rw [hcounted] at hfive
  exact absurd hfive List.not_mem_nil

end SparseCamera
