import SparseCamera.Sink.Reference

/-!
# The verdict

`sink_report` passes a run when something was received and no counter of violations moved. What
that says about the messages is decided by the table: frames of the first sixteen cameras are
checked, frames of any camera after those are received and dropped without a look. So the verdict
is right exactly when such frames hide nothing.

## The construction

Both sides of the verdict are turned into statements about cameras. On the side of the sink, a sum
of counts is zero when each count is, so the report passes exactly when the checked cameras are
clean. On the other side stands `Clean`, which is about all cameras. They differ by the cameras that
were not checked, and this difference is `Overlooked`.
-/

namespace SparseCamera

open KeyedHistory

/-- The frames of one camera respect every invariant of the pipeline. -/
structure CleanCamera (check : SinkCheck) (specs : List SinkCamSpec) (frames : List Contents)
    (id : UInt32) : Prop where
  stamps : (stream Contents.cameraId frames id).IsChain Advances
  sequences : (stream Contents.cameraId frames id).IsChain Follows
  indices : ∀ f ∈ stream Contents.cameraId frames id, IndicesGood check specs f
  values : ∀ f ∈ stream Contents.cameraId frames id, ValuesGood f
  configured : specs ≠ [] → Configured specs id

def framesOf (messages : List Bytes) : List Contents := (messages.map parse).reduceOption

/-- What a run has to look like to deserve a pass. -/
structure Clean (check : SinkCheck) (specs : List SinkCamSpec) (messages : List Bytes) : Prop where
  received : messages ≠ []
  parses : ∀ msg ∈ messages, WellFramed msg
  stamps : ∀ id, (stream Contents.cameraId (framesOf messages) id).IsChain Advances
  sequences : ∀ id, (stream Contents.cameraId (framesOf messages) id).IsChain Follows
  indices : ∀ f ∈ framesOf messages, IndicesGood check specs f
  values : ∀ f ∈ framesOf messages, ValuesGood f
  configured : specs ≠ [] → ∀ f ∈ framesOf messages, Configured specs f.cameraId

/-- A run whose only violations are by cameras that came too late for a slot. -/
structure Overlooked (check : SinkCheck) (specs : List SinkCamSpec) (messages : List Bytes) :
    Prop where
  parses : ∀ msg ∈ messages, WellFramed msg
  checked : ∀ id ∈ firstKeys Contents.cameraId sinkMaxCameras (framesOf messages),
    CleanCamera check specs (framesOf messages) id
  late : ∃ id ∈ keySet Contents.cameraId (framesOf messages),
    ¬CleanCamera check specs (framesOf messages) id

section Clean

variable {check : SinkCheck} {specs : List SinkCamSpec} {messages : List Bytes}

/-- A run is judged camera by camera. -/
theorem clean_iff : Clean check specs messages ↔
    messages ≠ [] ∧ (∀ msg ∈ messages, WellFramed msg) ∧
      ∀ id ∈ keySet Contents.cameraId (framesOf messages),
        CleanCamera check specs (framesOf messages) id := by
  constructor
  · intro h
    refine ⟨h.received, h.parses, fun id hid ↦ ?_⟩
    have hmem {f : Contents} (hf : f ∈ stream Contents.cameraId (framesOf messages) id) :
        f ∈ framesOf messages := (List.mem_filter.mp hf).1
    obtain ⟨f, hf, hfid⟩ := (mem_keySet _).mp hid
    exact ⟨h.stamps id, h.sequences id, fun f hf ↦ h.indices f (hmem hf),
      fun f hf ↦ h.values f (hmem hf), fun hspecs ↦ hfid ▸ h.configured hspecs f hf⟩
  · rintro ⟨hreceived, hparses, hcams⟩
    have hkey {f : Contents} (hf : f ∈ framesOf messages) :
        f.cameraId ∈ keySet Contents.cameraId (framesOf messages) :=
      (mem_keySet _).mpr ⟨f, hf, rfl⟩
    -- a camera that sent nothing breaks no rule
    have hchain {R : Contents → Contents → Prop} (id : UInt32)
        (h : id ∈ keySet Contents.cameraId (framesOf messages) →
          (stream Contents.cameraId (framesOf messages) id).IsChain R) :
        (stream Contents.cameraId (framesOf messages) id).IsChain R := by
      by_cases hid : id ∈ keySet Contents.cameraId (framesOf messages)
      · exact h hid
      · rw [(stream_eq_nil _).mpr hid]
        exact List.IsChain.nil
    exact ⟨hreceived, hparses, fun id ↦ hchain id fun hid ↦ (hcams id hid).stamps,
      fun id ↦ hchain id fun hid ↦ (hcams id hid).sequences,
      fun f hf ↦ (hcams _ (hkey hf)).indices f (mem_stream_self _ hf),
      fun f hf ↦ (hcams _ (hkey hf)).values f (mem_stream_self _ hf),
      fun hspecs f hf ↦ (hcams _ (hkey hf)).configured hspecs⟩

private theorem count_parse_eq_zero :
    (messages.map parse).count none = 0 ↔ ∀ msg ∈ messages, WellFramed msg := by
  rw [List.count_eq_zero, List.mem_map, not_exists]
  refine forall_congr' ?_
  intro msg
  rw [not_and, parse_eq_none, not_not]

end Clean

/-! ## What the counters decide

Six counters decide, and each of them is zero exactly when no message breaks the rule it counts, as
long as it has not wrapped. -/

section Verdict

variable {check : SinkCheck} {specs : List SinkCamSpec} {messages : List Bytes} {sink : Ledger}

private theorem forall_followed {P : Contents → Prop} (outcomes : List (Option Contents)) :
    (∀ f ∈ followed outcomes, P f) ↔
      ∀ id ∈ firstKeys Contents.cameraId sinkMaxCameras outcomes.reduceOption,
        ∀ f ∈ stream Contents.cameraId outcomes.reduceOption id, P f := by
  constructor
  · intro h id hid f hf
    have hkey := key_of_mem_stream _ hf
    refine h f (List.mem_filter.mpr ⟨(List.mem_filter.mp hf).1, ?_⟩)
    rw [decide_eq_true_eq, hkey]
    exact hid
  · intro h f hf
    obtain ⟨hmem, hkey⟩ := List.mem_filter.mp hf
    exact h f.cameraId (of_decide_eq_true hkey) f (mem_stream_self _ hmem)

private theorem brokenPairs_followed {R : Contents → Contents → Prop} [DecidableRel R]
    (outcomes : List (Option Contents)) :
    brokenPairs R (followed outcomes) = 0 ↔
      ∀ id ∈ firstKeys Contents.cameraId sinkMaxCameras outcomes.reduceOption,
        (stream Contents.cameraId outcomes.reduceOption id).IsChain R := by
  rw [brokenPairs_eq_zero]
  refine forall_congr' ?_
  intro id
  rw [← mem_keysOf, followed, keysOf_admitted]
  refine forall_congr' ?_
  intro hid
  rw [stream_admitted _ hid]

theorem eq_zero_of_ofNat {c : UInt64} {n : ℕ} (hc : c = UInt64.ofNat n) (hn : n < 2 ^ 64) :
    c = 0 ↔ n = 0 := by
  rw [← UInt64.toNat_inj, hc, UInt64.toNat_ofNat_of_lt' hn]
  rfl

/-- The verdict is the conjunction of what it looks at. -/
theorem sinkReport_eq_zero : sinkReport sink = 0 ↔ ¬sink.stats.received = 0 ∧
    sink.stats.badParse = 0 ∧ sink.stats.backwards = 0 ∧ sink.stats.seqGaps = 0 ∧
    sink.stats.badIndex = 0 ∧ sink.stats.badValue = 0 ∧ sink.stats.unexpectedCams = 0 := by
  simp only [sinkReport, ne_eq, ite_eq_right_iff, one_ne_zero, imp_false, not_or, not_not]

/-- **The verdict of the sink**: something was received, everything parsed, and the cameras that
have a slot are clean. -/
theorem sinkReport_eq_zero_iff (h : Accounts check specs (messages.map parse) sink)
    (hlt : messages.length < 2 ^ 64) :
    sinkReport sink = 0 ↔ messages ≠ [] ∧ (∀ msg ∈ messages, WellFramed msg) ∧
      ∀ id ∈ firstKeys Contents.cameraId sinkMaxCameras (framesOf messages),
        CleanCamera check specs (framesOf messages) id := by
  have hlen : (messages.map parse).length < 2 ^ 64 := by rwa [List.length_map]
  have hfollowed : (followed (messages.map parse)).length < 2 ^ 64 :=
    length_followed_le.trans_lt hlen
  have hreceived : sink.stats.received = 0 ↔ messages = [] := by
    rw [eq_zero_of_ofNat h.received hlen, List.length_map, List.length_eq_zero_iff]
  have hbadParse : sink.stats.badParse = 0 ↔ ∀ msg ∈ messages, WellFramed msg := by
    rw [eq_zero_of_ofNat h.badParse (List.count_le_length.trans_lt hlen), count_parse_eq_zero]
  have hbackwards := (eq_zero_of_ofNat h.backwards
    ((brokenPairs_le Advances _).trans_lt hfollowed)).trans (brokenPairs_followed _)
  have hseqGaps := (eq_zero_of_ofNat h.seqGaps
    ((brokenPairs_le Follows _).trans_lt hfollowed)).trans (brokenPairs_followed _)
  have hgood {P : Contents → Prop} [DecidablePred P] {c : UInt64}
      (hc : c = UInt64.ofNat ((followed (messages.map parse)).countP fun f ↦ ¬P f)) :
      c = 0 ↔ ∀ id ∈ firstKeys Contents.cameraId sinkMaxCameras (framesOf messages),
        ∀ f ∈ stream Contents.cameraId (framesOf messages) id, P f := by
    rw [eq_zero_of_ofNat hc (List.countP_le_length.trans_lt hfollowed), List.countP_eq_zero,
      framesOf, ← forall_followed]
    simp
  -- this counter has 32 bits, and the table has no more than sixteen slots
  have hunexpected : sink.stats.unexpectedCams = 0 ↔
      ∀ id ∈ firstKeys Contents.cameraId sinkMaxCameras (framesOf messages),
        specs ≠ [] → Configured specs id := by
    have hkeys : (keysOf Contents.cameraId (followed (messages.map parse))).length ≤ 16 := by
      rw [length_keysOf]
      exact card_keySet_admitted_le _ _ _
    rw [h.unexpectedCams, ← UInt32.toNat_inj,
      UInt32.toNat_ofNat_of_lt' ((List.countP_le_length.trans hkeys).trans_lt (by decide))]
    change List.countP _ _ = 0 ↔ _
    rw [List.countP_eq_zero, followed, keysOf_admitted]
    refine forall₂_congr ?_
    intro id _
    rw [decide_eq_true_eq, not_and, not_not]
  rw [sinkReport_eq_zero, not_congr hreceived, hbadParse, hbackwards, hseqGaps, hgood h.badIndex,
    hgood h.badValue, hunexpected]
  refine and_congr_right fun _ ↦ and_congr_right fun _ ↦ ⟨?_, fun hclean ↦ ?_⟩
  · rintro ⟨hstamps, hsequences, hindices, hvalues, hconfigured⟩ id hid
    exact ⟨hstamps id hid, hsequences id hid, hindices id hid, hvalues id hid, hconfigured id hid⟩
  · exact ⟨fun id hid ↦ (hclean id hid).stamps, fun id hid ↦ (hclean id hid).sequences,
      fun id hid ↦ (hclean id hid).indices, fun id hid ↦ (hclean id hid).values,
      fun id hid ↦ (hclean id hid).configured⟩

end Verdict

/-- A run of at most sixteen cameras that passed was clean, whatever the allocator answered. -/
theorem clean_of_sinkReport {sink : Sink} (h : sink.Fresh) (history : List (Bytes × Bool))
    (hlt : history.length < 2 ^ 64)
    (hids : (keySet Contents.cameraId (framesOf (history.map Prod.fst))).card ≤ sinkMaxCameras)
    (hreport : sinkReport (receive sink history).toLedger = 0) :
    Clean sink.check sink.specs (history.map Prod.fst) := by
  have hacc := accounts_receive h history hlt
  -- a refused allocation would have been counted as a message that does not parse
  have hparsed : none ∉ decodeHistory sink.decoded.capacity history := by
    have hbad := (sinkReport_eq_zero.mp hreport).2.1
    have hlen : (decodeHistory sink.decoded.capacity history).length < 2 ^ 64 := by
      rwa [length_decodeHistory]
    rw [eq_zero_of_ofNat hacc.badParse (List.count_le_length.trans_lt hlen)] at hbad
    exact List.count_eq_zero.mp hbad
  rw [decodeHistory_of_notMem _ hparsed, ← Function.comp_def, ← List.map_map] at hacc
  obtain ⟨hne, hparses, hchecked⟩ :=
    (sinkReport_eq_zero_iff hacc (by rwa [List.length_map])).mp hreport
  refine clean_iff.mpr ⟨hne, hparses, fun id hid ↦ hchecked id ?_⟩
  -- sixteen cameras all have a slot
  rw [firstKeys, List.take_of_length_le ((length_keysOf _ _).trans_le hids)]
  exact (mem_keysOf _).mpr hid

/-- **The verdict is sound and complete unless a late camera is overlooked.** With an allocator that
never refuses and fewer than `2 ^ 64` messages, a pass means a clean run for exactly those histories
in which no camera past the sixteenth holds the only violations. -/
theorem sinkReport_exact {check : Option SinkCheck} {sink : Sink} (hopened : Opened check sink)
    (messages : List Bytes) (hlt : messages.length < 2 ^ 64) :
    (sinkReport (receive sink (messages.map fun msg ↦ (msg, true))).toLedger = 0 ↔
      Clean sink.check sink.specs messages) ↔ ¬Overlooked sink.check sink.specs messages := by
  have hacc : Accounts sink.check sink.specs (messages.map parse)
      (receive sink (messages.map fun msg ↦ (msg, true))).toLedger := by
    have h := accounts_receive hopened.fresh (messages.map fun msg ↦ (msg, true))
      (by rwa [List.length_map])
    rwa [decodeHistory_granted _ (by simp), List.map_map] at h
  rw [sinkReport_eq_zero_iff hacc hlt, clean_iff]
  have hfirst : ∀ id ∈ firstKeys Contents.cameraId sinkMaxCameras (framesOf messages),
      id ∈ keySet Contents.cameraId (framesOf messages) :=
    fun id hid ↦ (mem_keysOf _).mp (List.mem_of_mem_take hid)
  constructor
  · -- the checked cameras make it a pass, and the late one is not clean
    rintro hiff ⟨hparses, hchecked, id, hid, hlate⟩
    have hne : messages ≠ [] := by
      rintro rfl
      exact absurd hid (Finset.notMem_empty _)
    exact hlate ((hiff.mp ⟨hne, hparses, hchecked⟩).2.2 id hid)
  · refine fun hseen ↦ ⟨?_, ?_⟩
    · rintro ⟨hne, hparses, hchecked⟩
      refine ⟨hne, hparses, fun id hid ↦ by_contra fun hlate ↦ ?_⟩
      exact hseen ⟨hparses, hchecked, id, hid, hlate⟩
    · rintro ⟨hne, hparses, hclean⟩
      exact ⟨hne, hparses, fun id hid ↦ hclean id (hfirst id hid)⟩

def pairSpecs : List SinkCamSpec := [⟨3, 1, .fin 500⟩, ⟨5, 1, .fin 0⟩]

/-- Two frames of each of them, where camera 5 goes on with the given number. -/
def pairMessages (sequence : UInt64) : List Bytes :=
  [emptyMessage 3 10 0, emptyMessage 5 11 7, emptyMessage 3 12 1, emptyMessage 5 12 sequence]

/-- If no frame is missing the run passes and is clean, and if one is it is neither. -/
theorem sinkReport_exact_pair :
    ∃ sink, Opened (some ⟨.fin 0, .fin 1, 4⟩) sink ∧ sink.specs = pairSpecs ∧
      (sinkReport (receive sink ((pairMessages 8).map fun msg ↦ (msg, true))).toLedger = 0 ∧
        Clean sink.check sink.specs (pairMessages 8)) ∧
      sinkReport (receive sink ((pairMessages 9).map fun msg ↦ (msg, true))).toLedger = 1 ∧
        ¬Clean sink.check sink.specs (pairMessages 9) := by
  obtain ⟨sink, hsink⟩ : ∃ sink, sinkNew (some ⟨.fin 0, .fin 1, 4⟩) = some sink := ⟨_, rfl⟩
  obtain ⟨sink', hexpect⟩ := sinkExpect_granted (fresh_sinkNew hsink).sized pairSpecs (by decide)
  have hopened : Opened (some ⟨.fin 0, .fin 1, 4⟩) sink' := .expect (.new hsink) hexpect
  have hspecs : sink'.specs = pairSpecs := (sinkExpect_zero hexpect).2.1
  -- both cameras have a slot, so neither is overlooked
  have hseen (sequence : UInt64) (hfew : (keysOf Contents.cameraId
      (framesOf (pairMessages sequence))).length ≤ sinkMaxCameras) :
      ¬Overlooked sink'.check sink'.specs (pairMessages sequence) := by
    rintro ⟨-, hchecked, id, hid, hlate⟩
    refine hlate (hchecked id ?_)
    rw [firstKeys, List.take_of_length_le hfew]
    exact (mem_keysOf _).mpr hid
  have hclean := (sinkReport_exact hopened (pairMessages 8) (by decide)).mpr
    (hseen 8 (by decide +kernel))
  have hgap := (sinkReport_exact hopened (pairMessages 9) (by decide)).mpr
    (hseen 9 (by decide +kernel))
  have hreports : sinkReport (receive sink'
        ((pairMessages 8).map fun msg ↦ (msg, true))).toLedger = 0 ∧
      sinkReport (receive sink' ((pairMessages 9).map fun msg ↦ (msg, true))).toLedger = 1 := by
    obtain rfl : sink' = (sinkExpect true sink pairSpecs).2 := (congrArg Prod.snd hexpect).symm
    obtain rfl := Option.some.inj hsink
    decide +kernel
  refine ⟨sink', hopened, hspecs, ⟨hreports.1, hclean.mp hreports.1⟩, hreports.2, fun h ↦ ?_⟩
  have hzero := hgap.mpr h
  rw [hreports.2] at hzero
  exact absurd hzero (by decide)

def sixteenSpecs : List SinkCamSpec := (List.range 16).map fun i ↦ ⟨.ofNat i, 0, .fin 0⟩

/-- One frame from each of the sixteen cameras and one from a camera nobody configured. -/
def seventeenMessages : List Bytes := (List.range 17).map fun i ↦ emptyMessage (.ofNat i) 10 0

/-- The seventeenth camera is unknown to the table and to the configuration, and the run passes. -/
theorem sinkReport_passes_seventeenth :
    ∃ sink sink', sinkNew (some ⟨.fin 0, .fin 1, 4⟩) = some sink ∧
      sinkExpect true sink sixteenSpecs = (0, sink') ∧
      sinkReport (receive sink' (seventeenMessages.map fun msg ↦ (msg, true))).toLedger = 0 ∧
      ¬Clean sink'.check sink'.specs seventeenMessages := by
  refine ⟨_, _, rfl, rfl, by decide +kernel, fun hclean ↦ ?_⟩
  have hframe : ∃ f ∈ framesOf seventeenMessages, f.cameraId = 16 := by decide +kernel
  obtain ⟨f, hf, hid⟩ := hframe
  have hconfigured := hclean.configured (by decide) f hf
  rw [hid] at hconfigured
  exact absurd hconfigured (by decide)

end SparseCamera
