import SparseCamera.Sink.Run

/-!
# The account read off a sink

The invariant describes the counters and the table as they lie in memory. Here they are read as
numbers: as long as fewer than `2 ^ 64` messages came in, no count has wrapped.

## The construction

A number below the width of its counter is read back unchanged, so each field of `Accounts` becomes
an equation about naturals. The records in the slots are those of the cameras that were followed, in
the order of their first frames.
-/

namespace SparseCamera

open KeyedHistory

/-- How many adjacent pairs of frames of one camera break a rule. -/
def brokenPairs (R : Contents → Contents → Prop) [DecidableRel R] (frames : List Contents) : ℕ :=
  keyedSum Contents.cameraId (fun a b ↦ if R a b then 0 else 1) frames

theorem brokenPairs_le (R : Contents → Contents → Prop) [DecidableRel R] (frames : List Contents) :
    brokenPairs R frames ≤ frames.length := by
  refine keyedSum_le _ (fun a b ↦ ?_) frames
  split_ifs
  · exact Nat.zero_le 1
  · exact le_rfl

theorem brokenPairs_eq_zero {R : Contents → Contents → Prop} [DecidableRel R]
    {frames : List Contents} :
    brokenPairs R frames = 0 ↔
      ∀ id ∈ keySet Contents.cameraId frames, (stream Contents.cameraId frames id).IsChain R :=
  keyedSum_ite_eq_zero _ frames

def Ledger.records (sink : Ledger) : List CamState := sink.cams.filter CamState.seen

theorem length_reduceOption_add_count (outcomes : List (Option Contents)) :
    outcomes.reduceOption.length + outcomes.count none = outcomes.length := by
  induction outcomes with
  | nil => rfl
  | cons outcome outcomes ih =>
    cases outcome with
    | none =>
      rw [List.reduceOption_cons_of_none, List.count_cons_self, List.length_cons]
      omega
    | some f =>
      rw [List.reduceOption_cons_of_some, List.count_cons_of_ne (by simp), List.length_cons,
        List.length_cons]
      omega

section Read

variable {check : SinkCheck} {specs : List SinkCamSpec} {outcomes : List (Option Contents)}
  {sink : Ledger}

theorem records_eq (h : Accounts check specs outcomes sink) :
    sink.records = (keysOf Contents.cameraId (followed outcomes)).map fun id ↦
      recordOf check specs id (stream Contents.cameraId (followed outcomes) id) := by
  rw [Ledger.records, h.cams, filter_tableOf]
  intro id
  obtain ⟨hseen, -, hid, -⟩ := recordOf_fixed check specs id
    (stream Contents.cameraId (followed outcomes) id)
  exact ⟨hseen, hid⟩

theorem map_cameraId_records (h : Accounts check specs outcomes sink) :
    sink.records.map CamState.cameraId = keysOf Contents.cameraId (followed outcomes) := by
  rw [records_eq h, List.map_map]
  refine (List.map_congr_left fun id _ ↦ ?_).trans (List.map_id _)
  exact (recordOf_fixed check specs id _).2.2.1

private theorem record_spec (h : Accounts check specs outcomes sink)
    (hlt : outcomes.length < 2 ^ 64)
    {cam : CamState} (hcam : cam ∈ sink.records) :
    cam.frames.toNat = (stream Contents.cameraId (followed outcomes) cam.cameraId).length ∧
      ∃ f, (stream Contents.cameraId (followed outcomes) cam.cameraId).getLast? = some f ∧
        cam.lastTNs = f.tNs ∧ cam.lastSeq = f.sequence := by
  rw [records_eq h] at hcam
  obtain ⟨id, hid, rfl⟩ := List.mem_map.mp hcam
  have hlen : (stream Contents.cameraId (followed outcomes) id).length < 2 ^ 64 :=
    ((length_stream_le _ _ _).trans length_followed_le).trans_lt hlt
  -- a slot is taken by a frame
  have hne : stream Contents.cameraId (followed outcomes) id ≠ [] :=
    fun hnil ↦ (stream_eq_nil _).mp hnil ((mem_keysOf _).mp hid)
  rw [(recordOf_fixed check specs id _).2.2.1, frames_recordOf, UInt64.toNat_ofNat_of_lt' hlen]
  refine ⟨rfl, ?_⟩
  obtain hnil | ⟨l, f, hl⟩ := (stream Contents.cameraId (followed outcomes) id).eq_nil_or_concat
  · exact absurd hnil hne
  · rw [List.concat_eq_append] at hl
    rw [hl]
    exact ⟨f, List.getLast?_concat, last_recordOf check specs id l f⟩

private theorem sum_frames_records (h : Accounts check specs outcomes sink)
    (hlt : outcomes.length < 2 ^ 64) :
    (sink.records.map fun cam ↦ cam.frames.toNat).sum = (followed outcomes).length := by
  have hframes (id : UInt32) : (recordOf check specs id
      (stream Contents.cameraId (followed outcomes) id)).frames.toNat
      = (stream Contents.cameraId (followed outcomes) id).length := by
    rw [frames_recordOf, UInt64.toNat_ofNat_of_lt']
    exact ((length_stream_le _ _ _).trans length_followed_le).trans_lt hlt
  rw [records_eq h, List.map_map]
  simp only [Function.comp_def, hframes]
  rw [← List.sum_toFinset _ (nodup_keysOf _ _), toFinset_keysOf]
  exact streamSum_length Contents.cameraId (followed outcomes)

private theorem toNat_of_le_followed (hlt : outcomes.length < 2 ^ 64) {c : UInt64} {n : ℕ}
    (hc : c = UInt64.ofNat n) (hn : n ≤ (followed outcomes).length) : c.toNat = n := by
  rw [hc, UInt64.toNat_ofNat_of_lt' ((hn.trans length_followed_le).trans_lt hlt)]

private theorem counters_read (h : Accounts check specs outcomes sink)
    (hlt : outcomes.length < 2 ^ 64) :
    sink.stats.backwards.toNat = brokenPairs Advances (followed outcomes) ∧
      sink.stats.seqGaps.toNat = brokenPairs Follows (followed outcomes) ∧
      sink.stats.badIndex.toNat
        = (followed outcomes).countP (fun f ↦ ¬IndicesGood check specs f) ∧
      sink.stats.badValue.toNat = (followed outcomes).countP fun f ↦ ¬ValuesGood f :=
  ⟨toNat_of_le_followed hlt h.backwards (brokenPairs_le Advances _),
    toNat_of_le_followed hlt h.seqGaps (brokenPairs_le Follows _),
    toNat_of_le_followed hlt h.badIndex List.countP_le_length,
    toNat_of_le_followed hlt h.badValue List.countP_le_length⟩

private theorem countP_keysOf (frames : List Contents) (p : UInt32 → Prop) [DecidablePred p] :
    (keysOf Contents.cameraId frames).countP (fun id ↦ p id)
      = ((keySet Contents.cameraId frames).filter p).card := by
  have hfilter : ((keysOf Contents.cameraId frames).filter fun id ↦ p id).toFinset
      = (keySet Contents.cameraId frames).filter p := by
    ext id
    simp [← toFinset_keysOf]
  rw [← hfilter, List.toFinset_card_of_nodup ((nodup_keysOf _ _).filter _),
    List.countP_eq_length_filter]

end Read

/-- **Sink accounting equals its per-camera reference.** A run of fewer than `2 ^ 64` messages
whose frames carry at most sixteen ids leaves in the sink, whatever the interleaving and whatever
the allocator answers, the counts over each camera's own stream. -/
theorem sink_accounting {check : Option SinkCheck} {sink : Sink} (hopened : Opened check sink)
    (history : List (Bytes × Bool)) (hlt : history.length < 2 ^ 64)
    (hids : (keySet Contents.cameraId
      (decodeHistory sink.decoded.capacity history).reduceOption).card ≤ 16) :
    let outcomes := decodeHistory sink.decoded.capacity history
    let frames := outcomes.reduceOption
    let ids := keySet Contents.cameraId frames
    let final := receive sink history
    let stats := final.stats
    ((∀ message ∈ history, message.2 = true) →
      outcomes = history.map fun message ↦ parse message.1) ∧
    stats.received.toNat = history.length ∧
    stats.badParse.toNat = outcomes.count none ∧
    (final.records.map CamState.cameraId).Nodup ∧
    (∀ id, id ∈ final.records.map CamState.cameraId ↔ id ∈ ids) ∧
    (∀ cam ∈ final.records,
      cam.frames.toNat = (stream Contents.cameraId frames cam.cameraId).length ∧
      ∃ f, (stream Contents.cameraId frames cam.cameraId).getLast? = some f ∧
        cam.lastTNs = f.tNs ∧ cam.lastSeq = f.sequence) ∧
    stats.received.toNat
      = stats.badParse.toNat + (final.records.map fun cam ↦ cam.frames.toNat).sum ∧
    stats.backwards.toNat = brokenPairs Advances frames ∧
    stats.seqGaps.toNat = brokenPairs Follows frames ∧
    stats.seqLost.toNat = keyedSum Contents.cameraId lostBetween frames % 2 ^ 64 ∧
    stats.badIndex.toNat = frames.countP (fun f ↦ ¬IndicesGood sink.check sink.specs f) ∧
    stats.badValue.toNat = frames.countP (fun f ↦ ¬ValuesGood f) ∧
    stats.camerasSeen.toNat = ids.card ∧
    stats.unexpectedCams.toNat
      = (ids.filter fun id ↦ sink.specs ≠ [] ∧ ¬Configured sink.specs id).card := by
  intro outcomes frames ids final stats
  have hacc : Accounts sink.check sink.specs outcomes final.toLedger :=
    accounts_receive hopened.fresh history hlt
  have hlen : outcomes.length < 2 ^ 64 := by rwa [length_decodeHistory]
  -- with sixteen ids every camera gets a slot
  have hfollowed : followed outcomes = frames := admitted_of_card_le _ hids
  have hkeys : (keysOf Contents.cameraId frames).length ≤ 16 := by
    rw [length_keysOf]
    exact hids
  have hreceived : stats.received.toNat = history.length := by
    rw [hacc.received, UInt64.toNat_ofNat_of_lt' hlen, length_decodeHistory]
  have hbadParse : stats.badParse.toNat = outcomes.count none := by
    rw [hacc.badParse, UInt64.toNat_ofNat_of_lt' (List.count_le_length.trans_lt hlen)]
  have hrecords := map_cameraId_records hacc
  have hsum := sum_frames_records hacc hlen
  obtain ⟨hbackwards, hseqGaps, hbadIndex, hbadValue⟩ := counters_read hacc hlen
  rw [hfollowed] at hrecords hsum hbackwards hseqGaps hbadIndex hbadValue
  refine ⟨decodeHistory_granted _, hreceived, hbadParse, ?_, ?_, ?_, ?_, hbackwards, hseqGaps,
    ?_, hbadIndex, hbadValue, ?_, ?_⟩
  · rw [hrecords]
    exact nodup_keysOf _ _
  · intro id
    rw [hrecords]
    exact mem_keysOf _
  · intro cam hcam
    have := record_spec hacc hlen hcam
    rwa [hfollowed] at this
  · rw [hreceived, hbadParse, hsum, Nat.add_comm, length_reduceOption_add_count,
      length_decodeHistory]
  · rw [hacc.seqLost, hfollowed]
    exact UInt64.toNat_ofNat'
  · rw [hacc.camerasSeen, hfollowed, UInt32.toNat_ofNat_of_lt' (hkeys.trans_lt (by decide)),
      length_keysOf]
  · have hcount : (keysOf Contents.cameraId frames).countP
        (fun id ↦ sink.specs ≠ [] ∧ ¬Configured sink.specs id) ≤ 16 :=
      List.countP_le_length.trans hkeys
    rw [hacc.unexpectedCams, hfollowed, UInt32.toNat_ofNat_of_lt' (hcount.trans_lt (by decide)),
      countP_keysOf]

/-- A message with no sites. -/
def emptyMessage (id : UInt32) (tNs : Int64) (sequence : UInt64) : Bytes :=
  FrameWireHeader.toBytes
    { format := frameWireFormat
      version := frameWireVersion
      flags := 0
      cameraId := id
      count := 0
      tNs := tNs
      sequence := sequence }

/-- Two cameras and a message that does not parse between their frames: one camera skips a frame,
the other sends the same stamp twice. -/
theorem sink_accounting_two :
    ∃ sink, Opened (some ⟨.fin 0, .fin 1, 4⟩) sink ∧
      let final := receive sink [(emptyMessage 3 10 0, true), (emptyMessage 5 11 7, true),
        ([0], true), (emptyMessage 3 12 3, true), (emptyMessage 5 11 8, true)]
      final.stats.received.toNat = 5 ∧ final.stats.badParse.toNat = 1 ∧
        final.stats.backwards.toNat = 1 ∧ final.stats.seqGaps.toNat = 1 ∧
        final.stats.seqLost.toNat = 2 ∧ final.stats.camerasSeen.toNat = 2 := by
  obtain ⟨sink, hsink⟩ : ∃ sink, sinkNew (some ⟨.fin 0, .fin 1, 4⟩) = some sink := ⟨_, rfl⟩
  refine ⟨sink, .new hsink, ?_⟩
  intro final
  have hgranted : decodeHistory sink.decoded.capacity
      [(emptyMessage 3 10 0, true), (emptyMessage 5 11 7, true), ([0], true),
        (emptyMessage 3 12 3, true), (emptyMessage 5 11 8, true)]
      = [parse (emptyMessage 3 10 0), parse (emptyMessage 5 11 7), none,
        parse (emptyMessage 3 12 3), parse (emptyMessage 5 11 8)] :=
    decodeHistory_granted _ (by decide)
  obtain ⟨-, hreceived, hbadParse, -, -, -, -, hbackwards, hgaps, hlost, -, -, hseen, -⟩ :=
    sink_accounting (.new hsink) [(emptyMessage 3 10 0, true), (emptyMessage 5 11 7, true),
      ([0], true), (emptyMessage 3 12 3, true), (emptyMessage 5 11 8, true)] (by decide)
      (by rw [hgranted]; decide +kernel)
  rw [hgranted] at hbadParse hbackwards hgaps hlost hseen
  refine ⟨hreceived, hbadParse.trans ?_, hbackwards.trans ?_, hgaps.trans ?_, hlost.trans ?_,
    hseen.trans ?_⟩
  all_goals decide +kernel

end SparseCamera
