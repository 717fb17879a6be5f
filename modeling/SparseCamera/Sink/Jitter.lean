import SparseCamera.Sink.Cadence

/-!
# The jitter counter

Jitter is counted like the violations, pair by pair of one camera's frames, and is not one of them:
it does not make a run fail. `JitterCounted` is its account over a history, beside that of the other
counters. With it the counters as a whole, and every record, are a matter of the cameras' own
streams: two histories with the same streams leave the same behind, in whatever order the frames of
different cameras came in.
-/

namespace SparseCamera

open KeyedHistory

/-- The stamp advanced, by more or by less than the tolerance allows. -/
def OffBeat (check : SinkCheck) (specs : List SinkCamSpec) (a b : Contents) : Prop :=
  Advances a b ∧
    countsJitter check (openCam check specs .blank b.cameraId) (deltaMs b.tNs a.tNs) = true

instance (check : SinkCheck) (specs : List SinkCamSpec) : DecidableRel (OffBeat check specs) :=
  fun a b ↦ inferInstanceAs (Decidable (Advances a b ∧ _ = true))

/-- The account of the jitter counter. -/
def JitterCounted (check : SinkCheck) (specs : List SinkCamSpec) (outcomes : List (Option Contents))
    (sink : Ledger) : Prop :=
  sink.stats.jitter = UInt64.ofNat
    (keyedSum Contents.cameraId (fun a b ↦ if OffBeat check specs a b then 1 else 0)
      (followed outcomes))

section Account

variable {check : SinkCheck} {specs : List SinkCamSpec} {outcomes : List (Option Contents)}
  {sink : Ledger} {id : UInt32} {l : List Contents} {f : Contents}

private theorem countsJitter_congr {cam cam' : CamState}
    (h : cam.expectPeriodMs = cam'.expectPeriodMs)
    (dtMs : ExtRat) : countsJitter check cam dtMs = countsJitter check cam' dtMs := by
  rw [countsJitter, countsJitter, h]

private theorem faultsOf_jitter_first {cam : CamState} (h : ¬0 < cam.frames) :
    (faultsOf check cam f).jitter = 0 := by
  rw [faultsOf, judge, if_neg h, checkEntries_eq]
  exact UInt64.sub_self _

private theorem jitter_increment (hlt : l.length < 2 ^ 64) (hid : f.cameraId = id) :
    (faultsOf check (recordOf check specs id l) f).jitter
      = UInt64.ofNat (l.getLast?.elim 0 fun a ↦ if OffBeat check specs a f then 1 else 0) := by
  subst hid
  have hpos := frames_recordOf_pos check specs f.cameraId hlt
  obtain rfl | ⟨l, a, rfl⟩ := l.eq_nil_or_concat
  · rw [faultsOf_jitter_first fun h ↦ hpos.mp h rfl]
    rfl
  · rw [List.concat_eq_append] at hpos ⊢
    have hperiod := (recordOf_fixed check specs f.cameraId (l ++ [a])).2.2.2.2
    rw [faultsOf_jitter (hpos.mpr (by simp)), (last_recordOf check specs f.cameraId l a).1,
      countsJitter_congr hperiod, List.getLast?_concat, Option.elim_some]
    change (if OffBeat check specs a f then 1 else 0) = _
    split_ifs <;> rfl

/-- **One message.** -/
theorem JitterCounted.concat (hjitter : JitterCounted check specs outcomes sink)
    (h : Accounts check specs outcomes sink) (hbound : Bounded outcomes)
    (outcome : Option Contents) :
    JitterCounted check specs (outcomes ++ [outcome]) (observe sink outcome) := by
  rw [JitterCounted] at hjitter ⊢
  cases outcome with
  | none =>
    rw [followed_concat_none]
    exact hjitter
  | some f =>
    have hcheck : (countReceived sink).check = check := h.check_eq
    have hspecs : (countReceived sink).specs = specs := h.specs_eq
    have hcams : (countReceived sink).cams
        = tableOf (keysOf Contents.cameraId (followed outcomes)) fun id ↦
          recordOf check specs id (stream Contents.cameraId (followed outcomes) id) := h.cams
    change (validate (countReceived sink) f).stats.jitter = _
    rw [followed_concat_some]
    by_cases hroom : f.cameraId ∈ keysOf Contents.cameraId (followed outcomes) ∨
        (keysOf Contents.cameraId (followed outcomes)).length < sinkMaxCameras
    · rw [if_pos hroom, keyedSum_concat, UInt64.ofNat_add, ← hjitter,
        ← jitter_increment (hbound.length_stream_lt f.cameraId) rfl,
        validate_followed hcheck hspecs hcams hroom, judge_eq_add]
      -- taking a slot is not jitter
      split_ifs
      · rfl
      · rw [takeSlot]
        split_ifs <;> rfl
    · rw [if_neg hroom, validate_unfollowed hcams hroom]
      exact hjitter

/-- **Along every run.** -/
theorem JitterCounted.foldl (hjitter : JitterCounted check specs outcomes sink)
    (h : Accounts check specs outcomes sink) (rest : List (Option Contents))
    (hbound : Bounded (outcomes ++ rest)) :
    JitterCounted check specs (outcomes ++ rest) (rest.foldl observe sink) := by
  induction rest generalizing outcomes sink with
  | nil => simpa using hjitter
  | cons outcome rest ih =>
    have hsplit : outcomes ++ outcome :: rest = outcomes ++ [outcome] ++ rest := by simp
    rw [hsplit] at hbound ⊢
    have hbound' := hbound.of_append.of_append
    exact ih (hjitter.concat h hbound' outcome) (accounts_concat h hbound' outcome) hbound

end Account

/-! ## Order does not matter

All counters are sums over streams, and all records are folds over one. The order of the slots is
the one thing in the table that shows which camera came first. -/

section Shuffled

variable {check : SinkCheck} {specs : List SinkCamSpec}
  {outcomes outcomes' : List (Option Contents)} {sink sink' : Ledger}

/-- With few cameras every frame is followed. -/
theorem followed_of_card_le
    (h : (keySet Contents.cameraId outcomes.reduceOption).card ≤ sinkMaxCameras) :
    followed outcomes = outcomes.reduceOption := admitted_of_card_le _ h

/-- All the counters a history of decode outcomes leaves. -/
def countsOf (check : SinkCheck) (specs : List SinkCamSpec) (outcomes : List (Option Contents)) :
    SinkStats :=
  let frames := followed outcomes
  let pairs (w : Contents → Contents → ℕ) := UInt64.ofNat (keyedSum Contents.cameraId w frames)
  { received := .ofNat outcomes.length
    badParse := .ofNat (outcomes.count none)
    backwards := pairs fun a b ↦ if Advances a b then 0 else 1
    jitter := pairs fun a b ↦ if OffBeat check specs a b then 1 else 0
    seqGaps := pairs fun a b ↦ if Follows a b then 0 else 1
    seqLost := pairs lostBetween
    badIndex := .ofNat (frames.countP fun f ↦ ¬IndicesGood check specs f)
    badValue := .ofNat (frames.countP fun f ↦ ¬ValuesGood f)
    camerasSeen := .ofNat (keysOf Contents.cameraId frames).length
    unexpectedCams := .ofNat ((keysOf Contents.cameraId frames).countP fun id ↦
      specs ≠ [] ∧ ¬Configured specs id) }

/-- **All the counters.** -/
theorem Accounts.stats_eq (h : Accounts check specs outcomes sink)
    (hjitter : JitterCounted check specs outcomes sink) :
    sink.stats = countsOf check specs outcomes := by
  rw [JitterCounted] at hjitter
  simp only [countsOf]
  rw [← h.received, ← h.badParse, ← h.backwards, ← hjitter, ← h.seqGaps, ← h.seqLost,
    ← h.badIndex, ← h.badValue, ← h.camerasSeen, ← h.unexpectedCams]

theorem Accounts.record_eq (h : Accounts check specs outcomes sink) (id : UInt32) :
    sink.record id = if id ∈ keySet Contents.cameraId (followed outcomes) then
        some (recordOf check specs id (stream Contents.cameraId (followed outcomes) id))
      else none := by
  have hby : sink.TabledBy (keysOf Contents.cameraId (followed outcomes)) fun id ↦
      recordOf check specs id (stream Contents.cameraId (followed outcomes) id) := by
    refine ⟨h.cams, fun id ↦ ?_, nodup_keysOf _ _, ?_⟩
    · obtain ⟨hseen, -, hid, -⟩ := recordOf_fixed check specs id
        (stream Contents.cameraId (followed outcomes) id)
      exact ⟨hseen, hid⟩
    · rw [length_keysOf]
      exact card_keySet_admitted_le _ _ _
  rw [SparseCamera.record_eq hby]
  simp only [mem_keysOf]

/-- **The counters and the records do not depend on the interleaving** of at most sixteen
cameras. -/
theorem Accounts.shuffled (h : Accounts check specs outcomes sink)
    (hjitter : JitterCounted check specs outcomes sink)
    (h' : Accounts check specs outcomes' sink')
    (hjitter' : JitterCounted check specs outcomes' sink')
    (hstreams : Shuffled Contents.cameraId outcomes.reduceOption outcomes'.reduceOption)
    (hnone : outcomes.count none = outcomes'.count none)
    (hfew : (keySet Contents.cameraId outcomes.reduceOption).card ≤ sinkMaxCameras) :
    sink.stats = sink'.stats ∧ ∀ id, sink.record id = sink'.record id := by
  have hfollowed := followed_of_card_le hfew
  have hfollowed' : followed outcomes' = outcomes'.reduceOption :=
    followed_of_card_le (hstreams.keySet_eq ▸ hfew)
  rw [← hfollowed, ← hfollowed'] at hstreams
  have hlength : outcomes.length = outcomes'.length := by
    rw [← length_reduceOption_add_count outcomes, ← length_reduceOption_add_count outcomes', hnone,
      ← hfollowed, ← hfollowed', hstreams.perm.length_eq]
  have hsum (w : Contents → Contents → ℕ) :
      keyedSum Contents.cameraId w (followed outcomes)
        = keyedSum Contents.cameraId w (followed outcomes') := hstreams.streamSum_eq _
  refine ⟨?_, fun id ↦ ?_⟩
  · rw [h.stats_eq hjitter, h'.stats_eq hjitter', countsOf, countsOf, hlength, hnone]
    simp only [hsum, hstreams.perm.countP_eq, hstreams.keysOf_perm.countP_eq,
      hstreams.keysOf_perm.length_eq]
  · rw [h.record_eq, h'.record_eq, hstreams.keySet_eq, hstreams id]

end Shuffled

end SparseCamera
