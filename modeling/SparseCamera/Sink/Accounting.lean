import Mathlib.Data.List.ReduceOption
import SparseCamera.Sink.Table

/-!
# Sink accounting

The counters are updated message by message, each update looking only at the record of one camera.
Read over a whole history they are sums over the cameras of what happens in each camera's own
stream, whatever the interleaving. `Accounts` states this and every message preserves it.

A history is a list of decode outcomes: the frame a message carried, or `none`. The cameras that
found no slot in the table are the ones that are not `followed`.

## The invariant

`Accounts` has a field for every counter, each saying which sum over the history it holds, modulo
its width, and one for the table: the slots in order, each with what its camera's frames made of it.
A frame of a camera with a slot extends one stream by one entry. Its check sees the last record of
that stream, so it sees the last pair, and `keyedSum_concat` is the rest.

The record counts its frames in 64 bits and a count of zero is taken for a first frame, so the
invariant needs that no camera sends 2^64 of them (`Bounded`).
-/

namespace SparseCamera

open KeyedHistory

/-! ## What is counted

The rules of the checks, said of frames rather than of records. Two of them are about one frame and
two about a frame and the one before it. -/

/-- The bound on the support indices of a camera; 0 is no bound. -/
def boundOf (check : SinkCheck) (specs : List SinkCamSpec) (id : UInt32) : UInt32 :=
  (specs.find? fun spec ↦ spec.cameraId == id).elim check.maxSites SinkCamSpec.maxSites

def Configured (specs : List SinkCamSpec) (id : UInt32) : Prop := ∃ spec ∈ specs, spec.cameraId = id

instance (specs : List SinkCamSpec) (id : UInt32) : Decidable (Configured specs id) :=
  inferInstanceAs (Decidable (∃ spec ∈ specs, spec.cameraId = id))

/-- Every support index is below the camera's bound. -/
def IndicesGood (check : SinkCheck) (specs : List SinkCamSpec) (f : Contents) : Prop :=
  ∀ s ∈ f.support, boundOf check specs f.cameraId = 0 ∨ s < boundOf check specs f.cameraId

/-- Every signal value is finite and in `[0, 1]`. -/
def ValuesGood (f : Contents) : Prop :=
  ∀ v ∈ f.signal, v.isFinite = true ∧ 0 ≤ v.toRat ∧ v.toRat ≤ 1

def Advances (a b : Contents) : Prop := a.tNs < b.tNs

/-- No frame is missing in between. -/
def Follows (a b : Contents) : Prop := b.sequence = a.sequence + 1

instance (check : SinkCheck) (specs : List SinkCamSpec) (f : Contents) :
    Decidable (IndicesGood check specs f) :=
  inferInstanceAs (Decidable (∀ s ∈ f.support, _))

instance (f : Contents) : Decidable (ValuesGood f) :=
  inferInstanceAs (Decidable (∀ v ∈ f.signal, _))

instance : DecidableRel Advances := fun a b ↦ inferInstanceAs (Decidable (a.tNs < b.tNs))

instance : DecidableRel Follows := fun a b ↦
  inferInstanceAs (Decidable (b.sequence = a.sequence + 1))

/-- The frames missing between two neighbours; none if the counter went back. -/
def lostBetween (a b : Contents) : ℕ :=
  if ¬Follows a b ∧ a.sequence < b.sequence then b.sequence.toNat - a.sequence.toNat - 1 else 0

theorem openCam_maxSites (check : SinkCheck) (specs : List SinkCamSpec) (id : UInt32) :
    (openCam check specs .blank id).maxSites = boundOf check specs id := by
  rw [openCam, boundOf]
  cases specs.find? fun spec ↦ spec.cameraId == id with
  | none => rfl
  | some spec => rfl

theorem openCam_specKnown (check : SinkCheck) (specs : List SinkCamSpec) (id : UInt32) :
    (openCam check specs .blank id).specKnown = decide (Configured specs id) := by
  rw [openCam]
  cases hfind : specs.find? fun spec ↦ spec.cameraId == id with
  | none =>
    refine (decide_eq_false ?_).symm
    rintro ⟨spec, hspec, hid⟩
    exact List.find?_eq_none.mp hfind spec hspec (beq_iff_eq.mpr hid)
  | some spec =>
    refine (decide_eq_true ⟨spec, List.mem_of_find?_eq_some hfind, ?_⟩).symm
    simpa using List.find?_some hfind

private theorem any_indexBad (check : SinkCheck) (specs : List SinkCamSpec) (f : Contents) :
    f.support.any (indexBad (boundOf check specs f.cameraId))
      = decide (¬IndicesGood check specs f) := by
  rw [Bool.eq_iff_iff, decide_eq_true_eq, List.any_eq_true, IndicesGood]
  simp [indexBad, UInt32.not_lt]

theorem any_valueBad (f : Contents) : f.signal.any valueBad = decide (¬ValuesGood f) := by
  rw [Bool.eq_iff_iff, decide_eq_true_eq, List.any_eq_true, ValuesGood]
  push Not
  refine exists_congr fun v ↦ and_congr_right fun _ ↦ ?_
  cases hfin : v.isFinite with
  | false => simp [valueBad, hfin]
  | true => simp [valueBad, hfin, imp_iff_not_or]

/-! ## What one frame adds

Each check adds 0 or 1, or a number of lost frames, to a counter of its own. The equations have the
counters on one side and the sums on the other. -/

section Judge

variable (check : SinkCheck) (cam : CamState) (f : Contents) (stats : SinkStats)

private theorem checkStamp_eq :
    ∃ jitter, checkStamp check cam f stats = { stats with
      backwards := stats.backwards + if f.tNs ≤ cam.lastTNs then 1 else 0
      jitter := jitter } := by
  simp only [checkStamp]
  by_cases hback : f.tNs ≤ cam.lastTNs
  · exact ⟨stats.jitter, by rw [if_pos hback, if_pos hback]⟩
  · rw [if_neg hback, if_neg hback, UInt64.add_zero]
    split_ifs
    · exact ⟨stats.jitter + 1, rfl⟩
    · exact ⟨stats.jitter, rfl⟩
    · exact ⟨stats.jitter, rfl⟩

theorem checkSequence_eq :
    checkSequence cam f stats = { stats with
      seqGaps := stats.seqGaps + if f.sequence ≠ cam.lastSeq + 1 then 1 else 0
      seqLost := stats.seqLost
        + if f.sequence ≠ cam.lastSeq + 1 ∧ cam.lastSeq < f.sequence then
            f.sequence - cam.lastSeq - 1
          else 0 } := by
  rw [checkSequence]
  by_cases hseq : f.sequence = cam.lastSeq + 1
  · simp [hseq]
  · simp [hseq]

theorem checkEntries_eq :
    checkEntries cam f stats = { stats with
      badIndex := stats.badIndex + if f.support.any (indexBad cam.maxSites) then 1 else 0
      badValue := stats.badValue + if f.signal.any valueBad then 1 else 0 } := by
  simp only [checkEntries]
  cases f.support.any (indexBad cam.maxSites) with
  | false => cases f.signal.any valueBad <;> simp
  | true => cases f.signal.any valueBad <;> simp

/-- **What judging a frame adds** to each counter. -/
theorem judge_eq :
    ∃ jitter, judge check cam f stats = { stats with
      jitter := jitter
      backwards := stats.backwards + if 0 < cam.frames ∧ f.tNs ≤ cam.lastTNs then 1 else 0
      seqGaps := stats.seqGaps
        + if 0 < cam.frames ∧ f.sequence ≠ cam.lastSeq + 1 then 1 else 0
      seqLost := stats.seqLost
        + if 0 < cam.frames ∧ f.sequence ≠ cam.lastSeq + 1 ∧ cam.lastSeq < f.sequence then
            f.sequence - cam.lastSeq - 1
          else 0
      badIndex := stats.badIndex + if f.support.any (indexBad cam.maxSites) then 1 else 0
      badValue := stats.badValue + if f.signal.any valueBad then 1 else 0 } := by
  simp only [judge, checkEntries_eq]
  -- without an earlier frame there is nothing to compare with
  by_cases hframes : 0 < cam.frames
  · obtain ⟨jitter, hstamp⟩ := checkStamp_eq check cam f stats
    exact ⟨jitter, by simp only [hframes, if_true, true_and, checkSequence_eq, hstamp]⟩
  · exact ⟨stats.jitter, by simp only [hframes, if_false, false_and, UInt64.add_zero]⟩

end Judge

section Increments

variable {check : SinkCheck} {specs : List SinkCamSpec} {id : UInt32} {l : List Contents}
  {f : Contents}

/-- A check against a camera's record compares with the last frame of its stream, if any. -/
theorem increment_eq (hlt : l.length < 2 ^ 64) (P : Int64 → UInt64 → Prop)
    [∀ t s, Decidable (P t s)] (v : UInt64 → UInt64) (w : Contents → ℕ)
    (hw : ∀ b, (if P b.tNs b.sequence then v b.sequence else 0) = UInt64.ofNat (w b)) :
    (if 0 < (recordOf check specs id l).frames ∧
        P (recordOf check specs id l).lastTNs (recordOf check specs id l).lastSeq then
          v (recordOf check specs id l).lastSeq
      else 0) = UInt64.ofNat (l.getLast?.elim 0 w) := by
  have hpos := frames_recordOf_pos check specs id hlt
  -- either this is the camera's first frame or `b` was its last one
  obtain rfl | ⟨l, b, rfl⟩ := l.eq_nil_or_concat
  · rw [if_neg fun h ↦ hpos.mp h.1 rfl]
    rfl
  · rw [List.concat_eq_append] at hpos ⊢
    rw [(last_recordOf check specs id l b).1, (last_recordOf check specs id l b).2,
      List.getLast?_concat, Option.elim_some, ← hw]
    simp only [hpos.mpr (by simp), true_and]

private theorem backwards_increment (hlt : l.length < 2 ^ 64) :
    (if 0 < (recordOf check specs id l).frames ∧ f.tNs ≤ (recordOf check specs id l).lastTNs then 1
      else 0)
      = UInt64.ofNat (l.getLast?.elim 0 fun b ↦ if Advances b f then 0 else 1) := by
  refine increment_eq hlt (fun t _ ↦ f.tNs ≤ t) (fun _ ↦ 1) _ ?_
  intro b
  by_cases hadv : Advances b f
  · rw [if_pos hadv, if_neg (Int64.not_le.mpr hadv)]
    rfl
  · rw [if_neg hadv, if_pos (Int64.not_lt.mp hadv)]
    rfl

private theorem seqGaps_increment (hlt : l.length < 2 ^ 64) :
    (if 0 < (recordOf check specs id l).frames ∧
        f.sequence ≠ (recordOf check specs id l).lastSeq + 1 then 1 else 0)
      = UInt64.ofNat (l.getLast?.elim 0 fun b ↦ if Follows b f then 0 else 1) := by
  refine increment_eq hlt (fun _ s ↦ f.sequence ≠ s + 1) (fun _ ↦ 1) _ ?_
  intro b
  change (if ¬Follows b f then 1 else 0) = _
  by_cases hfol : Follows b f
  · rw [if_pos hfol, if_neg (not_not.mpr hfol)]
    rfl
  · rw [if_neg hfol, if_pos hfol]
    rfl

private theorem seqLost_increment (hlt : l.length < 2 ^ 64) :
    (if 0 < (recordOf check specs id l).frames ∧
        f.sequence ≠ (recordOf check specs id l).lastSeq + 1 ∧
        (recordOf check specs id l).lastSeq < f.sequence then
          f.sequence - (recordOf check specs id l).lastSeq - 1
      else 0)
      = UInt64.ofNat (l.getLast?.elim 0 fun b ↦ lostBetween b f) := by
  refine increment_eq hlt (fun _ s ↦ f.sequence ≠ s + 1 ∧ s < f.sequence)
    (fun s ↦ f.sequence - s - 1) _ fun b ↦ ?_
  change (if ¬Follows b f ∧ b.sequence < f.sequence then _ else 0) = _
  by_cases hlost : ¬Follows b f ∧ b.sequence < f.sequence
  · have hseq : b.sequence.toNat < f.sequence.toNat := UInt64.lt_iff_toNat_lt.mp hlost.2
    -- the counter went forward, so neither subtraction wraps
    have hsub : (f.sequence - b.sequence).toNat = f.sequence.toNat - b.sequence.toNat :=
      UInt64.toNat_sub_of_le _ _ (UInt64.le_iff_toNat_le.mpr hseq.le)
    have hone : (1 : UInt64) ≤ f.sequence - b.sequence := by
      rw [UInt64.le_iff_toNat_le, hsub]
      change 1 ≤ _
      omega
    rw [lostBetween, if_pos hlost, if_pos hlost, ← hsub]
    apply UInt64.toNat_inj.mp
    have hlt' : (f.sequence - b.sequence).toNat - 1 < 2 ^ 64 :=
      (Nat.sub_le _ _).trans_lt (f.sequence - b.sequence).toNat_lt
    rw [UInt64.toNat_sub_of_le _ _ hone, UInt64.toNat_ofNat_of_lt' hlt']
    rfl
  · rw [lostBetween, if_neg hlost, if_neg hlost]
    rfl

private theorem ofNat_countP_singleton (p : Contents → Bool) (f : Contents) :
    UInt64.ofNat ([f].countP p) = if p f then 1 else 0 := by
  rw [List.countP_singleton]
  split_ifs <;> rfl

end Increments

/-! ## The invariant -/

section Accounts

/-- The frames of the cameras that have a slot. -/
def followed (outcomes : List (Option Contents)) : List Contents :=
  admitted Contents.cameraId sinkMaxCameras outcomes.reduceOption

/-- What a sink knows after a history of decode outcomes. Each counter is a count over the history
in the counter's own width. -/
structure Accounts (check : SinkCheck) (specs : List SinkCamSpec)
    (outcomes : List (Option Contents)) (sink : Ledger) : Prop where
  check_eq : sink.check = check
  specs_eq : sink.specs = specs
  cams : sink.cams = tableOf (keysOf Contents.cameraId (followed outcomes)) fun id ↦
    recordOf check specs id (stream Contents.cameraId (followed outcomes) id)
  received : sink.stats.received = UInt64.ofNat outcomes.length
  badParse : sink.stats.badParse = UInt64.ofNat (outcomes.count none)
  backwards : sink.stats.backwards = UInt64.ofNat
    (keyedSum Contents.cameraId (fun a b ↦ if Advances a b then 0 else 1) (followed outcomes))
  seqGaps : sink.stats.seqGaps = UInt64.ofNat
    (keyedSum Contents.cameraId (fun a b ↦ if Follows a b then 0 else 1) (followed outcomes))
  seqLost : sink.stats.seqLost = UInt64.ofNat
    (keyedSum Contents.cameraId lostBetween (followed outcomes))
  badIndex : sink.stats.badIndex = UInt64.ofNat
    ((followed outcomes).countP fun f ↦ ¬IndicesGood check specs f)
  badValue : sink.stats.badValue = UInt64.ofNat
    ((followed outcomes).countP fun f ↦ ¬ValuesGood f)
  camerasSeen : sink.stats.camerasSeen = UInt32.ofNat
    (keysOf Contents.cameraId (followed outcomes)).length
  unexpectedCams : sink.stats.unexpectedCams = UInt32.ofNat
    ((keysOf Contents.cameraId (followed outcomes)).countP fun id ↦
      specs ≠ [] ∧ ¬Configured specs id)

variable {check : SinkCheck} {specs : List SinkCamSpec} {outcomes : List (Option Contents)}
  {sink : Ledger}

@[simp] theorem followed_concat_none :
    followed (outcomes ++ [none]) = followed outcomes := by
  simp [followed, List.reduceOption_append]

theorem followed_concat_some (f : Contents) :
    followed (outcomes ++ [some f])
      = if f.cameraId ∈ keysOf Contents.cameraId (followed outcomes) ∨
          (keysOf Contents.cameraId (followed outcomes)).length < sinkMaxCameras then
          followed outcomes ++ [f]
        else followed outcomes := by
  rw [followed, List.reduceOption_append, List.reduceOption_singleton, Option.toList_some,
    admitted_concat_of_room]
  rfl

theorem length_followed_le : (followed outcomes).length ≤ outcomes.length :=
  (List.length_filter_le _ _).trans (List.reduceOption_length_le _)

/-- No camera sent so many frames that the counter in its record wrapped. -/
def Bounded (outcomes : List (Option Contents)) : Prop :=
  ∀ id, (stream Contents.cameraId outcomes.reduceOption id).length < 2 ^ 64

theorem bounded_of_length_lt (h : outcomes.length < 2 ^ 64) : Bounded outcomes :=
  fun id ↦ ((length_stream_le _ _ id).trans (List.reduceOption_length_le _)).trans_lt h

theorem Bounded.of_append {rest : List (Option Contents)} (h : Bounded (outcomes ++ rest)) :
    Bounded outcomes := by
  intro id
  refine lt_of_le_of_lt ?_ (h id)
  rw [List.reduceOption_append, stream, stream, List.filter_append, List.length_append]
  exact Nat.le_add_right _ _

theorem Bounded.length_stream_lt (h : Bounded outcomes) (id : UInt32) :
    (stream Contents.cameraId (followed outcomes) id).length < 2 ^ 64 :=
  ((List.filter_sublist.filter _).length_le).trans_lt (h id)

theorem accounts_nil (hcams : sink.cams = List.replicate sinkMaxCameras .blank)
    (hstats : sink.stats = .zero) : Accounts sink.check sink.specs [] sink where
  check_eq := rfl
  specs_eq := rfl
  cams := hcams
  received := by rw [hstats]; rfl
  badParse := by rw [hstats]; rfl
  backwards := by rw [hstats]; rfl
  seqGaps := by rw [hstats]; rfl
  seqLost := by rw [hstats]; rfl
  badIndex := by rw [hstats]; rfl
  badValue := by rw [hstats]; rfl
  camerasSeen := by rw [hstats]; rfl
  unexpectedCams := by rw [hstats]; rfl

private theorem accounts_same (h : Accounts check specs outcomes sink)
    {outcomes' : List (Option Contents)} (hfollowed : followed outcomes' = followed outcomes)
    {received badParse : UInt64} (hreceived : received = UInt64.ofNat outcomes'.length)
    (hbadParse : badParse = UInt64.ofNat (outcomes'.count none)) :
    Accounts check specs outcomes' { sink with
      stats := { sink.stats with received := received, badParse := badParse } } where
  check_eq := h.check_eq
  specs_eq := h.specs_eq
  cams := by rw [hfollowed]; exact h.cams
  received := hreceived
  badParse := hbadParse
  backwards := by rw [hfollowed]; exact h.backwards
  seqGaps := by rw [hfollowed]; exact h.seqGaps
  seqLost := by rw [hfollowed]; exact h.seqLost
  badIndex := by rw [hfollowed]; exact h.badIndex
  badValue := by rw [hfollowed]; exact h.badValue
  camerasSeen := by rw [hfollowed]; exact h.camerasSeen
  unexpectedCams := by rw [hfollowed]; exact h.unexpectedCams

private theorem received_concat (h : Accounts check specs outcomes sink)
    (outcome : Option Contents) :
    sink.stats.received + 1 = UInt64.ofNat (outcomes ++ [outcome]).length := by
  rw [List.length_append, UInt64.ofNat_add, ← h.received]
  rfl

private theorem accounts_none (h : Accounts check specs outcomes sink) :
    Accounts check specs (outcomes ++ [none]) (observe sink none) := by
  refine accounts_same h followed_concat_none (received_concat h none) ?_
  rw [List.count_append, UInt64.ofNat_add, ← h.badParse]
  rfl

private theorem admitted_stats (f : Contents) (stats : SinkStats)
    (hseen : stats.camerasSeen
      = UInt32.ofNat (keysOf Contents.cameraId (followed outcomes)).length)
    (hunexpected : stats.unexpectedCams
      = UInt32.ofNat ((keysOf Contents.cameraId (followed outcomes)).countP fun id ↦
          specs ≠ [] ∧ ¬Configured specs id))
    (frames : List Contents) :
    let cam := recordOf check specs f.cameraId frames
    let stats' := if f.cameraId ∈ keysOf Contents.cameraId (followed outcomes) then stats
      else takeSlot specs cam stats
    stats' = { stats with
      camerasSeen := UInt32.ofNat
        (keysOf Contents.cameraId (followed outcomes ++ [f])).length
      unexpectedCams := UInt32.ofNat
        ((keysOf Contents.cameraId (followed outcomes ++ [f])).countP fun id ↦
          specs ≠ [] ∧ ¬Configured specs id) } := by
  have hknown : (recordOf check specs f.cameraId frames).specKnown
      = decide (Configured specs f.cameraId) :=
    (recordOf_fixed check specs f.cameraId frames).2.1.trans
      (openCam_specKnown check specs f.cameraId)
  simp only [keysOf_concat]
  by_cases hmem : f.cameraId ∈ keysOf Contents.cameraId (followed outcomes)
  · rw [if_pos hmem, if_pos hmem, ← hseen, ← hunexpected]
  · rw [if_neg hmem, if_neg hmem, List.length_append, UInt32.ofNat_add, ← hseen,
      List.countP_append, UInt32.ofNat_add, ← hunexpected, takeSlot, hknown]
    by_cases hcount : specs ≠ [] ∧ ¬Configured specs f.cameraId
    · simp [hcount]
    · simp [hcount]

/-- A frame of a followed camera updates that camera's record. -/
theorem validate_followed {frames : List Contents} (hcheck : sink.check = check)
    (hspecs : sink.specs = specs)
    (hcams : sink.cams = tableOf (keysOf Contents.cameraId frames) fun id ↦
      recordOf check specs id (stream Contents.cameraId frames id))
    {f : Contents} (hroom : f.cameraId ∈ keysOf Contents.cameraId frames ∨
      (keysOf Contents.cameraId frames).length < sinkMaxCameras) :
    validate sink f = { sink with
      stats := judge check
        (recordOf check specs f.cameraId (stream Contents.cameraId frames f.cameraId)) f
        (if f.cameraId ∈ keysOf Contents.cameraId frames then sink.stats
          else takeSlot specs
            (recordOf check specs f.cameraId (stream Contents.cameraId frames f.cameraId))
            sink.stats)
      cams := tableOf (keysOf Contents.cameraId (frames ++ [f])) fun id ↦
        recordOf check specs id (stream Contents.cameraId (frames ++ [f]) id) } := by
  subst hcheck hspecs
  have hrec (id : UInt32) := recordOf_fixed sink.check sink.specs id
    (stream Contents.cameraId frames id)
  have hnodup := nodup_keysOf Contents.cameraId frames
  -- only the record of the frame's own camera changes
  have hupdate : (Function.update
      (fun id ↦ recordOf sink.check sink.specs id (stream Contents.cameraId frames id)) f.cameraId
      (advance (recordOf sink.check sink.specs f.cameraId
        (stream Contents.cameraId frames f.cameraId)) f))
      = fun id ↦
        recordOf sink.check sink.specs id (stream Contents.cameraId (frames ++ [f]) id) := by
    funext id
    by_cases hid : f.cameraId = id
    · subst hid
      rw [Function.update_self, stream_concat_self, recordOf_concat]
    · rw [Function.update_of_ne (Ne.symm hid), stream_concat_of_ne _ hid]
  rw [keysOf_concat, ← hupdate]
  by_cases hmem : f.cameraId ∈ keysOf Contents.cameraId frames
  · rw [if_pos hmem, if_pos hmem]
    exact validate_of_mem hcams (fun id ↦ ⟨(hrec id).1, (hrec id).2.2.1⟩) hnodup hmem
  · -- a camera without a slot sent nothing yet, so its record is a blank one
    have hempty : stream Contents.cameraId frames f.cameraId = [] :=
      (stream_eq_nil _).mpr fun h ↦ hmem ((mem_keysOf _).mpr h)
    rw [if_neg hmem, if_neg hmem]
    refine validate_of_not_mem hcams (fun id ↦ ⟨(hrec id).1, (hrec id).2.2.1⟩) hnodup hmem
      (hroom.resolve_left hmem) ?_
    rw [hempty, recordOf_nil]

/-- A frame of a camera without a slot is received and not looked at. -/
theorem validate_unfollowed {frames : List Contents}
    (hcams : sink.cams = tableOf (keysOf Contents.cameraId frames) fun id ↦
      recordOf check specs id (stream Contents.cameraId frames id))
    {f : Contents} (hroom : ¬(f.cameraId ∈ keysOf Contents.cameraId frames ∨
      (keysOf Contents.cameraId frames).length < sinkMaxCameras)) :
    validate sink f = sink := by
  have hrec (id : UInt32) := recordOf_fixed check specs id
    (stream Contents.cameraId frames id)
  exact validate_of_full hcams (fun id ↦ ⟨(hrec id).1, (hrec id).2.2.1⟩)
    (fun h ↦ hroom (Or.inl h)) fun h ↦ hroom (Or.inr h)

/-- **A decoded frame keeps the account**, whether its camera is followed or not. -/
theorem accounts_some (h : Accounts check specs outcomes sink) (hbound : Bounded outcomes)
    (f : Contents) : Accounts check specs (outcomes ++ [some f]) (observe sink (some f)) := by
  have hcount : (outcomes ++ [some f]).count none = outcomes.count none := by
    rw [List.count_append]
    rfl
  have hcheck : (countReceived sink).check = check := h.check_eq
  have hcams : (countReceived sink).cams
      = tableOf (keysOf Contents.cameraId (followed outcomes)) fun id ↦
        recordOf check specs id (stream Contents.cameraId (followed outcomes) id) := h.cams
  change Accounts check specs (outcomes ++ [some f]) (validate (countReceived sink) f)
  by_cases hroom : f.cameraId ∈ keysOf Contents.cameraId (followed outcomes) ∨
      (keysOf Contents.cameraId (followed outcomes)).length < sinkMaxCameras
  · have hfollowed : followed (outcomes ++ [some f]) = followed outcomes ++ [f] := by
      rw [followed_concat_some, if_pos hroom]
    have hstream := hbound.length_stream_lt f.cameraId
    have hvalidate := validate_followed hcheck h.specs_eq h.cams hroom
    rw [admitted_stats f (countReceived sink).stats h.camerasSeen h.unexpectedCams] at hvalidate
    obtain ⟨jitter, hjudge⟩ := judge_eq check
      (recordOf check specs f.cameraId (stream Contents.cameraId (followed outcomes) f.cameraId)) f
      { (countReceived sink).stats with
        camerasSeen := UInt32.ofNat
          (keysOf Contents.cameraId (followed outcomes ++ [f])).length
        unexpectedCams := UInt32.ofNat
          ((keysOf Contents.cameraId (followed outcomes ++ [f])).countP fun id ↦
            specs ≠ [] ∧ ¬Configured specs id) }
    have hsites : (recordOf check specs f.cameraId
        (stream Contents.cameraId (followed outcomes) f.cameraId)).maxSites
        = boundOf check specs f.cameraId :=
      (recordOf_fixed check specs f.cameraId _).2.2.2.1.trans
        (openCam_maxSites check specs f.cameraId)
    rw [backwards_increment hstream, seqGaps_increment hstream, seqLost_increment hstream, hsites,
      any_indexBad, any_valueBad] at hjudge
    rw [hvalidate, hjudge]
    exact
      { check_eq := h.check_eq
        specs_eq := h.specs_eq
        cams := by rw [hfollowed]
        received := received_concat h _
        badParse := h.badParse.trans (by rw [hcount])
        backwards := by
          rw [hfollowed, keyedSum_concat, UInt64.ofNat_add, ← h.backwards]
          rfl
        seqGaps := by
          rw [hfollowed, keyedSum_concat, UInt64.ofNat_add, ← h.seqGaps]
          rfl
        seqLost := by
          rw [hfollowed, keyedSum_concat, UInt64.ofNat_add, ← h.seqLost]
          rfl
        badIndex := by
          rw [hfollowed, List.countP_append, UInt64.ofNat_add, ← h.badIndex, ofNat_countP_singleton]
          rfl
        badValue := by
          rw [hfollowed, List.countP_append, UInt64.ofNat_add, ← h.badValue, ofNat_countP_singleton]
          rfl
        camerasSeen := by rw [hfollowed]
        unexpectedCams := by rw [hfollowed] }
  · have hfollowed : followed (outcomes ++ [some f]) = followed outcomes := by
      rw [followed_concat_some, if_neg hroom]
    rw [validate_unfollowed hcams hroom]
    exact accounts_same h hfollowed (received_concat h _) (h.badParse.trans (by rw [hcount]))

theorem accounts_concat (h : Accounts check specs outcomes sink) (hbound : Bounded outcomes)
    (outcome : Option Contents) :
    Accounts check specs (outcomes ++ [outcome]) (observe sink outcome) := by
  cases outcome with
  | none => exact accounts_none h
  | some f => exact accounts_some h hbound f

/-- **The account holds along every run.** -/
theorem accounts_foldl (h : Accounts check specs outcomes sink) (rest : List (Option Contents))
    (hbound : Bounded (outcomes ++ rest)) :
    Accounts check specs (outcomes ++ rest) (rest.foldl observe sink) := by
  induction rest generalizing outcomes sink with
  | nil => simpa using h
  | cons outcome rest ih =>
    have hsplit : outcomes ++ outcome :: rest = outcomes ++ [outcome] ++ rest := by simp
    rw [hsplit] at hbound ⊢
    exact ih (accounts_concat h hbound.of_append.of_append outcome) hbound

end Accounts

end SparseCamera
