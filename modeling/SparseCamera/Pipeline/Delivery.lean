import SparseCamera.Pipeline.Link
import SparseCamera.Sink.Verdict

/-!
# What the sink makes of mock cameras

The sink never sees a drop, it sees the numbers of the frames that were not dropped. Over a whole
execution its counters are the drops between delivered frames and nothing else: a mock camera breaks
none of the other rules.

## The construction

`Linked` is an invariant about lists of frames, and the account is about counters. In between stand
the numbers on the frames: camera by camera what the sink heard is a first part of the positions of
the sends, so the steps in what it heard are the runs of drops (`adjacentSum_positions`). The sums
over the cameras then come from `Accounts`, since the ids are distinct and the sink knows no others.
-/

namespace SparseCamera

open Execution KeyedHistory LossyStream

/-- The pipeline when the cameras are built and the sink knows what to expect. -/
def Pipeline.start (built : List (CameraCtx MockCtx × SinkCamSpec)) (sink : Sink) :
    Pipeline built.length MockCtx where
  cams i := (built.get i).1
  pipes _ := []
  sink := sink

/-- The id in the spec of camera `i`. -/
def idOf (built : List (CameraCtx MockCtx × SinkCamSpec)) (i : Fin built.length) : UInt32 :=
  (built.get i).2.cameraId

/-! ## The numbers on the frames

A camera counts its frames in 64 bits. Below 2^64 frames the numbers are the positions, and to be
the successor or to be smaller means the same for both. -/

/-- Sequence numbers are positions and do not wrap, so a gap between two frames is a gap between
their positions. -/
theorem follows_ofNat {s s' : ℕ} (hlt : s < s') (hs' : s' < 2 ^ 64) :
    (UInt64.ofNat s' = UInt64.ofNat s + 1 ↔ s' = s + 1) ∧
      (UInt64.ofNat s < UInt64.ofNat s') ∧
      (UInt64.ofNat s').toNat - (UInt64.ofNat s).toNat - 1 = s' - s - 1 := by
  have hs : s < 2 ^ 64 := hlt.trans hs'
  have hnext : s + 1 < 2 ^ 64 := Nat.lt_of_le_of_lt hlt hs'
  have hsucc : UInt64.ofNat s + 1 = UInt64.ofNat (s + 1) := (UInt64.ofNat_add s 1).symm
  rw [hsucc, ← UInt64.toNat_inj, UInt64.lt_iff_toNat_lt, UInt64.toNat_ofNat_of_lt' hs,
    UInt64.toNat_ofNat_of_lt' hs', UInt64.toNat_ofNat_of_lt' hnext]
  exact ⟨Iff.rfl, hlt, rfl⟩

/-- What the sink counts over the first frames of a mock camera: the runs of drops between them, and
the drops. -/
theorem Producing.gaps {id : UInt32} {total : ℕ} {camera : CameraCtx MockCtx}
    {sends : List Bool} {heard waiting : List Contents}
    (h : Producing id total camera sends (heard ++ waiting)) (hlt : sends.length < 2 ^ 64) :
    adjacentSum (fun a b ↦ if Follows a b then 0 else 1) heard = dropRuns sends heard.length ∧
      adjacentSum lostBetween heard = dropsBetween sends heard.length := by
  have hsent : heard.length ≤ sends.count true := by
    have := h.length_eq
    rw [List.length_append] at this
    omega
  obtain ⟨hruns, hdrops⟩ := adjacentSum_positions sends 0 heard.length hsent
  have hsequences : heard.map Contents.sequence
      = ((positions 0 sends).take heard.length).map UInt64.ofNat := by
    rw [List.map_take, ← h.sequences, List.map_append, List.take_left' (List.length_map _)]
  -- the numbers on the frames are the positions at which a send went through
  have hchain : ((positions 0 sends).take heard.length).IsChain
      fun s s' ↦ s < s' ∧ s' < 2 ^ 64 := by
    refine ((isChain_positions 0 sends).take heard.length).imp_of_mem_imp ?_
    intro s s' _ hs' hss'
    have := (mem_positions (List.mem_of_mem_take hs')).2
    exact ⟨hss', by omega⟩
  -- both weights only look at the sequence numbers
  have hweigh (g : UInt64 → UInt64 → ℕ) (g' : ℕ → ℕ → ℕ)
      (hg : ∀ s s', s < s' ∧ s' < 2 ^ 64 → g (UInt64.ofNat s) (UInt64.ofNat s') = g' s s') :
      adjacentSum (fun a b : Contents ↦ g a.sequence b.sequence) heard
        = adjacentSum g' ((positions 0 sends).take heard.length) := by
    rw [← adjacentSum_map g Contents.sequence, hsequences, adjacentSum_map]
    exact adjacentSum_congr hchain hg
  constructor
  · rw [← hruns]
    refine hweigh (fun s s' ↦ if s' = s + 1 then 0 else 1) _ ?_
    intro s s' hss'
    simp only [(follows_ofNat hss'.1 hss'.2).1]
  · rw [← hdrops]
    refine hweigh (fun s s' ↦ if ¬s' = s + 1 ∧ s < s' then s'.toNat - s.toNat - 1 else 0) _
      fun s s' hss' ↦ ?_
    obtain ⟨hfollows, hless, hsub⟩ := follows_ofNat hss'.1 hss'.2
    simp only [hfollows, hless, and_true, hsub]
    split_ifs
    · omega
    · rfl

/-! ## The start

The cameras are as `camera_new` leaves them and the sink has its table. No frame was made, so every
list of the invariant is empty. -/

section Start

variable {sections : List (MockSection × Int64)} {built : List (CameraCtx MockCtx × SinkCamSpec)}
  {check : Option SinkCheck} {sink₀ sink : Sink} {granted : Bool}

theorem injective_idOf (hbuild : buildMockCameras sections = some built) :
    Function.Injective (idOf built) := by
  obtain ⟨-, hnodup, -⟩ := buildMockCameras_spec hbuild
  intro i j hij
  have hget := List.nodup_iff_injective_getElem.mp hnodup
  have := @hget ⟨i, by simp⟩ ⟨j, by simp⟩ (by simpa [idOf] using hij)
  exact Fin.ext (by simpa using this)

private theorem boundOf_idOf (hbuild : buildMockCameras sections = some built) (check : SinkCheck)
    (i : Fin built.length) :
    boundOf check (built.map Prod.snd) (idOf built i) = (built.get i).2.maxSites ∧
      Configured (built.map Prod.snd) (idOf built i) := by
  obtain ⟨-, hnodup, -⟩ := buildMockCameras_spec hbuild
  have hmem : (built.get i).2 ∈ built.map Prod.snd :=
    List.mem_map.mpr ⟨built.get i, List.get_mem built i, rfl⟩
  have hconfigured : Configured (built.map Prod.snd) (idOf built i) := ⟨_, hmem, rfl⟩
  refine ⟨?_, hconfigured⟩
  cases hfind : (built.map Prod.snd).find? fun spec ↦ spec.cameraId == idOf built i with
  | none => exact absurd (beq_self_eq_true _) (List.find?_eq_none.mp hfind _ hmem)
  | some spec =>
    have hid : spec.cameraId = (built.get i).2.cameraId := by
      simpa [idOf] using List.find?_some hfind
    -- ids are distinct, so the entry that is found is the camera's own
    have hsame : spec = (built.get i).2 := by
      refine List.inj_on_of_nodup_map ?_ (List.mem_of_find?_eq_some hfind) hmem hid
      rwa [List.map_map]
    rw [boundOf, hfind, hsame]
    rfl

theorem linked_start (hbuild : buildMockCameras sections = some built)
    (hopened : Opened check sink₀)
    (hexpect : sinkExpect granted sink₀ (built.map Prod.snd) = (0, sink)) :
    Linked sink.check (built.map Prod.snd) (idOf built)
      (fun i ↦ (built.get i).2.maxSites.toNat) [] [] (fun _ ↦ []) (.start built sink) := by
  obtain ⟨-, -, hproducing⟩ := buildMockCameras_spec hbuild
  obtain ⟨-, hspecs, hwide⟩ := sinkExpect_zero hexpect
  have hfresh : sink.Fresh := (Opened.expect hopened hexpect).fresh
  refine ⟨fun i ↦ hproducing _ (List.get_mem built i), fun _ ↦ rfl, fun _ ↦ rfl, by simp, ?_,
    hfresh.sized, fun i ↦ ?_⟩
  · rw [← hspecs]
    exact accounts_nil hfresh.cams hfresh.stats
  · refine UInt32.le_iff_toNat_le.mp (hwide _ ?_)
    exact List.mem_map.mpr ⟨built.get i, List.get_mem built i, rfl⟩

end Start

/-! ## The account

Every claim about a counter is first made for one camera and then summed up. The checks that mock
cameras always pass contribute nothing. -/

section Account

variable {sections : List (MockSection × Int64)} {built : List (CameraCtx MockCtx × SinkCamSpec)}
  {check : SinkCheck} {steps : List (PipelineStep built.length Int64)} {heard : List Contents}
  {waiting : Fin built.length → List Contents} {p : Pipeline built.length MockCtx}

theorem Linked.followed (hbuild : buildMockCameras sections = some built)
    (h : Linked check (built.map Prod.snd) (idOf built) (fun i ↦ (built.get i).2.maxSites.toNat)
      steps heard waiting p) : followed (heard.map some) = heard := by
  obtain ⟨hlen, -, -⟩ := buildMockCameras_spec hbuild
  rw [SparseCamera.followed, reduceOption_map_some]
  refine admitted_of_card_le _ (le_trans ?_ hlen)
  have hsub : keySet Contents.cameraId heard ⊆ Finset.univ.image (idOf built) := by
    intro id hid
    obtain ⟨f, hf, rfl⟩ := (mem_keySet _).mp hid
    obtain ⟨i, hi⟩ := h.known f hf
    exact Finset.mem_image.mpr ⟨i, Finset.mem_univ i, hi.symm⟩
  refine (Finset.card_le_card hsub).trans (Finset.card_image_le.trans ?_)
  rw [Finset.card_univ, Fintype.card_fin]

theorem Linked.counters (hbuild : buildMockCameras sections = some built)
    (h : Linked check (built.map Prod.snd) (idOf built) (fun i ↦ (built.get i).2.maxSites.toNat)
      steps heard waiting p) :
    p.sink.stats.badParse = 0 ∧ p.sink.stats.badIndex = 0 ∧ p.sink.stats.badValue = 0 ∧
      p.sink.stats.backwards = 0 ∧ p.sink.stats.unexpectedCams = 0 := by
  have hfollowed := h.followed hbuild
  -- whatever was heard was produced by one of the cameras
  have hframe {f : Contents} (hf : f ∈ heard) :
      ∃ i, MockFrame (idOf built i) (built.get i).2.maxSites.toNat f := by
    obtain ⟨i, hi⟩ := h.known f hf
    refine ⟨i, (h.cameras i).frames f (List.mem_append_left _ ?_)⟩
    rw [← hi]
    exact mem_stream_self _ hf
  refine ⟨?_, ?_, ?_, ?_, ?_⟩
  · rw [h.accounts.badParse, List.count_eq_zero.mpr (by simp)]
    rfl
  · have hgood : heard.countP
        (fun f ↦ ¬IndicesGood check (built.map Prod.snd) f) = 0 := by
      rw [List.countP_eq_zero]
      intro f hf
      obtain ⟨i, hi⟩ := hframe hf
      rw [decide_eq_true_eq, not_not]
      intro s hs
      rw [hi.cameraId, (boundOf_idOf hbuild check i).1]
      exact Or.inr (UInt32.lt_iff_toNat_lt.mpr (hi.support s hs))
    rw [h.accounts.badIndex, hfollowed, hgood]
    rfl
  · have hgood : heard.countP (fun f ↦ ¬ValuesGood f) = 0 := by
      rw [List.countP_eq_zero]
      intro f hf
      obtain ⟨i, hi⟩ := hframe hf
      rw [decide_eq_true_eq, not_not]
      exact hi.values
    rw [h.accounts.badValue, hfollowed, hgood]
    rfl
  · have hchain : brokenPairs Advances heard = 0 := by
      rw [brokenPairs_eq_zero]
      intro id hid
      obtain ⟨f, hf, rfl⟩ := (mem_keySet _).mp hid
      obtain ⟨i, hi⟩ := h.known f hf
      rw [hi]
      exact (h.cameras i).stamps.left_of_append
    rw [h.accounts.backwards, hfollowed]
    exact congrArg UInt64.ofNat hchain
  · have hknown : (keysOf Contents.cameraId heard).countP
        (fun id ↦ built.map Prod.snd ≠ [] ∧ ¬Configured (built.map Prod.snd) id) = 0 := by
      rw [List.countP_eq_zero]
      intro id hid
      obtain ⟨f, hf, rfl⟩ := (mem_keySet _).mp ((mem_keysOf _).mp hid)
      obtain ⟨i, hi⟩ := h.known f hf
      rw [decide_eq_true_eq, not_and, not_not, hi]
      exact fun _ ↦ (boundOf_idOf hbuild check i).2
    rw [h.accounts.unexpectedCams, hfollowed, hknown]
    rfl

/-- The sums the sink keeps are over its cameras, each with what it heard of that camera. -/
theorem Linked.sums (hbuild : buildMockCameras sections = some built)
    (h : Linked check (built.map Prod.snd) (idOf built) (fun i ↦ (built.get i).2.maxSites.toNat)
      steps heard waiting p) (hlt : ∀ i, (sendsOf i steps).length < 2 ^ 64) :
    p.sink.stats.received = UInt64.ofNat (∑ i, receivedOf i steps) ∧
      p.sink.stats.seqGaps
        = UInt64.ofNat (∑ i, dropRuns (sendsOf i steps) (receivedOf i steps)) ∧
      p.sink.stats.seqLost
        = UInt64.ofNat (∑ i, dropsBetween (sendsOf i steps) (receivedOf i steps)) := by
  have hinj := injective_idOf hbuild
  have hfollowed := h.followed hbuild
  have hsum (i : Fin built.length) := (h.cameras i).gaps (hlt i)
  refine ⟨?_, ?_, ?_⟩
  · rw [h.accounts.received, List.length_map, ← streamSum_length Contents.cameraId,
      streamSum_eq_sum_family _ List.length_nil hinj h.known]
    exact congrArg _ (Finset.sum_congr rfl fun i _ ↦ h.received i)
  · rw [h.accounts.seqGaps, hfollowed, keyedSum,
      streamSum_eq_sum_family _ (adjacentSum_nil _) hinj h.known]
    refine congrArg _ (Finset.sum_congr rfl fun i _ ↦ ?_)
    rw [← h.received i]
    exact (hsum i).1
  · rw [h.accounts.seqLost, hfollowed, keyedSum,
      streamSum_eq_sum_family _ (adjacentSum_nil _) hinj h.known]
    refine congrArg _ (Finset.sum_congr rfl fun i _ ↦ ?_)
    rw [← h.received i]
    exact (hsum i).2

/-- The sink has one record for each camera it heard of, which counts what it heard. -/
theorem Linked.records (hbuild : buildMockCameras sections = some built)
    (h : Linked check (built.map Prod.snd) (idOf built) (fun i ↦ (built.get i).2.maxSites.toNat)
      steps heard waiting p) (i : Fin built.length) :
    (idOf built i ∈ p.sink.records.map CamState.cameraId ↔ 0 < receivedOf i steps) ∧
      ∀ cam ∈ p.sink.records, cam.cameraId = idOf built i →
        cam.frames = UInt64.ofNat (receivedOf i steps) := by
  have hfollowed := h.followed hbuild
  constructor
  · rw [map_cameraId_records h.accounts, hfollowed, mem_keysOf, ← h.received i,
      List.length_pos_iff, ne_eq, stream_eq_nil, not_not]
  · intro cam hcam hid
    rw [records_eq h.accounts, hfollowed] at hcam
    obtain ⟨id, -, rfl⟩ := List.mem_map.mp hcam
    rw [(recordOf_fixed check _ id _).2.2.1] at hid
    rw [frames_recordOf, hid, h.received i]

end Account

end SparseCamera
