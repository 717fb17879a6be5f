import SparseCamera.Lib.Running
import SparseCamera.Sink.Expect
import SparseCamera.Sink.Foreign

/-!
# The cadence check

The sink takes the time from one stamp of a camera to the next, judges it against the period the
camera is expected to have, and keeps count, sum and extremes of the times that are positive. Stamps
are whatever the messages say, and two of them can lie further apart than an `int64_t` can tell.
Then the subtraction wraps, and a stamp far ahead looks like one far behind. As long as no two
successive stamps do, the check and the statistics are exact (`cadenceExact_iff`).

## The invariant

`CamState.Holds` says that the statistics in a record are those of a list of times. They are
computed on the subtraction of two stamps, which is the time between them if the two are `Near`. So
as long as neighbours are near, the record of a camera holds the statistics of the positive times
between its frames. The condition concerns neighbours only: the stamps may drift as far as they
like.
-/

namespace SparseCamera

open KeyedHistory KeyedTable Running

/-- From one stamp to the next, in nanoseconds. -/
def gapNs (a b : Contents) : ℤ := b.tNs.toInt - a.tNs.toInt

/-- From one stamp to the next, in milliseconds. -/
def gapMs (a b : Contents) : ℚ := gapNs a b / 10 ^ 6

/-- The stamps are less than half the range of an `int64_t` apart. -/
def Near (a b : Contents) : Prop := -2 ^ 63 ≤ gapNs a b ∧ gapNs a b < 2 ^ 63

instance : DecidableRel Near := fun a b ↦
  inferInstanceAs (Decidable (-2 ^ 63 ≤ gapNs a b ∧ gapNs a b < 2 ^ 63))

/-- The positive times between the frames of a camera. -/
def positiveGaps (frames : List Contents) : List ℚ := (steps gapMs frames).filter (0 < ·)

/-- The time since the last stamp is out of tolerance. -/
def countsJitter (check : SinkCheck) (cam : CamState) (dtMs : ExtRat) : Bool :=
  ExtRat.lt (.fin 0) cam.expectPeriodMs &&
    (dtMs.lt (cam.expectPeriodMs * (.fin 1 - check.tol)) ||
      (cam.expectPeriodMs * (.fin 1 + check.tol)).lt dtMs)

/-- The record tells count, sum and extremes of these times. -/
structure DeltasExact (cam : CamState) (gaps : List ℚ) : Prop where
  count : cam.dtN.toNat = gaps.length
  sum : cam.dtSumMs = .fin gaps.sum
  extremes : gaps ≠ [] → ∃ m M, cam.dtMinMs = .fin m ∧ cam.dtMaxMs = .fin M ∧
    IsLeast {gap | gap ∈ gaps} m ∧ IsGreatest {gap | gap ∈ gaps} M ∧
    m ≤ gaps.sum / gaps.length ∧ gaps.sum / gaps.length ≤ M

/-- **The cadence of a camera is judged exactly**, given the record it ends with and the checks of
its frames. -/
structure CadenceExact (p tol : ℚ) (frames : List Contents)
    (result : Option CamState × List Check) : Prop where
  inRange : ∀ k a b, frames[k]? = some a → frames[k + 1]? = some b →
    b.tNs.toBitVec.ssubOverflow a.tNs.toBitVec = false
  jitter : ∀ k a b, frames[k]? = some a → frames[k + 1]? = some b →
    ∃ check, result.2[k + 1]? = some check ∧ check.added.jitter =
      if a.tNs < b.tNs ∧ gapMs a b ∉ Set.Icc (p * (1 - tol)) (p * (1 + tol)) then 1 else 0
  deltas : frames ≠ [] → ∃ cam, result.1 = some cam ∧ DeltasExact cam (positiveGaps frames)

/-! ## One pair

A subtraction of two `int64_t` wraps exactly if the difference is not an `int64_t`. The sign of what
comes out is then wrong as well. -/

section Pair

variable {a b : Contents}

private theorem near_iff : Near a b ↔ b.tNs.toBitVec.ssubOverflow a.tNs.toBitVec = false := by
  have hbound (n : ℤ) : (-2 ^ 63 ≤ n ∧ n < 2 ^ 63) ↔ ¬(2 ^ 63 ≤ n ∨ n < -2 ^ 63) := by omega
  rw [Near, hbound, BitVec.ssubOverflow, ← Bool.decide_or, decide_eq_false_iff_not]
  rfl

theorem deltaMs_of_near (h : Near a b) : deltaMs b.tNs a.tNs = .fin (gapMs a b) := by
  have hsub : (b.tNs - a.tNs).toInt = gapNs a b :=
    BitVec.toInt_sub_of_not_ssubOverflow (by rw [near_iff.mp h]; exact Bool.false_ne_true)
  rw [deltaMs, hsub]
  exact ExtRat.div_fin (by norm_num)

private theorem gapMs_lt (h : Near a b) : gapMs a b < 10 ^ 18 := by
  have hlt : (gapNs a b : ℚ) < 2 ^ 63 := by exact_mod_cast h.2
  rw [gapMs, div_lt_iff₀ (by norm_num)]
  exact hlt.trans (by norm_num)

end Pair

/-! ## The record

The record starts from extremes that no time reaches: two near stamps are less than 10^18
milliseconds apart. -/

/-- The statistics in a record. -/
structure CamState.Holds (cam : CamState) (stats : Stats ℚ) : Prop where
  count : cam.dtN = .ofNat stats.count
  sum : cam.dtSumMs = .fin stats.sum
  min : cam.dtMinMs = .fin stats.min
  max : cam.dtMaxMs = .fin stats.max

section Record

variable {check : SinkCheck} {specs : List SinkCamSpec} {id : UInt32} {cam : CamState}
  {stats : Stats ℚ} {frames : List Contents} {a b : Contents}

private theorem openCam_holds :
    (openCam check specs .blank id).Holds (.ofList (-10 ^ 18) (10 ^ 18) []) := by
  rw [openCam]
  cases specs.find? fun spec ↦ spec.cameraId == id with
  | none => exact ⟨rfl, rfl, rfl, rfl⟩
  | some spec => exact ⟨rfl, rfl, rfl, rfl⟩

/-- **One delta** is pushed onto the statistics if it is positive. -/
theorem recordDelta_holds (h : cam.Holds stats) (hnear : Near a b) (hlast : cam.lastTNs = a.tNs) :
    (recordDelta cam b.tNs).Holds (if 0 < gapMs a b then stats.push (gapMs a b) else stats) := by
  simp only [recordDelta, hlast, deltaMs_of_near hnear, ExtRat.lt_fin, decide_eq_true_eq]
  by_cases hpos : 0 < gapMs a b
  · rw [if_pos hpos, if_pos hpos]
    refine ⟨?_, ?_, ?_, ?_⟩
    · rw [Stats.push, UInt64.ofNat_add, ← h.count]
      rfl
    · rw [h.sum]
      rfl
    · simp only [h.min, ExtRat.lt_fin, decide_eq_true_eq, Stats.push]
      exact (apply_ite ExtRat.fin _ _ _).symm
    · simp only [h.max, ExtRat.lt_fin, decide_eq_true_eq, Stats.push]
      exact (apply_ite ExtRat.fin _ _ _).symm
  · rw [if_neg hpos, if_neg hpos]
    exact h

private theorem advance_holds (h : cam.Holds stats) (hframes : 0 < cam.frames) (hnear : Near a b)
    (hlast : cam.lastTNs = a.tNs) :
    (advance cam b).Holds (if 0 < gapMs a b then stats.push (gapMs a b) else stats) := by
  obtain ⟨hcount, hsum, hmin, hmax⟩ := recordDelta_holds h hnear hlast
  rw [advance, if_pos hframes]
  exact ⟨hcount, hsum, hmin, hmax⟩

private theorem positiveGaps_concat (l : List Contents) (a b : Contents) :
    positiveGaps (l ++ [a, b])
      = positiveGaps (l ++ [a]) ++ if 0 < gapMs a b then [gapMs a b] else [] := by
  rw [positiveGaps, positiveGaps, steps_concat, List.filter_append]
  congr 1
  split_ifs with hpos
  · exact List.filter_cons_of_pos (decide_eq_true hpos)
  · exact List.filter_cons_of_neg (by simpa using hpos)

/-- **A camera's record holds the statistics of its stream.** -/
theorem recordOf_holds (hnear : frames.IsChain Near) (hlen : frames.length ≤ 2 ^ 64) :
    (recordOf check specs id frames).Holds
      (.ofList (-10 ^ 18) (10 ^ 18) (positiveGaps frames)) := by
  induction frames using List.reverseRecOn with
  | nil => exact openCam_holds
  | append_singleton l b ih =>
    rw [List.length_append, List.length_singleton] at hlen
    have hl := ih hnear.left_of_append (by omega)
    have hpos := @frames_recordOf_pos check specs id l (by omega)
    rw [recordOf_concat]
    obtain rfl | ⟨l, a, rfl⟩ := l.eq_nil_or_concat
    · -- the first frame has nothing before it
      have hfirst : ¬0 < (recordOf check specs id []).frames := fun h ↦ hpos.mp h rfl
      obtain ⟨hcount, hsum, hmin, hmax⟩ := hl
      rw [advance, if_neg hfirst]
      exact ⟨hcount, hsum, hmin, hmax⟩
    · rw [List.concat_eq_append] at hl hpos hnear ⊢
      rw [List.append_assoc, List.singleton_append] at hnear ⊢
      have hpair : Near a b := (List.isChain_append_cons_cons.mp hnear).2.1
      have h := advance_holds hl (hpos.mpr (by simp)) hpair (last_recordOf check specs id l a).1
      rw [positiveGaps_concat]
      split_ifs at h ⊢
      · rwa [ofList_concat]
      · rwa [List.append_nil]

private theorem positiveGaps_mem (hnear : frames.IsChain Near) {gap : ℚ}
    (hgap : gap ∈ positiveGaps frames) : -10 ^ 18 < gap ∧ gap < 10 ^ 18 := by
  obtain ⟨hmem, hpos⟩ := List.mem_filter.mp hgap
  have hlt : ∀ gap ∈ steps gapMs frames, gap < 10 ^ 18 :=
    forall_mem_steps.mpr (hnear.imp fun _ _ ↦ gapMs_lt)
  refine ⟨lt_trans (by norm_num) (of_decide_eq_true hpos), hlt gap hmem⟩

private theorem length_positiveGaps_lt (hlen : frames.length ≤ 2 ^ 64) :
    (positiveGaps frames).length < 2 ^ 64 := by
  have hle := List.length_filter_le (fun gap : ℚ ↦ decide (0 < gap)) (steps gapMs frames)
  rw [length_steps] at hle
  rw [positiveGaps]
  omega

/-- **The statistics of a stream are exact.** -/
theorem recordOf_deltasExact (hnear : frames.IsChain Near) (hlen : frames.length ≤ 2 ^ 64) :
    DeltasExact (recordOf check specs id frames) (positiveGaps frames) := by
  obtain ⟨hcount, hsum, hmin, hmax⟩ := @recordOf_holds check specs id frames hnear hlen
  refine ⟨?_, ?_, fun hne ↦ ⟨_, _, hmin, hmax, ?_⟩⟩
  · rw [hcount, ofList_eq, UInt64.toNat_ofNat_of_lt' (length_positiveGaps_lt hlen)]
  · rw [hsum, ofList_eq]
  · have hleast := @isLeast_min _ _ _ (-10 ^ 18) _ _
      (fun gap hgap ↦ (positiveGaps_mem hnear hgap).2) hne
    have hgreatest := @isGreatest_max _ _ _ _ (10 ^ 18) _
      (fun gap hgap ↦ (positiveGaps_mem hnear hgap).1) hne
    exact ⟨hleast, hgreatest, le_mean hne hleast.2, mean_le hne hgreatest.2⟩

/-- **What a frame adds to the jitter counter.** -/
theorem faultsOf_jitter (hframes : 0 < cam.frames) : (faultsOf check cam b).jitter =
    if cam.lastTNs < b.tNs ∧ countsJitter check cam (deltaMs b.tNs cam.lastTNs) = true then 1
    else 0 := by
  have hstamp : (faultsOf check cam b).jitter = (checkStamp check cam b .zero).jitter := by
    rw [faultsOf, judge, if_pos hframes, checkEntries_eq, checkSequence_eq]
    exact UInt64.sub_zero _
  rw [hstamp, countsJitter]
  simp only [checkStamp, Bool.and_eq_true]
  by_cases hadv : cam.lastTNs < b.tNs
  · rw [if_neg (Int64.not_le.mpr hadv)]
    simp only [hadv, true_and]
    by_cases hperiod : ExtRat.lt (.fin 0) cam.expectPeriodMs = true
    · simp only [hperiod, true_and, if_true]
      exact apply_ite SinkStats.jitter _ _ _
    · rw [if_neg hperiod, if_neg fun h ↦ hperiod h.1]
      rfl
  · rw [if_pos (Int64.not_lt.mp hadv), if_neg fun h ↦ hadv h.1]
    rfl

theorem countsJitter_iff {p tol d : ℚ} (hperiod : cam.expectPeriodMs = .fin p) (hp : 0 < p)
    (htol : check.tol = .fin tol) :
    countsJitter check cam (.fin d) = true ↔ d ∉ Set.Icc (p * (1 - tol)) (p * (1 + tol)) := by
  rw [countsJitter, hperiod, htol, ExtRat.sub_fin, ExtRat.add_fin, ExtRat.mul_fin, ExtRat.mul_fin,
    ExtRat.lt_fin, ExtRat.lt_fin, ExtRat.lt_fin, decide_eq_true hp, Bool.true_and, Bool.or_eq_true,
    decide_eq_true_eq, decide_eq_true_eq, Set.mem_Icc, not_and_or, not_le, not_le]

end Record

/-! ## The whole stream

If two neighbours are too far apart, the check of the second one goes wrong or its statistics do.
That is enough, since the statement is about all of them. -/

section Stream

variable {check : Option SinkCheck} {sink : Sink} {id : UInt32} {messages : List Bytes} {p tol : ℚ}

private theorem recorded_new (htabled : sink.toLedger.Tabled) (hsized : sink.decoded.Sized)
    (hnew : sink.record id = none) (hslot : sink.GetsSlot (framesOf messages) id) :
    recorded id sink messages =
      (if stream Contents.cameraId (framesOf messages) id = [] then none
        else some (recordOf sink.check sink.specs id
          (stream Contents.cameraId (framesOf messages) id)),
      (sink.policy.found (some (openCam sink.check sink.specs .blank id))
        (stream Contents.cameraId (framesOf messages) id)).map (checkOf sink.check)) := by
  have hheld : sink.table.held id = none := by
    obtain ⟨ids, rec, hby⟩ := htabled
    rw [held_table hby, hnew]
  have hmem : id ∉ sink.table.keys := by
    intro hmem
    rw [Table.held, if_pos hmem] at hheld
    cases hheld
  have hstart : sink.policy.start sink.table (framesOf messages) id
      = some (openCam sink.check sink.specs .blank id) := by
    rw [Ledger.GetsSlot] at hslot
    rw [Policy.start, if_pos hslot, if_neg hmem]
    rfl
  rw [recorded_eq_stream htabled hsized, hstart, hheld]
  rfl

/-- **When the cadence of a camera is judged exactly**: when no two successive stamps are further
apart than an `int64_t` tells. -/
theorem cadenceExact_iff (hserved : Served check sink) (hnew : sink.record id = none)
    (hslot : sink.GetsSlot (framesOf messages) id)
    (hlen : (stream Contents.cameraId (framesOf messages) id).length ≤ 2 ^ 64)
    (hperiod : periodOf sink.check sink.specs id = .fin p) (hp : 0 < p)
    (htol : sink.check.tol = .fin tol) :
    CadenceExact p tol (stream Contents.cameraId (framesOf messages) id)
        (recorded id sink messages) ↔
      (stream Contents.cameraId (framesOf messages) id).IsChain Near := by
  obtain ⟨htabled, hsized⟩ := hserved.tabled
  rw [recorded_new htabled hsized hnew hslot]
  generalize stream Contents.cameraId (framesOf messages) id = frames at hlen ⊢
  constructor
  · intro h
    rw [List.isChain_iff_getElem]
    intro k hk
    exact near_iff.mpr (h.inRange k _ _ (List.getElem?_eq_getElem _) (List.getElem?_eq_getElem hk))
  · intro hnear
    have hpair (k : ℕ) {a b : Contents} (ha : frames[k]? = some a)
        (hb : frames[k + 1]? = some b) : Near a b := by
      obtain ⟨hk, rfl⟩ := List.getElem?_eq_some_iff.mp ha
      obtain ⟨hk', rfl⟩ := List.getElem?_eq_some_iff.mp hb
      exact List.isChain_iff_getElem.mp hnear k hk'
    refine ⟨fun k a b ha hb ↦ near_iff.mp (hpair k ha hb), fun k a b ha hb ↦ ?_, fun hne ↦ ?_⟩
    · have hk := (List.getElem?_eq_some_iff.mp hb).1
      have htake : frames.take (k + 1) = frames.take k ++ [a] := by
        rw [List.take_add_one, ha, Option.toList_some]
      have hshort : (frames.take k ++ [a]).length < 2 ^ 64 := by
        rw [← htake, List.length_take]
        omega
      have hfound :
          (sink.policy.found (some (openCam sink.check sink.specs .blank id)) frames)[k + 1]?
            = some (b, some (recordOf sink.check sink.specs id (frames.take k ++ [a]))) := by
        rw [Policy.found_getElem?, hb, htake]
        rfl
      refine ⟨_, by rw [List.getElem?_map, hfound, Option.map_some], ?_⟩
      have hrecord := (recordOf_fixed sink.check sink.specs id (frames.take k ++ [a])).2.2.2.2
      rw [(openCam_boundedBy sink.check sink.specs id).2, hperiod] at hrecord
      have hpos := (frames_recordOf_pos sink.check sink.specs id hshort).mpr (by simp)
      have hlast := (last_recordOf sink.check sink.specs id (frames.take k) a).1
      rw [checkOf, Option.elim_some, faultsOf_jitter hpos, hlast, deltaMs_of_near (hpair k ha hb)]
      simp only [countsJitter_iff hrecord hp htol]
    · rw [if_neg hne]
      exact ⟨_, rfl, recordOf_deltasExact hnear hlen⟩

end Stream

/-- A camera with a period of 10 ms that sends at these times. -/
def sendingAt (times : List Int64) : List Bytes :=
  times.mapIdx fun k tNs ↦ emptyMessage 3 tNs (.ofNat k)

theorem cadenceExact_late :
    ∃ sink, Served (some ⟨.fin 0, .fin 1, 4⟩) sink ∧
      CadenceExact 10 1
        (stream Contents.cameraId (framesOf (sendingAt [0, 9000000, 40000000, 39000000])) 3)
        (recorded 3 sink (sendingAt [0, 9000000, 40000000, 39000000])) := by
  have hnew : sinkNew (some ⟨.fin 0, .fin 1, 4⟩) = some _ := rfl
  have hserved := Served.serve (.new hnew) true (.expect [⟨3, 4, .fin 10⟩])
  refine ⟨_, hserved, (cadenceExact_iff hserved ?_ ?_ ?_ ?_ (by norm_num) ?_).mpr ?_⟩
  all_goals decide +kernel

private theorem not_cadenceExact {p tol : ℚ} {frames : List Contents}
    {result : Option CamState × List Check} {n : UInt64} (hne : frames ≠ [])
    (hcount : result.1.map CamState.dtN = some n) (hn : n.toNat ≠ (positiveGaps frames).length) :
    ¬CadenceExact p tol frames result := by
  intro h
  obtain ⟨cam, hcam, hexact⟩ := h.deltas hne
  rw [hcam, Option.map_some] at hcount
  rw [← Option.some.inj hcount] at hn
  exact hn hexact.count

/-- **A jump over half the range of the stamps is taken for a step back** and not counted. -/
theorem cadenceExact_jump :
    ∃ sink, Served (some ⟨.fin 0, .fin 1, 4⟩) sink ∧ sink.record 3 = none ∧
      sink.GetsSlot (framesOf (sendingAt [Int64.minValue, Int64.maxValue])) 3 ∧
      periodOf sink.check sink.specs 3 = .fin 10 ∧ sink.check.tol = .fin 1 ∧
      (recorded 3 sink (sendingAt [Int64.minValue, Int64.maxValue])).1.map CamState.dtN = some 0 ∧
      ¬CadenceExact 10 1
        (stream Contents.cameraId (framesOf (sendingAt [Int64.minValue, Int64.maxValue])) 3)
        (recorded 3 sink (sendingAt [Int64.minValue, Int64.maxValue])) := by
  have hnew : sinkNew (some ⟨.fin 0, .fin 1, 4⟩) = some _ := rfl
  have hserved := Served.serve (.new hnew) true (.expect [⟨3, 4, .fin 10⟩])
  refine ⟨_, hserved, by decide +kernel, by decide +kernel, by decide +kernel, by decide +kernel,
    by decide +kernel, not_cadenceExact (n := 0) (by decide +kernel) (by decide +kernel) ?_⟩
  decide +kernel

end SparseCamera
