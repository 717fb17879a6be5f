import SparseCamera.Camera.Pacing
import SparseCamera.Pipeline.Delivery
import SparseCamera.Pipeline.Schedule

/-!
# Mock cameras on time

A mock camera stamps its frames when it wakes. On a machine that wakes it in time, by less than a
period behind its deadline, the deadlines never move: frame `k` is stamped `k` periods after the
first one, give or take that delay. So the time between two frames the sink hears is as many periods
as their numbers are apart, and a sink with a tolerance above the delay takes one period for one
period and anything more for jitter. It counts exactly the gaps it counts in the numbers.

## The invariant

After `k` acquisitions the next deadline is `k` periods after the first one, and every frame was
stamped within the delay of the deadline that belongs to its number. So the stamps need not be known
to know the gap between two of them: it is the difference of the numbers, in periods, up to the
delay on either side.
-/

namespace SparseCamera

open Execution KeyedHistory

/-- The mock camera on a machine that wakes it no more than `late` nanoseconds after its
deadline. -/
def punctualInterface (late : ℕ) : Backend MockCtx Int64 where
  acquire := mockAcquire
  allowed tNs ctx := ctx.allowed tNs && tNs.toInt ≤ ctx.nextNs.toInt + late

/-- The frame was stamped in time for its number, and after the start of the clock. -/
structure Contents.OnBeat (first period : ℤ) (late : ℕ) (f : Contents) : Prop where
  positive : 0 < f.tNs.toInt
  due : first + f.sequence.toNat * period ≤ f.tNs.toInt
  soon : f.tNs.toInt ≤ first + f.sequence.toNat * period + late

/-- A mock camera after `k` acquisitions in time, and what it has handed over. -/
structure Producer.Punctual (first period : ℤ) (late total k : ℕ) (producer : Producer MockCtx)
    (frames : List Contents) : Prop where
  sized : producer.frame.Sized
  running : producer.implCtx.Running total k
  pace : producer.implCtx.periodNs.toInt = period
  next : producer.implCtx.nextNs.toInt = first + k * period
  beats : ∀ f ∈ frames, f.OnBeat first period late ∧ f.sequence.toNat < k
  ordered : frames.IsChain fun a b ↦ a.sequence.toNat < b.sequence.toNat

section Camera

variable {first period : ℤ} {late total k : ℕ} {producer : Producer MockCtx}
  {frames : List Contents} {env : TickEnv Int64}

private theorem toInt_nextNs {ctx : MockCtx} (hup : ctx.up = true) (hperiod : 0 < ctx.periodNs)
    (hlate : (late : ℤ) < ctx.periodNs.toInt) {tNs : Int64} {out : Frame}
    (hallowed : (punctualInterface late).allowed tNs ctx = true) :
    (mockAcquire tNs ctx out).2.2.nextNs.toInt = ctx.nextNs.toInt + ctx.periodNs.toInt := by
  simp only [punctualInterface, MockCtx.allowed, Bool.and_eq_true, decide_eq_true_eq] at hallowed
  have hadd := toInt_add_of_lt hperiod hallowed.1.1.2
  obtain ⟨-, -, -, -, hnext⟩ := mockAcquire_pace hup tNs out
  rw [hnext, if_neg fun h ↦ ?_, hadd]
  rw [Int64.le_iff_toInt_le, hadd] at h
  omega

/-- **One acquisition in time.** -/
theorem Producer.Punctual.tick (h : producer.Punctual first period late total k frames)
    (hlate : late < period) (hk : k < 2 ^ 64)
    (hallowed : (punctualInterface late).allowed env.acquire producer.implCtx = true) :
    (producer.tick (punctualInterface late) env).2.1.Punctual first period late total (k + 1)
      (frames ++ (producer.tick (punctualInterface late) env).2.2.toList) := by
  have hreset : Frame.Sized { frameReset producer.frame with cameraId := producer.cameraId } :=
    ⟨h.sized.support, h.sized.signal⟩
  have hallowed' := hallowed
  simp only [punctualInterface, Bool.and_eq_true, decide_eq_true_eq] at hallowed'
  obtain ⟨hmock, hintime⟩ := hallowed'
  obtain ⟨frame, ctx', hacquire, hsized, -, hcount, hstamp, -, hseq, -, -, hrunning, -⟩ :=
    mockAcquire_running h.running hmock hreset
  have hnext := @toInt_nextNs late producer.implCtx h.running.up h.running.period
    (h.pace ▸ hlate) _ { frameReset producer.frame with cameraId := producer.cameraId } hallowed
  obtain ⟨-, -, -, hsame, -⟩ := mockAcquire_pace h.running.up env.acquire
    { frameReset producer.frame with cameraId := producer.cameraId }
  rw [hacquire] at hnext hsame
  simp only [MockCtx.allowed, Bool.and_eq_true, decide_eq_true_eq] at hmock
  obtain ⟨⟨⟨hdue, hpos⟩, -⟩, -⟩ := hmock
  have hpos' : 0 < env.acquire.toInt := Int64.lt_iff_toInt_lt.mp hpos
  have hdue' := Int64.le_iff_toInt_le.mp hdue
  have hstamped : stampedFrame env.stamp frame = frame := by
    refine if_neg fun hzero ↦ ?_
    rw [← hstamp, hzero] at hpos'
    exact absurd hpos' (by decide)
  have hnext' : ctx'.nextNs.toInt = first + (k + 1 : ℕ) * period := by
    rw [hnext, h.next, h.pace]
    push_cast
    ring
  have hkeep : ∀ f ∈ frames, f.OnBeat first period late ∧ f.sequence.toNat < k + 1 :=
    fun f hf ↦ ⟨(h.beats f hf).1, (h.beats f hf).2.trans k.lt_succ_self⟩
  have hsame' : ctx'.periodNs.toInt = period := hsame ▸ h.pace
  have hacquire' : (punctualInterface late).acquire env.acquire producer.implCtx
      { frameReset producer.frame with cameraId := producer.cameraId } = (0, frame, ctx') :=
    hacquire
  simp only [Producer.tick, hacquire', hstamped, ne_eq, not_true_eq_false, if_false,
    UInt32.not_lt.mpr hcount]
  cases env.send with
  | failed =>
    rw [Option.toList_none, List.append_nil]
    exact ⟨hsized, hrunning, hsame', hnext', hkeep, h.ordered⟩
  | again =>
    rw [Option.toList_none, List.append_nil]
    exact ⟨hsized, hrunning, hsame', hnext', hkeep, h.ordered⟩
  | sent =>
    have hnumber : frame.contents.sequence.toNat = k := by
      rw [Frame.contents, hseq, UInt64.toNat_ofNat_of_lt' hk]
    have hstamp' : frame.contents.tNs = env.acquire := hstamp
    refine ⟨hsized, hrunning, hsame', hnext', fun f hf ↦ ?_, ?_⟩
    · rcases List.mem_append.mp hf with hf | hf
      · exact hkeep f hf
      · obtain rfl := List.mem_singleton.mp hf
        refine ⟨⟨?_, ?_, ?_⟩, hnumber.trans_lt k.lt_succ_self⟩
        · rwa [hstamp']
        · rwa [hnumber, ← h.next, hstamp']
        · rwa [hnumber, ← h.next, hstamp']
    · refine h.ordered.append (List.isChain_singleton _) ?_
      intro f hf g hg
      obtain rfl := List.mem_singleton.mp (List.mem_of_mem_head? hg)
      rw [hnumber]
      exact (h.beats f (List.mem_of_mem_getLast? hf)).2

/-- **Any number of them.** -/
theorem Producer.Punctual.run (h : producer.Punctual first period late total 0 [])
    (hlate : late < period) {envs : List (TickEnv Int64)} (hlt : envs.length ≤ 2 ^ 64)
    (hallowed : producer.Allowed (punctualInterface late) envs) :
    (producer.run (punctualInterface late) envs).1.Punctual first period late total envs.length
      (producer.run (punctualInterface late) envs).2 := by
  induction envs using List.reverseRecOn with
  | nil => exact h
  | append_singleton envs env ih =>
    rw [List.length_append, List.length_singleton] at hlt ⊢
    obtain ⟨hbefore, hlast⟩ := Producer.allowed_concat.mp hallowed
    rw [Producer.run_concat]
    exact (ih (by omega) hbefore).tick hlate (by omega) hlast

end Camera

/-! ## One period or more

The tolerance is a fraction of the period. It has to take in the delay, and a second period has to
stay outside even if the delay makes it look shorter. -/

/-- The tolerance takes in the delay, and leaves out a second period even if the delay shortens
it. -/
structure Tolerates (p tol : ℚ) (late : ℕ) : Prop where
  one : late + 1 ≤ 10 ^ 6 * p * tol
  two : late + 2 ≤ 10 ^ 6 * p * (1 - tol)

section Pair

variable {p tol : ℚ} {late : ℕ} {period : ℤ}

theorem Tolerates.lt_period (h : Tolerates p tol late) (hperiod : period = ⌊10 ^ 6 * p⌋) :
    late < period := by
  have hone := h.one
  have htwo := h.two
  have hlt := Int.lt_floor_add_one (10 ^ 6 * p)
  rw [← hperiod] at hlt
  have hsum : (2 * late + 3 : ℚ) ≤ 10 ^ 6 * p := by linarith
  have hlate : (0 : ℚ) ≤ late := Nat.cast_nonneg late
  have hcast : (late : ℚ) < period := by linarith
  exact_mod_cast hcast

/-- `m` periods, give or take the delay, are within the tolerance only if `m` is one. -/
theorem Tolerates.mem_Icc_iff (h : Tolerates p tol late) (hperiod : period = ⌊10 ^ 6 * p⌋)
    {m gap : ℤ} (hm : 1 ≤ m) (hlow : m * period - late ≤ gap) (hhigh : gap ≤ m * period + late) :
    (gap / 10 ^ 6 : ℚ) ∈ Set.Icc (p * (1 - tol)) (p * (1 + tol)) ↔ m = 1 := by
  have hone := h.one
  have htwo := h.two
  have hle := Int.floor_le (10 ^ 6 * p)
  have hlt := Int.lt_floor_add_one (10 ^ 6 * p)
  rw [← hperiod] at hle hlt
  have hpos : 0 ≤ period := (Int.natCast_nonneg late).trans (h.lt_period hperiod).le
  rw [Set.mem_Icc, le_div_iff₀ (by norm_num), div_le_iff₀ (by norm_num)]
  constructor
  · rintro ⟨-, hin⟩
    by_contra hne
    -- two periods are too long already
    have htwice : 2 * period ≤ m * period := mul_le_mul_of_nonneg_right (by omega) hpos
    have hlong : (2 * period - late : ℚ) ≤ gap := by exact_mod_cast (by omega)
    linarith
  · rintro rfl
    rw [one_mul] at hlow hhigh
    have hlow' : (period - late : ℚ) ≤ gap := by exact_mod_cast hlow
    have hhigh' : (gap : ℚ) ≤ period + late := by exact_mod_cast hhigh
    constructor
    · linarith
    · linarith

variable {check : SinkCheck} {specs : List SinkCamSpec} {a b : Contents} {first : ℤ}

/-- **Frames in time**: the sink takes the step for jitter exactly if frames are missing. -/
theorem offBeat_iff (htol : check.tol = .fin tol)
    (hexpect : periodOf check specs b.cameraId = .fin p) (h : Tolerates p tol late)
    (hperiod : period = ⌊10 ^ 6 * p⌋) (ha : a.OnBeat first period late)
    (hb : b.OnBeat first period late) (hlt : a.sequence.toNat < b.sequence.toNat) :
    OffBeat check specs a b ↔ ¬Follows a b := by
  have hlate := h.lt_period hperiod
  have hbsmall := b.tNs.toInt_lt
  have hasmall := a.tNs.toInt_lt
  have hapos := ha.positive
  have hbpos := hb.positive
  have hmul : ((b.sequence.toNat : ℤ) - a.sequence.toNat) * period
      = b.sequence.toNat * period - a.sequence.toNat * period := sub_mul _ _ _
  have hadue := ha.due
  have hasoon := ha.soon
  have hbdue := hb.due
  have hbsoon := hb.soon
  have hnear : Near a b := by
    rw [Near, gapNs]
    omega
  have hp : 0 < p := by
    have hpos : (0 : ℤ) < ⌊10 ^ 6 * p⌋ := by omega
    have hone := Int.floor_pos.mp hpos
    linarith
  have hm : 1 ≤ (b.sequence.toNat : ℤ) - a.sequence.toNat := by omega
  have hatleast : period ≤ ((b.sequence.toNat : ℤ) - a.sequence.toNat) * period :=
    le_mul_of_one_le_left (by omega) hm
  have hadvances : Advances a b := Int64.lt_iff_toInt_lt.mpr (by omega)
  have hrecord := (openCam_boundedBy check specs b.cameraId).2.trans hexpect
  rw [OffBeat, deltaMs_of_near hnear, countsJitter_iff hrecord hp htol, gapMs,
    h.mem_Icc_iff hperiod hm (by rw [gapNs]; omega) (by rw [gapNs]; omega), and_iff_right hadvances]
  refine not_congr ?_
  have hb64 := b.sequence.toNat_lt
  rw [Follows, ← UInt64.toNat_inj, UInt64.toNat_add]
  change _ ↔ _ = (a.sequence.toNat + 1) % 2 ^ 64
  omega

end Pair

/-! ## The sink

The jitter counter is compared with the sequence gaps pair by pair. Both are sums over the same
pairs, and each pair is counted by both or by neither. -/

/-- A pipeline at the start, whose sink tolerates the delays. -/
structure Pipeline.Timed {n : ℕ} (late : Fin n → ℕ) (tol : ℚ) (p : Pipeline n MockCtx) : Prop where
  wide : p.Wide
  fresh : p.sink.Fresh
  pipes : ∀ i, p.pipes i = []
  injective : Function.Injective fun i ↦ (p.cams i).cameraId
  few : n ≤ sinkMaxCameras
  tolerance : p.sink.check.tol = .fin tol
  cams : ∀ i, ∃ (expect : ℚ) (total : ℕ),
    periodOf p.sink.check p.sink.specs (p.cams i).cameraId = .fin expect ∧
      Tolerates expect tol (late i) ∧
      (p.cams i).producer.Punctual (p.cams i).implCtx.nextNs.toInt ⌊10 ^ 6 * expect⌋ (late i) total
        0 []

section Sink

variable {n : ℕ} {late : Fin n → ℕ} {tol : ℚ} {p q : Pipeline n MockCtx}
  {steps : List (PipelineStep n Int64)}

/-- **The jitter counter counts gaps.** Whatever is sent, dropped and received in which order: if
every camera is woken in time, the sink counts as many steps out of tolerance as steps of the
sequence numbers that are not one. -/
theorem Pipeline.Timed.jitter_eq (h : p.Timed late tol)
    (hlt : ∀ i, (ticksOf i steps).length < 2 ^ 64)
    (hexec : exec (Pipeline.step fun i ↦ punctualInterface (late i)) p steps = some q) :
    q.sink.stats.jitter = q.sink.stats.seqGaps := by
  have hfills (i : Fin n) : (punctualInterface (late i)).Fills := ⟨fills_mockCameraInterface.frame⟩
  obtain ⟨heard, hran⟩ := h.wide.ran hfills h.pipes h.injective hexec
  have hreceived (i : Fin n) : receivedOf i steps < 2 ^ 64 := by
    have hle := @Producer.length_run_le _ _ (punctualInterface (late i))
      (p.wireless.producers i) (ticksOf i steps)
    rw [hran.ran i, List.length_append, hran.taken i] at hle
    exact (Nat.le_of_add_right_le hle).trans_lt (hlt i)
  obtain ⟨haccounts, hjitter⟩ := hran.account h.fresh.cams h.fresh.stats hreceived
  have hfollowed : followed (heard.map some) = heard := by
    rw [followed_of_card_le, reduceOption_map_some]
    rw [reduceOption_map_some]
    exact hran.card_le.trans h.few
  change q.wireless.ledger.stats.jitter = q.wireless.ledger.stats.seqGaps
  rw [hjitter, haccounts.seqGaps, hfollowed]
  refine congrArg UInt64.ofNat (keyedSum_congr _ fun f hf ↦ ?_)
  obtain ⟨i, hi⟩ := hran.known f hf
  obtain ⟨expect, total, hexpect, htolerates, hstart⟩ := h.cams i
  have hrun := hstart.run (htolerates.lt_period rfl) (hlt i).le (hran.allowed i)
  rw [show (p.cams i).producer.run _ _ = _ from hran.ran i, ← hi] at hrun
  -- what was heard of the camera is the first part of what it handed over
  have hbeats : ∀ g ∈ stream Contents.cameraId heard f.cameraId,
      g.OnBeat (p.cams i).implCtx.nextNs.toInt ⌊10 ^ 6 * expect⌋ (late i) :=
    fun g hg ↦ (hrun.beats g (List.mem_append_left _ hg)).1
  refine adjacentSum_congr (hrun.ordered.left_of_append.imp_of_mem_imp
    fun a b ha hb hab ↦ (⟨ha, hb, hab⟩ : a ∈ _ ∧ b ∈ _ ∧ _)) ?_
  rintro a b ⟨ha, hb, hab⟩
  have hid : b.cameraId = (p.cams i).cameraId := (key_of_mem_stream _ hb).trans hi
  have hiff : OffBeat p.sink.check p.sink.specs a b ↔ ¬Follows a b :=
    offBeat_iff h.tolerance (hid ▸ hexpect) htolerates rfl (hbeats a ha) (hbeats b hb) hab
  exact (if_congr hiff rfl rfl).trans (ite_not _ _ _)

end Sink

end SparseCamera
