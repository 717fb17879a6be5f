import SparseCamera.Camera.Band
import SparseCamera.Lib.Pacing

/-!
# The pace of the mock camera

An acquisition of the mock camera sleeps until its deadline, stamps the frame and sets the next
deadline. The sleep is a loop around `clock_nanosleep` that starts again after a signal. Of
`clock_nanosleep` it is assumed that it does not return before its deadline, unless it was
interrupted, and of the clock that it does not run backwards. Everything else is left open: how
often the sleep is interrupted, how late it returns and how long the caller stays away.

Each acquisition is a round of `Pacing`, so whatever holds of that holds of the stamps and deadlines
of the program (`paced`).
-/

namespace SparseCamera

/-- `EINTR`. -/
def EINTR : ℤ := 4

/-- `struct timespec`. -/
structure Timespec where
  tvSec : Int64
  tvNsec : Int64
deriving DecidableEq

def Timespec.ns (ts : Timespec) : ℤ := ts.tvSec.toInt * 10 ^ 9 + ts.tvNsec.toInt

/-- `monotonic_ns`, given what the clock reads. -/
def monotonicNs (ts : Timespec) : Int64 := ts.tvSec * 1000000000 + ts.tvNsec

/-- What `sleep_until_ns` asks for. -/
def sleepRequest (deadlineNs : Int64) : Timespec :=
  { tvSec := deadlineNs / 1000000000, tvNsec := deadlineNs % 1000000000 }

/-- A return of `clock_nanosleep`, and what the clock reads then. -/
structure Nanosleep where
  status : ℤ
  clock : Timespec

/-- `sleep_until_ns`, given the returns of `clock_nanosleep`: what the clock reads when it returns
itself, if it does. -/
def sleepUntilNs : List Nanosleep → Option Timespec
  | [] => none
  | sleep :: sleeps => if sleep.status = EINTR then sleepUntilNs sleeps else some sleep.clock

/-- What an acquisition meets: the returns of `clock_nanosleep`, the clock that it reads after them
and the frame that it is to fill. -/
structure MockCall where
  sleeps : List Nanosleep
  clock : Timespec
  out : Frame

def MockCall.run (call : MockCall) (ctx : MockCtx) : ℤ × Frame × MockCtx :=
  mockAcquire (monotonicNs call.clock) ctx call.out

/-- The acquisitions that can happen, without overflow, in a context. -/
structure MockCall.Allowed (call : MockCall) (ctx : MockCtx) : Prop where
  sleeps : ∀ sleep ∈ call.sleeps,
    sleep.status ≠ EINTR → (sleepRequest ctx.nextNs).ns ≤ sleep.clock.ns
  wakes : ∃ ts, sleepUntilNs call.sleeps = some ts ∧ ts.ns ≤ call.clock.ns
  clock : -2 ^ 63 ≤ call.clock.ns ∧ call.clock.ns < 2 ^ 63
  deadline : ctx.nextNs.toInt + ctx.periodNs.toInt < 2 ^ 63
  resync : ctx.nextNs + ctx.periodNs ≤ monotonicNs call.clock →
    (monotonicNs call.clock).toInt + ctx.periodNs.toInt < 2 ^ 63

/-- The context before acquisition `k`. -/
def ctxBefore (ctx : MockCtx) (calls : ℕ → MockCall) : ℕ → MockCtx
  | 0 => ctx
  | k + 1 => ((calls k).run (ctxBefore ctx calls k)).2.2

/-- The deadline of acquisition `k`. -/
def deadlineOf (ctx : MockCtx) (calls : ℕ → MockCall) (k : ℕ) : ℤ :=
  (ctxBefore ctx calls k).nextNs.toInt

/-- The stamp of frame `k`. -/
def stampOf (ctx : MockCtx) (calls : ℕ → MockCall) (k : ℕ) : ℤ :=
  ((calls k).run (ctxBefore ctx calls k)).2.1.tNs.toInt

/-- The first `n` frames as they should come. -/
structure SteadyPace (period : ℤ) (d t : ℕ → ℤ) (n : ℕ) : Prop where
  passed : ∀ k < n, t k < d (k + 1)
  apart : ∀ k < n, d k + period ≤ d (k + 1)
  increasing : ∀ j k, j < k → k < n → t j < t k
  noBurst : ∀ j k, j < k → k < n → ((k : ℤ) - j - 1) * period < t k - t j
  noDrift : ∀ k ≤ n, (∀ i < k, t i < d i + period) → d k = d 0 + k * period

/-! ## The clock -/

section Clock

variable {ts : Timespec}

private theorem toInt_monotonicNs (h : -2 ^ 63 ≤ ts.ns ∧ ts.ns < 2 ^ 63) :
    (monotonicNs ts).toInt = ts.ns := by
  rw [Timespec.ns] at h ⊢
  rw [monotonicNs, Int64.toInt_add, Int64.toInt_mul, Int.bmod_add_bmod]
  exact Int.bmod_eq_of_le (by norm_num at h ⊢; exact h.1) (by norm_num at h ⊢; exact h.2)

private theorem ns_sleepRequest (deadlineNs : Int64) :
    (sleepRequest deadlineNs).ns = deadlineNs.toInt := by
  rw [sleepRequest, Timespec.ns, Int64.toInt_div_of_ne_right _ _ (by decide), Int64.toInt_mod]
  exact Int.tdiv_mul_add_tmod _ _

/-- Interrupted or not, the sleep ends with a return that was not an interruption. -/
theorem exists_of_sleepUntilNs {sleeps : List Nanosleep} (h : sleepUntilNs sleeps = some ts) :
    ∃ sleep ∈ sleeps, sleep.status ≠ EINTR ∧ sleep.clock = ts := by
  induction sleeps with
  | nil => cases h
  | cons sleep sleeps ih =>
    rw [sleepUntilNs] at h
    split_ifs at h with hintr
    · obtain ⟨s, hs, hstatus, hclock⟩ := ih h
      exact ⟨s, List.mem_cons_of_mem _ hs, hstatus, hclock⟩
    · exact ⟨sleep, List.mem_cons_self, hintr, Option.some.inj h⟩

end Clock

/-! ## Round after round

An acquisition has two effects on the clock: the stamp it leaves and the deadline it sets. Both are
computed in 64 bits and both are in range, since the deadlines stay inside `int64_t`; from there on
the argument is about integers. -/

section Run

variable {ctx : MockCtx} {call : MockCall} {calls : ℕ → MockCall} {n k : ℕ}

/-- The sleep does not end before the deadline. -/
theorem MockCall.Allowed.le_clock (h : call.Allowed ctx) :
    ctx.nextNs.toInt ≤ (monotonicNs call.clock).toInt := by
  obtain ⟨ts, hwakes, hclock⟩ := h.wakes
  obtain ⟨sleep, hmem, hstatus, rfl⟩ := exists_of_sleepUntilNs hwakes
  have hsleep := h.sleeps sleep hmem hstatus
  rw [ns_sleepRequest] at hsleep
  rw [toInt_monotonicNs h.clock]
  exact hsleep.trans hclock

theorem mockAcquire_pace (hup : ctx.up = true) (tNs : Int64) (out : Frame) :
    (mockAcquire tNs ctx out).1 = 0 ∧ (mockAcquire tNs ctx out).2.1.tNs = tNs ∧
      (mockAcquire tNs ctx out).2.2.up = true ∧
      (mockAcquire tNs ctx out).2.2.periodNs = ctx.periodNs ∧
      (mockAcquire tNs ctx out).2.2.nextNs = if ctx.nextNs + ctx.periodNs ≤ tNs
        then tNs + ctx.periodNs else ctx.nextNs + ctx.periodNs := by
  rw [mockAcquire_of_up hup]
  exact ⟨rfl, rfl, hup, rfl, rfl⟩

/-- **One round.** The next deadline is the one of `Pacing`. -/
theorem MockCall.Allowed.run_spec (h : call.Allowed ctx) (hup : ctx.up = true)
    (hperiod : 0 < ctx.periodNs) :
    (call.run ctx).1 = 0 ∧ (call.run ctx).2.1.tNs = monotonicNs call.clock ∧
      (call.run ctx).2.2.up = true ∧ (call.run ctx).2.2.periodNs = ctx.periodNs ∧
      (call.run ctx).2.2.nextNs.toInt
        = Pacing.next ctx.periodNs.toInt ctx.nextNs.toInt (monotonicNs call.clock).toInt := by
  obtain ⟨hstatus, hstamp, hup', hperiod', hnext⟩ :=
    mockAcquire_pace hup (monotonicNs call.clock) call.out
  refine ⟨hstatus, hstamp, hup', hperiod', ?_⟩
  have hdeadline := toInt_add_of_lt hperiod h.deadline
  rw [MockCall.run, hnext, Pacing.next, ← hdeadline]
  split_ifs with hlate hlate' hlate'
  · exact toInt_add_of_lt hperiod (h.resync hlate)
  · exact absurd (Int64.le_iff_toInt_le.mp hlate) hlate'
  · exact absurd (Int64.le_iff_toInt_le.mpr hlate') hlate
  · rfl

private theorem ctxBefore_spec (hup : ctx.up = true) (hperiod : 0 < ctx.periodNs)
    (hcalls : ∀ k < n, (calls k).Allowed (ctxBefore ctx calls k)) (hk : k ≤ n) :
    (ctxBefore ctx calls k).up = true ∧ (ctxBefore ctx calls k).periodNs = ctx.periodNs := by
  induction k with
  | zero => exact ⟨hup, rfl⟩
  | succ k ih =>
    obtain ⟨hup', hperiod'⟩ := ih (by omega)
    obtain ⟨-, -, hup'', hperiod'', -⟩ := (hcalls k hk).run_spec hup' (hperiod' ▸ hperiod)
    exact ⟨hup'', hperiod''.trans hperiod'⟩

/-- **A run is paced.** -/
theorem paced (hup : ctx.up = true) (hperiod : 0 < ctx.periodNs)
    (hcalls : ∀ k < n, (calls k).Allowed (ctxBefore ctx calls k)) :
    Pacing.Paced ctx.periodNs.toInt (deadlineOf ctx calls) (stampOf ctx calls) n := by
  refine ⟨fun k hk ↦ ?_, fun k hk ↦ ?_⟩
  all_goals
    obtain ⟨hup', hperiod'⟩ := ctxBefore_spec hup hperiod hcalls hk.le
    obtain ⟨-, hstamp, -, -, hnext⟩ := (hcalls k hk).run_spec hup' (hperiod' ▸ hperiod)
  · rw [deadlineOf, stampOf, hstamp]
    exact (hcalls k hk).le_clock
  · rw [hperiod'] at hnext
    rw [deadlineOf, ctxBefore, hnext, deadlineOf, stampOf, hstamp]

/-- **The mock camera keeps its pace.** -/
theorem steadyPace {now : Int64} {ctx₀ : MockCtx} (hinit : mockInit now ctx = (0, ctx₀))
    (hcalls : ∀ k < n, (calls k).Allowed (ctxBefore ctx₀ calls k)) :
    (∀ k < n, ((calls k).run (ctxBefore ctx₀ calls k)).1 = 0) ∧
      SteadyPace ctx.periodNs.toInt (deadlineOf ctx₀ calls) (stampOf ctx₀ calls) n := by
  obtain ⟨hperiod, hctx⟩ := mockInit_spec hinit
  have hup : ctx₀.up = true := by rw [hctx]
  have hsame : ctx₀.periodNs = ctx.periodNs := by rw [hctx]
  rw [← hsame] at hperiod ⊢
  have hpos : 0 < ctx₀.periodNs.toInt := Int64.lt_iff_toInt_lt.mp hperiod
  have hpaced := paced hup hperiod hcalls
  refine ⟨?_, ?_, ?_, ?_, ?_, ?_⟩
  · intro k hk
    obtain ⟨hup', hperiod'⟩ := ctxBefore_spec hup hperiod hcalls hk.le
    exact ((hcalls k hk).run_spec hup' (hperiod' ▸ hperiod)).1
  · exact fun k hk ↦ hpaced.lt_deadline hpos hk
  · exact fun k hk ↦ hpaced.add_le_deadline hk
  · exact fun j k hjk hk ↦ hpaced.wake_lt hpos hjk hk
  · intro j k hjk hk
    have hlt := hpaced.add_nsmul_lt hpos hjk hk
    rw [nsmul_eq_mul, Nat.sub_sub, Nat.cast_sub hjk] at hlt
    push_cast at hlt
    rw [Int.sub_sub, lt_sub_iff_add_lt']
    exact hlt
  · intro k hk hlate
    have heq := hpaced.deadline_eq hk hlate
    rwa [nsmul_eq_mul] at heq

end Run

def quickMock : MockCtx :=
  { cfg := { rows := 1, cols := 1, sites := 1, fps := .fin (10 ^ 8) }
    periodNs := 10, nextNs := 0, sequence := 0, up := false }

/-- Acquisitions that wake at these times, after an interruption. -/
def wakingAt (times : List Int64) (k : ℕ) : MockCall :=
  { sleeps := [⟨EINTR, ⟨0, 0⟩⟩, ⟨0, ⟨0, times.getD k 0⟩⟩]
    clock := ⟨0, times.getD k 0⟩
    out := ⟨[], [], 0, 0, 0, 0, 0⟩ }

theorem steadyPace_stall :
    SteadyPace 10 (deadlineOf (mockInit 0 quickMock).2 (wakingAt [12, 95, 105]))
      (stampOf (mockInit 0 quickMock).2 (wakingAt [12, 95, 105])) 3 := by
  refine (@steadyPace quickMock (wakingAt [12, 95, 105]) 3 0 _ rfl ?_).2
  intro k hk
  obtain rfl | rfl | rfl : k = 0 ∨ k = 1 ∨ k = 2 := by omega
  all_goals
    exact ⟨by decide +kernel, ⟨_, rfl, by decide +kernel⟩, by decide +kernel, by decide +kernel,
      by decide +kernel⟩

end SparseCamera
