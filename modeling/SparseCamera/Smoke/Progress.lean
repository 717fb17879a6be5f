import Mathlib.Algebra.BigOperators.Group.Finset.Piecewise
import SparseCamera.Smoke.Basic
import SparseCamera.Sink.Verdict

/-!
# How far the cameras are

Each camera thread makes as many attempts as it was asked for, or fewer if a tick fails. An attempt
may acquire a frame, an acquired frame may be sent, a sent frame may be received: the counts over
the trace of an execution only shrink along that chain, and `Worked` and `Flowing` say what is left
of each at every step.

## The invariant

`CamThread.Worked` is about one thread and two numbers, the frames it has acquired and sent. An
attempt that has not failed accounts for at most one of each. The attempts never exceed what was
asked for, and are fewer while a tick is under way or if one failed.
-/

namespace SparseCamera

open Execution KeyedHistory

variable {n : ℕ} {ι ε : Type}

/-! ## Counting -/

/-- Frames acquired by camera `i`. -/
def acquiredOf (i : Fin n) (tr : List (SmokeEvent n)) : ℕ :=
  tr.countP fun
    | .tick j acquired _ => j = i && acquired
    | .recv _ => false

/-- Frames of camera `i` the socket took. -/
def sentOf (i : Fin n) (tr : List (SmokeEvent n)) : ℕ :=
  tr.countP fun
    | .tick j _ sent => j = i && sent
    | .recv _ => false

/-- Frames of camera `i` the sink received. -/
def deliveredOf (i : Fin n) (tr : List (SmokeEvent n)) : ℕ :=
  tr.countP fun
    | .tick _ _ _ => false
    | .recv taken => taken.any fun message ↦ message.1 = i

/-- What the sink received, in order. -/
def messagesOf (tr : List (SmokeEvent n)) : List Bytes :=
  tr.filterMap fun
    | .tick _ _ _ => none
    | .recv taken => taken.map Prod.snd

section Counts

variable {i j : Fin n} {tr : List (SmokeEvent n)} {acquired sent : Bool}
  {taken : Option (Fin n × Bytes)} {msg : Bytes}

@[simp] theorem acquiredOf_tick_self : acquiredOf i (tr ++ [.tick i acquired sent])
    = acquiredOf i tr + if acquired then 1 else 0 := by
  cases acquired <;> simp [acquiredOf, List.countP_append]

theorem acquiredOf_tick_of_ne (h : j ≠ i) :
    acquiredOf i (tr ++ [.tick j acquired sent]) = acquiredOf i tr := by
  simp [acquiredOf, List.countP_append, h]

@[simp] theorem acquiredOf_recv : acquiredOf i (tr ++ [.recv taken]) = acquiredOf i tr := by
  simp [acquiredOf, List.countP_append]

@[simp] theorem sentOf_tick_self : sentOf i (tr ++ [.tick i acquired sent])
    = sentOf i tr + if sent then 1 else 0 := by
  cases sent <;> simp [sentOf, List.countP_append]

theorem sentOf_tick_of_ne (h : j ≠ i) :
    sentOf i (tr ++ [.tick j acquired sent]) = sentOf i tr := by
  simp [sentOf, List.countP_append, h]

@[simp] theorem sentOf_recv : sentOf i (tr ++ [.recv taken]) = sentOf i tr := by
  simp [sentOf, List.countP_append]

@[simp] theorem deliveredOf_tick :
    deliveredOf i (tr ++ [.tick j acquired sent]) = deliveredOf i tr := by
  simp [deliveredOf, List.countP_append]

@[simp] theorem deliveredOf_recv_none :
    deliveredOf i (tr ++ [.recv none]) = deliveredOf i tr := by
  simp [deliveredOf, List.countP_append]

@[simp] theorem deliveredOf_recv_some : deliveredOf i (tr ++ [.recv (some (j, msg))])
    = deliveredOf i tr + if j = i then 1 else 0 := by
  simp [deliveredOf, List.countP_append, List.countP_cons]

@[simp] theorem messagesOf_tick : messagesOf (tr ++ [.tick j acquired sent]) = messagesOf tr := by
  simp [messagesOf]

@[simp] theorem messagesOf_recv_none : messagesOf (tr ++ [.recv none]) = messagesOf tr := by
  simp [messagesOf]

@[simp] theorem messagesOf_recv_some :
    messagesOf (tr ++ [.recv (some (j, msg))]) = messagesOf tr ++ [msg] := by
  simp [messagesOf]

theorem length_messagesOf (tr : List (SmokeEvent n)) :
    (messagesOf tr).length = ∑ i, deliveredOf i tr := by
  induction tr using List.reverseRecOn with
  | nil => simp [messagesOf, deliveredOf]
  | append_singleton tr e ih =>
    rcases e with _ | (_ | ⟨j, msg⟩)
    · simpa using ih
    · simpa using ih
    · simp [ih, Finset.sum_add_distrib, Finset.sum_ite_eq]

end Counts

/-! ## The threads

One lemma for each step of `cam_run`: the loop condition, the tick, the count and the store of a
return code. -/

/-- The ticks that did not fail, the one that is about to be counted included. -/
def CamThread.attempts (ct : CamThread) : ℕ := ct.ticks.toNat + if ct.phase = .count then 1 else 0

def CamThread.Failed (ct : CamThread) : Prop := ct.rc < 0 ∨ ∃ rc, ct.phase = .fail rc

/-- A thread that is to make `want` attempts, and what came of those it made. -/
structure CamThread.Worked (want : UInt64) (ct : CamThread) (acquired sent : ℕ) : Prop where
  want_eq : ct.want = want
  sent_le_acquired : sent ≤ acquired
  sent_le : sent ≤ ct.attempts
  acquired_le : ¬ct.Failed → acquired ≤ ct.attempts
  attempts_le : ct.attempts ≤ want.toNat
  attempts_lt : ct.phase = .tick ∨ ct.Failed → ct.attempts < want.toNat
  done : ct.rc < 0 → ct.phase = .done
  negative : ∀ rc, ct.phase = .fail rc → rc < 0
  nonpos : ct.rc ≤ 0

section Worked

variable {want : UInt64} {ct : CamThread} {acquired sent : ℕ}

theorem CamThread.Worked.not_failed (h : ct.Worked want acquired sent) (hdone : ct.phase ≠ .done)
    (hfail : ∀ rc, ct.phase ≠ .fail rc) : ¬ct.Failed := by
  rintro (hrc | ⟨rc, hphase⟩)
  · exact hdone (h.done hrc)
  · exact hfail rc hphase

theorem CamThread.Worked.move (h : ct.Worked want acquired sent) (hlive : ¬ct.Failed)
    {phase : ThreadPhase} {started : Bool} (hcount : ct.phase ≠ .count) (hcount' : phase ≠ .count)
    (hfail : ∀ rc, phase ≠ .fail rc) (hmore : phase = .tick → ct.ticks < want) :
    { ct with phase := phase, started := started }.Worked want acquired sent := by
  have hrc : ¬ct.rc < 0 := fun hrc ↦ hlive (Or.inl hrc)
  have hsame : { ct with phase := phase, started := started }.attempts = ct.attempts := by
    simp [attempts, hcount, hcount']
  have hfailed : ¬{ ct with phase := phase, started := started }.Failed := by
    rintro (hrc' | ⟨rc, hphase⟩)
    · exact hrc hrc'
    · exact hfail rc hphase
  refine ⟨h.want_eq, h.sent_le_acquired, ?_, fun _ ↦ ?_, ?_, ?_, fun hrc' ↦ absurd hrc' hrc,
    fun rc hphase ↦ absurd hphase (hfail rc), h.nonpos⟩
  · rw [hsame]
    exact h.sent_le
  · rw [hsame]
    exact h.acquired_le hlive
  · rw [hsame]
    exact h.attempts_le
  · rintro (htick | hbad)
    · have hlt := UInt64.lt_iff_toNat_lt.mp (hmore htick)
      simpa [attempts, hcount'] using hlt
    · exact absurd hbad hfailed

theorem CamThread.Worked.tick (h : ct.Worked want acquired sent) (hphase : ct.phase = .tick)
    {rc : ℤ} {message : Option Bytes} {got : Bool}
    (hcases : (got = false ∧ message = none) ∨ (got = true ∧ message = none ∧ rc < 0) ∨
      (got = true ∧ message = none ∧ rc = 1) ∨ (got = true ∧ message.isSome = true ∧ rc = 0)) :
    { ct with phase := if rc < 0 then .fail rc else .count }.Worked want
      (acquired + if got then 1 else 0) (sent + if message.isSome then 1 else 0) := by
  have hlive := h.not_failed (by simp [hphase]) (by simp [hphase])
  have hrc : ¬ct.rc < 0 := fun hrc ↦ hlive (Or.inl hrc)
  have hlt := h.attempts_lt (Or.inl hphase)
  have hsent := h.sent_le
  have hacquired := h.acquired_le hlive
  have hle := h.sent_le_acquired
  have hticks : ct.attempts = ct.ticks.toNat := by simp [attempts, hphase]
  rw [hticks] at hlt hsent hacquired
  have hgot : (if got then 1 else 0) ≤ 1 := by split_ifs <;> omega
  -- only an acquired frame is sent
  have htaken : (if message.isSome then 1 else 0) ≤ if got then 1 else 0 := by
    rcases hcases with ⟨rfl, rfl⟩ | ⟨rfl, rfl, -⟩ | ⟨rfl, rfl, -⟩ | ⟨rfl, -, -⟩
    · simp
    · simp
    · simp
    · rw [if_pos (rfl : true = true)]
      split_ifs <;> omega
  by_cases hneg : rc < 0
  · -- the attempt is lost, and with it at most one frame that was acquired
    have hnone : (if message.isSome then 1 else 0) = 0 := by
      rcases hcases with ⟨-, rfl⟩ | ⟨-, rfl, -⟩ | ⟨-, rfl, -⟩ | ⟨-, -, rfl⟩
      · rfl
      · rfl
      · rfl
      · omega
    rw [if_pos hneg, hnone]
    refine ⟨h.want_eq, ?_, ?_, fun hok ↦ absurd (Or.inr ⟨rc, rfl⟩) hok, ?_, fun _ ↦ ?_,
      fun hrc' ↦ absurd hrc' hrc, fun rc' hrc' ↦ ?_, h.nonpos⟩
    · omega
    · simpa [attempts] using hsent
    · simpa [attempts] using hlt.le
    · simpa [attempts] using hlt
    · obtain rfl := ThreadPhase.fail.inj hrc'
      exact hneg
  · rw [if_neg hneg]
    refine ⟨h.want_eq, ?_, ?_, fun _ ↦ ?_, ?_, ?_, fun hrc' ↦ absurd hrc' hrc, by simp, h.nonpos⟩
    · omega
    · simp only [attempts, if_true]
      omega
    · simp only [attempts, if_true]
      omega
    · simp only [attempts, if_true]
      omega
    · rintro (hbad | hbad | ⟨rc', hbad⟩)
      · cases hbad
      · exact absurd hbad hrc
      · cases hbad

theorem CamThread.Worked.store (h : ct.Worked want acquired sent) {rc : ℤ}
    (hphase : ct.phase = .fail rc) :
    { ct with rc := rc, phase := .done }.Worked want acquired sent := by
  have hneg := h.negative rc hphase
  have hlt := h.attempts_lt (Or.inr (Or.inr ⟨rc, hphase⟩))
  have hsent := h.sent_le
  have hticks : ct.attempts = ct.ticks.toNat := by simp [attempts, hphase]
  rw [hticks] at hlt hsent
  refine ⟨h.want_eq, h.sent_le_acquired, ?_, fun hok ↦ absurd (Or.inl hneg) hok, ?_, fun _ ↦ ?_,
    fun _ ↦ rfl, by simp, hneg.le⟩
  · simpa [attempts] using hsent
  · simpa [attempts] using hlt.le
  · simpa [attempts] using hlt

/-- Counting an attempt does not add one: the count stays within `want`, so it does not wrap. -/
theorem CamThread.Worked.attempts_tally (h : ct.Worked want acquired sent)
    (hphase : ct.phase = .count) :
    { ct with ticks := ct.ticks + 1, phase := .loop }.attempts = ct.attempts := by
  have hold : ct.attempts = ct.ticks.toNat + 1 := by simp [attempts, hphase]
  have hle := h.attempts_le
  have hwrap : (ct.ticks + 1).toNat = ct.ticks.toNat + 1 := by
    have hwant := want.toNat_lt
    rw [UInt64.toNat_add]
    exact Nat.mod_eq_of_lt (by change ct.ticks.toNat + 1 < 2 ^ 64; omega)
  simp [attempts, hwrap, hphase]

theorem CamThread.Worked.tally (h : ct.Worked want acquired sent) (hphase : ct.phase = .count) :
    { ct with ticks := ct.ticks + 1, phase := .loop }.Worked want acquired sent := by
  have hlive := h.not_failed (by simp [hphase]) (by simp [hphase])
  have hrc : ¬ct.rc < 0 := fun hrc ↦ hlive (Or.inl hrc)
  have hsame := h.attempts_tally hphase
  refine ⟨h.want_eq, h.sent_le_acquired, ?_, fun _ ↦ ?_, ?_, ?_, fun hrc' ↦ absurd hrc' hrc,
    by simp, h.nonpos⟩
  · rw [hsame]
    exact h.sent_le
  · rw [hsame]
    exact h.acquired_le hlive
  · rw [hsame]
    exact h.attempts_le
  · rintro (hbad | hbad | ⟨rc', hbad⟩)
    · cases hbad
    · exact absurd hbad hrc
    · cases hbad

end Worked

end SparseCamera
