import Mathlib.Algebra.Order.Group.Basic

/-!
# Pacing by deadlines

A loop waits for a deadline, does its work and sets the next deadline. It can wake late, by any
amount, and the rule for the next deadline says what it does about that. Here the next deadline is
one period after the last one, or, if that has passed as well, one period after the wake-up.

Nothing is assumed about the delays. A loop that keeps this rule never catches up: `k` rounds take
more than `k - 1` periods, however late the first of them was (`Paced.add_nsmul_lt`). And it does
not drift: as long as no round is late by a whole period, the deadlines are the multiples of the
period (`Paced.deadline_eq`).
-/

namespace Pacing

variable {α : Type*} [AddCommGroup α] [LinearOrder α]

/-- The deadline after the deadline `d`, if the loop woke at `t`. -/
def next (period d t : α) : α := if d + period ≤ t then t + period else d + period

/-- The first `n` rounds of a loop with deadlines `d` and wake-ups `t`. -/
structure Paced (period : α) (d t : ℕ → α) (n : ℕ) : Prop where
  wakes : ∀ k < n, d k ≤ t k
  next : ∀ k < n, d (k + 1) = next period (d k) (t k)

section Next

variable [IsOrderedAddMonoid α] {period d t : α}

theorem lt_next (hperiod : 0 < period) : t < next period d t := by
  rw [next]
  split_ifs with hlate
  · exact lt_add_of_pos_right t hperiod
  · exact not_le.mp hlate

theorem add_le_next (hwakes : d ≤ t) : d + period ≤ next period d t := by
  rw [next]
  split_ifs
  · gcongr
  · rfl

end Next

namespace Paced

variable {period : α} {d t : ℕ → α} {n j k : ℕ}

/-- **No drift.** -/
theorem deadline_eq (h : Paced period d t n) (hk : k ≤ n) (hlate : ∀ i < k, t i < d i + period) :
    d k = d 0 + k • period := by
  induction k with
  | zero => rw [zero_nsmul, add_zero]
  | succ k ih =>
    have hd := ih (by omega) fun i hi ↦ hlate i (by omega)
    rw [h.next k hk, Pacing.next, if_neg (not_le.mpr (hlate k k.lt_succ_self)), hd, succ_nsmul,
      add_assoc]

variable [IsOrderedAddMonoid α]

theorem lt_deadline (h : Paced period d t n) (hperiod : 0 < period) (hk : k < n) :
    t k < d (k + 1) := by
  rw [h.next k hk]
  exact lt_next hperiod

theorem add_le_deadline (h : Paced period d t n) (hk : k < n) : d k + period ≤ d (k + 1) := by
  rw [h.next k hk]
  exact add_le_next (h.wakes k hk)

theorem add_nsmul_le_deadline (h : Paced period d t n) (hn : j + k ≤ n) :
    d j + k • period ≤ d (j + k) := by
  induction k with
  | zero => rw [zero_nsmul, add_zero, Nat.add_zero]
  | succ k ih =>
    calc d j + (k + 1) • period = d j + k • period + period := by rw [succ_nsmul, add_assoc]
      _ ≤ d (j + k) + period := by
        gcongr
        exact ih (by omega)
      _ ≤ d (j + k + 1) := h.add_le_deadline (by omega)

/-- **No backlog.** Between two wake-ups lie more than all but one of the periods. -/
theorem add_nsmul_lt (h : Paced period d t n) (hperiod : 0 < period) (hjk : j < k) (hk : k < n) :
    t j + (k - j - 1) • period < t k := by
  obtain ⟨m, rfl⟩ := Nat.exists_eq_add_of_lt hjk
  have hm : j + m + 1 - j - 1 = m := by omega
  calc t j + (j + m + 1 - j - 1) • period = t j + m • period := by rw [hm]
    _ < d (j + 1) + m • period := by
      gcongr
      exact h.lt_deadline hperiod (by omega)
    _ ≤ d (j + 1 + m) := h.add_nsmul_le_deadline (by omega)
    _ = d (j + m + 1) := by rw [Nat.add_right_comm]
    _ ≤ t (j + m + 1) := h.wakes _ hk

theorem wake_lt (h : Paced period d t n) (hperiod : 0 < period) (hjk : j < k) (hk : k < n) :
    t j < t k :=
  (le_add_of_nonneg_right (nsmul_nonneg hperiod.le _)).trans_lt (h.add_nsmul_lt hperiod hjk hk)

end Paced

end Pacing
