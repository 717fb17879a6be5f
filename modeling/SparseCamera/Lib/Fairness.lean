import Mathlib.Data.Nat.Init
import Mathlib.Order.Interval.Set.Basic
import Mathlib.Order.WellFounded
import SparseCamera.Lib.Execution

/-!
# Runs without end

An execution follows a list of labels and is over with it. Whether something happens at all is a
question about runs that never end, and there it depends on the scheduler: a party that could move
and is never chosen does nothing. A run is fair to a party if that does not happen.

A party is a set of labels. The ranking rule is how a fair run is shown to get somewhere: while it
is not there, the party can move, each of its moves brings down a number, and nobody else's brings
it up.

## The ranking rule

A natural number that never rises stays the same from some time on (`settles`). If the goal were
never reached, the party could move all the time, and a fair run would let it move after the rank
has settled; but its moves bring the rank down. No measure of how long a party may be kept waiting
is needed.
-/

namespace Execution

variable {σ ℓ : Type*} {step : σ → ℓ → Option σ}

structure Run (step : σ → ℓ → Option σ) where
  state : ℕ → σ
  label : ℕ → ℓ
  next : ∀ t, step (state t) (label t) = some (state (t + 1))

/-- Some step of the party is enabled. -/
def CanMove (step : σ → ℓ → Option σ) (P : ℓ → Prop) (s : σ) : Prop :=
  ∃ l, P l ∧ (step s l).isSome = true

namespace Run

variable (r : Run step)

/-- A party that can move from some time on moves at some time after that. -/
def Fair (P : ℓ → Prop) : Prop :=
  ∀ t, (∀ t', t ≤ t' → CanMove step P (r.state t')) → ∃ t', t ≤ t' ∧ P (r.label t')

variable {r}

theorem exec_state (r : Run step) (t : ℕ) :
    exec step (r.state 0) ((List.range t).map r.label) = some (r.state t) := by
  induction t with
  | zero => rfl
  | succ t ih =>
    rw [List.range_succ, List.map_append, exec_append, ih, Option.bind_some, List.map_singleton,
      exec_cons, r.next]
    rfl

theorem stays {I : σ → Prop} (hstep : ∀ s l s', I s → step s l = some s' → I s') {t t' : ℕ}
    (hle : t ≤ t') (h : I (r.state t)) : I (r.state t') := by
  induction t', hle using Nat.le_induction with
  | base => exact h
  | succ u _ ih => exact hstep _ _ _ ih (r.next u)

/-- A number that does not rise from one step to the next is never higher than it was. -/
theorem never_rises {f : σ → ℕ} {t₀ : ℕ}
    (h : ∀ t, t₀ ≤ t → f (r.state (t + 1)) ≤ f (r.state t)) {t t' : ℕ} (ht : t₀ ≤ t)
    (hle : t ≤ t') : f (r.state t') ≤ f (r.state t) := by
  induction t', hle using Nat.le_induction with
  | base => exact le_rfl
  | succ u hu ih => exact (h u (ht.trans hu)).trans ih

/-- **It comes to rest**, where it is lowest. -/
theorem settles (r : Run step) (f : σ → ℕ) (t₀ : ℕ)
    (h : ∀ t, t₀ ≤ t → f (r.state (t + 1)) ≤ f (r.state t)) :
    ∃ t, t₀ ≤ t ∧ ∀ t', t ≤ t' → f (r.state t') = f (r.state t) := by
  obtain ⟨t, ht, hlowest⟩ :=
    (measure fun t ↦ f (r.state t)).wf.has_min (Set.Ici t₀) Set.nonempty_Ici
  refine ⟨t, ht, fun t' hle ↦ ?_⟩
  apply le_antisymm (never_rises h ht hle)
  exact not_lt.mp (hlowest t' (ht.trans hle))

/-- **The ranking rule.** -/
theorem reaches {P : ℓ → Prop} (hfair : r.Fair P) (goal : σ → Prop) (rank : σ → ℕ) (t₀ : ℕ)
    (hcan : ∀ t, t₀ ≤ t → ¬goal (r.state t) → CanMove step P (r.state t))
    (hdown : ∀ t, t₀ ≤ t → ¬goal (r.state t) → P (r.label t) →
      rank (r.state (t + 1)) < rank (r.state t))
    (hstay : ∀ t, t₀ ≤ t → ¬goal (r.state t) → ¬P (r.label t) →
      rank (r.state (t + 1)) ≤ rank (r.state t)) :
    ∃ t, t₀ ≤ t ∧ goal (r.state t) := by
  by_contra hnever
  have hnot (t : ℕ) (ht : t₀ ≤ t) : ¬goal (r.state t) := fun hgoal ↦ hnever ⟨t, ht, hgoal⟩
  have hle (t : ℕ) (ht : t₀ ≤ t) : rank (r.state (t + 1)) ≤ rank (r.state t) := by
    by_cases hP : P (r.label t)
    · exact (hdown t ht (hnot t ht) hP).le
    · exact hstay t ht (hnot t ht) hP
  -- the rank comes to rest, and the party moves once more
  obtain ⟨t, ht, hrest⟩ := r.settles rank t₀ hle
  obtain ⟨u, hu, hP⟩ := hfair t fun t' ht' ↦ hcan t' (ht.trans ht') (hnot t' (ht.trans ht'))
  have hlt := hdown u (ht.trans hu) (hnot u (ht.trans hu)) hP
  rw [hrest u hu, hrest (u + 1) (Nat.le_succ_of_le hu)] at hlt
  exact absurd hlt (Nat.lt_irrefl _)

/-! ## Executions that are over

A run has no last state. An execution that has reached a state in which a label changes nothing is
continued by that label for ever, and this is fair to every party that has nothing left to do
there. -/

/-- An execution that is over goes on for ever where it can mark time. -/
def ofExec {s₀ s : σ} {ls : List ℓ} (hexec : exec step s₀ ls = some s) {l : ℓ}
    (hidle : step s l = some s) : Run step where
  state t := (exec step s₀ (ls.take t)).getD s
  label t := ls[t]?.getD l
  next t := by
    by_cases ht : t < ls.length
    · have hprefix := hexec
      rw [← List.take_append_drop (t + 1) ls, exec_append] at hprefix
      obtain ⟨u, hu, -⟩ := Option.bind_eq_some_iff.mp hprefix
      have htake : ls.take (t + 1) = ls.take t ++ [ls[t]] := by
        rw [List.take_add_one, List.getElem?_eq_getElem ht]
        rfl
      have hlast := hu
      rw [htake] at hlast
      obtain ⟨s', hs', hstep⟩ := exec_concat_eq_some.mp hlast
      rw [hs', hu, Option.getD_some, Option.getD_some, List.getElem?_eq_getElem ht]
      exact hstep
    · have hlen := not_lt.mp ht
      rw [List.take_of_length_le hlen, List.take_of_length_le (Nat.le_succ_of_le hlen), hexec,
        Option.getD_some, List.getElem?_eq_none hlen]
      exact hidle

theorem ofExec_state_zero {s₀ s : σ} {ls : List ℓ} (hexec : exec step s₀ ls = some s) {l : ℓ}
    (hidle : step s l = some s) : (ofExec hexec hidle).state 0 = s₀ := rfl

theorem ofExec_state {s₀ s : σ} {ls : List ℓ} (hexec : exec step s₀ ls = some s) {l : ℓ}
    (hidle : step s l = some s) {t : ℕ} (ht : ls.length ≤ t) :
    (ofExec hexec hidle).state t = s := by
  change (exec step s₀ (ls.take t)).getD s = s
  rw [List.take_of_length_le ht, hexec, Option.getD_some]

theorem fair_ofExec {s₀ s : σ} {ls : List ℓ} (hexec : exec step s₀ ls = some s) {l : ℓ}
    (hidle : step s l = some s) {P : ℓ → Prop} (hend : ¬CanMove step P s) :
    (ofExec hexec hidle).Fair P := by
  intro t hcan
  refine absurd (hcan (max t ls.length) (le_max_left _ _)) ?_
  rwa [ofExec_state hexec hidle (le_max_right _ _)]

end Run

end Execution
