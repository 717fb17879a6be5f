import SparseCamera.Lib.Execution

/-!
# Simulation

A system with more parties, more state and finer steps refines a simpler one if each of its steps
is a step of the simpler system or leaves that system's part of the state alone. Then each of its
executions is one of the simpler system's, and what is proved about those holds of it.

The labels of the simpler execution are a trace of the finer one.

Where the simpler system takes the very same labels and can take no others, the two go side by side,
and an execution exists in one exactly if it does in the other (`exec_map`).
-/

namespace Execution

variable {σ σ' ℓ ℓ' : Type*} {step : σ → ℓ → Option σ} {step' : σ' → ℓ' → Option σ'}
  {part : σ → σ'} {move : σ → ℓ → Option ℓ'}

/-- Every step is a step of the other system, the one that `move` says, or none of its steps. -/
def Refines (step : σ → ℓ → Option σ) (step' : σ' → ℓ' → Option σ') (part : σ → σ')
    (move : σ → ℓ → Option ℓ') : Prop :=
  ∀ {s l s'}, step s l = some s' → exec step' (part s) (move s l).toList = some (part s')

/-- **Executions refine executions.** -/
theorem Refines.exec (h : Refines step step' part move) {s s' : σ} {ls : List ℓ}
    (hexec : exec step s ls = some s') :
    Execution.exec step' (part s) (trace step move s ls) = some (part s') := by
  refine invariant_trace (P := fun _ ↦ True)
    (I := fun tr t ↦ Execution.exec step' (part s) tr = some (part t)) rfl ?_ hexec
    fun _ _ ↦ trivial
  intro tr t l t' _ htr hstep
  rw [exec_append, htr, Option.bind_some]
  exact h hstep

/-- **Side by side.** If the steps of two systems match wherever an invariant holds, so do their
executions. -/
theorem exec_map {step' : σ' → ℓ → Option σ'} {I : σ → Prop}
    (hkeep : ∀ {s l s'}, I s → step s l = some s' → I s')
    (hmatch : ∀ {s}, I s → ∀ l, (step s l).map part = step' (part s) l) {s : σ} (hs : I s)
    (ls : List ℓ) :
    (Execution.exec step s ls).map part = Execution.exec step' (part s) ls := by
  induction ls generalizing s with
  | nil => rfl
  | cons l ls ih =>
    rw [exec_cons, exec_cons, ← hmatch hs l]
    cases hstep : step s l with
    | none => rfl
    | some s' =>
      rw [Option.bind_some, Option.map_some, Option.bind_some]
      exact ih (hkeep hs hstep)

theorem exists_of_mem_trace {η : Type*} {event : σ → ℓ → Option η} {s : σ} {ls : List ℓ} {e : η}
    (h : e ∈ trace step event s ls) : ∃ l ∈ ls, ∃ t, event t l = some e := by
  induction ls generalizing s with
  | nil => exact absurd h List.not_mem_nil
  | cons l ls ih =>
    rcases List.mem_append.mp h with hfirst | hrest
    · exact ⟨l, List.mem_cons_self, s, Option.mem_toList.mp hfirst⟩
    · cases hstep : step s l with
      | none => simp [hstep] at hrest
      | some s' =>
        rw [hstep, Option.elim_some] at hrest
        obtain ⟨l', hl', t, ht⟩ := ih hrest
        exact ⟨l', List.mem_cons_of_mem _ hl', t, ht⟩

end Execution
