import Mathlib.Data.List.Basic
import Mathlib.Data.List.Induction

/-!
# Executions of a labelled partial step

A system is a function that takes a state and a label and gives the next state, or nothing when the
label is not enabled there. An execution follows a list of labels. An interleaving of several
parties is an execution whose labels say which party moves.

What an execution did is read off its trace: every step may emit an event, which can depend on the
state it was taken in.

## The invariant rule

An invariant may speak of the steps taken so far, not of the state alone. It holds of every state
that can be reached if it holds at the start, with no steps taken, and every step that is enabled
keeps it. The induction is on the steps from the end, so that the one that is added is the last.
-/

namespace Execution

variable {σ ℓ : Type*} {step : σ → ℓ → Option σ}

/-- Follow a list of labels; `none` as soon as one is not enabled. -/
def exec (step : σ → ℓ → Option σ) : σ → List ℓ → Option σ
  | s, [] => some s
  | s, l :: ls => (step s l).bind fun s' ↦ exec step s' ls

@[simp] theorem exec_nil (s : σ) : exec step s [] = some s := rfl

theorem exec_cons (s : σ) (l : ℓ) (ls : List ℓ) :
    exec step s (l :: ls) = (step s l).bind fun s' ↦ exec step s' ls := rfl

theorem exec_append (s : σ) (ls ls' : List ℓ) :
    exec step s (ls ++ ls') = (exec step s ls).bind fun s' ↦ exec step s' ls' := by
  induction ls generalizing s with
  | nil => rfl
  | cons l ls ih =>
    rw [List.cons_append, exec_cons, exec_cons, Option.bind_assoc]
    exact congrArg _ (funext fun s' ↦ ih s')

theorem exec_concat_eq_some {s s'' : σ} {ls : List ℓ} {l : ℓ} :
    exec step s (ls ++ [l]) = some s'' ↔ ∃ s', exec step s ls = some s' ∧ step s' l = some s'' := by
  rw [exec_append, Option.bind_eq_some_iff]
  simp only [exec_cons, exec_nil, Option.bind_fun_some]

/-- **The invariant rule**: what holds at the start and is preserved by every step holds wherever an
execution leads. The invariant may mention the labels taken so far. -/
theorem invariant {I : List ℓ → σ → Prop} {s₀ : σ} (hinit : I [] s₀)
    (hstep : ∀ ls s l s', exec step s₀ ls = some s → I ls s → step s l = some s' → I (ls ++ [l]) s')
    {ls : List ℓ} {s : σ} (hexec : exec step s₀ ls = some s) : I ls s := by
  induction ls using List.reverseRecOn generalizing s with
  | nil =>
    obtain rfl := Option.some.inj hexec
    exact hinit
  | append_singleton ls l ih =>
    obtain ⟨s', hls, hl⟩ := exec_concat_eq_some.mp hexec
    exact hstep ls s' l s hls (ih hls) hl

/-- A property that only some steps break survives an execution exactly when it takes none of
them. -/
theorem survives_iff {I : σ → Prop} {Breaks : σ → ℓ → Prop}
    (hkeep : ∀ s l, I s → ¬Breaks s l → ∃ s', step s l = some s' ∧ I s')
    (hbreak : ∀ s l, I s → Breaks s l → ∃ s', step s l = some s' ∧ ¬I s')
    {s : σ} (hinit : I s) (ls : List ℓ) :
    (∀ pre, pre <+: ls → ∃ s', exec step s pre = some s' ∧ I s') ↔
      ∀ pre l post, ls = pre ++ l :: post → ∀ s', exec step s pre = some s' → ¬Breaks s' l := by
  induction ls generalizing s with
  | nil =>
    refine ⟨fun _ pre l post h ↦ absurd h (by simp), fun _ pre hpre ↦ ?_⟩
    rw [List.prefix_nil.mp hpre]
    exact ⟨s, rfl, hinit⟩
  | cons l ls ih =>
    by_cases hl : Breaks s l
    · obtain ⟨s', hs', hbad⟩ := hbreak s l hinit hl
      refine ⟨fun hall ↦ ?_, fun hnone ↦ absurd hl (hnone [] l ls rfl s rfl)⟩
      obtain ⟨s'', hs'', hI⟩ := hall [l] ⟨ls, rfl⟩
      rw [exec_cons, hs', Option.bind_some, exec_nil] at hs''
      exact absurd (Option.some.inj hs'' ▸ hI) hbad
    · obtain ⟨s', hs', hI⟩ := hkeep s l hinit hl
      have hcons (pre : List ℓ) : exec step s (l :: pre) = exec step s' pre := by
        rw [exec_cons, hs', Option.bind_some]
      have hiff := ih hI
      constructor
      · rintro hall pre l' post hls s'' hs''
        cases pre with
        | nil =>
          obtain ⟨rfl, rfl⟩ := List.cons.inj hls
          exact Option.some.inj hs'' ▸ hl
        | cons k pre =>
          obtain ⟨rfl, hrest⟩ := List.cons.inj hls
          rw [hcons] at hs''
          -- the rest is an execution from the next state
          refine hiff.mp (fun pre' hpre' ↦ ?_) pre l' post hrest s'' hs''
          obtain ⟨t, ht, htI⟩ := hall (l :: pre') ((List.prefix_cons_inj l).mpr hpre')
          exact ⟨t, (hcons pre') ▸ ht, htI⟩
      · intro hnone pre hpre
        cases pre with
        | nil => exact ⟨s, rfl, hinit⟩
        | cons k pre =>
          obtain ⟨rfl, hrest⟩ := List.cons_prefix_cons.mp hpre
          rw [hcons]
          refine hiff.mpr (fun pre' l' post hls t ht ↦ ?_) pre hrest
          exact hnone (k :: pre') l' post (by rw [hls, List.cons_append]) t ((hcons pre').trans ht)

/-! ## Traces

Most invariants do not need the labels, they need what happened. `invariant_trace` is the rule for
those: it says how the trace grows by a step and leaves the rest to the system. -/

section Trace

variable {η : Type*} {event : σ → ℓ → Option η}

def trace (step : σ → ℓ → Option σ) (event : σ → ℓ → Option η) : σ → List ℓ → List η
  | _, [] => []
  | s, l :: ls => (event s l).toList ++ (step s l).elim [] fun s' ↦ trace step event s' ls

@[simp] theorem trace_nil (s : σ) : trace step event s [] = [] := rfl

theorem trace_concat {s s' : σ} {ls : List ℓ} (l : ℓ) (h : exec step s ls = some s') :
    trace step event s (ls ++ [l]) = trace step event s ls ++ (event s' l).toList := by
  induction ls generalizing s with
  | nil =>
    obtain rfl := Option.some.inj h
    cases hl : step s l <;> simp [trace, hl]
  | cons k ls ih =>
    rw [exec_cons] at h
    obtain ⟨t, ht, hrest⟩ := Option.bind_eq_some_iff.mp h
    rw [List.cons_append, trace, trace, ht, Option.elim_some, Option.elim_some, ih hrest,
      List.append_assoc]

/-- The invariant rule for invariants that mention the trace, where only some labels are taken. -/
theorem invariant_trace {I : List η → σ → Prop} {P : ℓ → Prop} {s₀ : σ} (hinit : I [] s₀)
    (hstep : ∀ tr s l s', P l → I tr s → step s l = some s' → I (tr ++ (event s l).toList) s')
    {ls : List ℓ} {s : σ} (hexec : exec step s₀ ls = some s) (hP : ∀ l ∈ ls, P l) :
    I (trace step event s₀ ls) s := by
  refine invariant (I := fun ls s ↦ (∀ l ∈ ls, P l) → I (trace step event s₀ ls) s)
    (fun _ ↦ hinit) ?_ hexec hP
  intro ls s l s' hls hI hl hP
  rw [trace_concat l hls]
  exact hstep _ s l s' (hP l (by simp)) (hI fun k hk ↦ hP k (List.mem_append_left _ hk)) hl

/-- Every event of one kind is followed, sooner or later, by one of another kind. -/
def FollowedBy (p q : η → Prop) (tr : List η) : Prop :=
  ∀ pre e post, tr = pre ++ e :: post → p e → ∃ e' ∈ post, q e'

/-- Only the last event can be left without a follower, unless it is a follower itself. -/
theorem followedBy_concat {p q : η → Prop} {tr : List η} {e : η} :
    FollowedBy p q (tr ++ [e]) ↔ ¬p e ∧ (q e ∨ FollowedBy p q tr) := by
  constructor
  · intro h
    refine ⟨fun hp ↦ ?_, or_iff_not_imp_left.mpr fun hq pre e' post htr hp ↦ ?_⟩
    · obtain ⟨e', he', -⟩ := h tr e [] rfl hp
      exact absurd he' List.not_mem_nil
    · obtain ⟨e'', he'', hq''⟩ := h pre e' (post ++ [e]) (by rw [htr]; simp) hp
      rcases List.mem_append.mp he'' with hmem | hmem
      · exact ⟨e'', hmem, hq''⟩
      · exact absurd (List.mem_singleton.mp hmem ▸ hq'') hq
  · rintro ⟨hp, hrest⟩ pre e' post htr hp'
    -- either the event is the last one or the last one comes behind it
    rcases List.eq_nil_or_concat post with rfl | ⟨post', last, rfl⟩
    · obtain ⟨-, hlast⟩ := List.append_inj' htr rfl
      exact absurd ((List.singleton_inj.mp hlast) ▸ hp') hp
    · rw [List.concat_eq_append, ← List.cons_append, ← List.append_assoc] at htr
      obtain ⟨htr', hlast⟩ := List.append_inj' htr rfl
      obtain rfl := List.singleton_inj.mp hlast
      rcases hrest with hq | hrest
      · exact ⟨e, by simp, hq⟩
      · obtain ⟨e'', he'', hq''⟩ := hrest pre e' post' htr' hp'
        exact ⟨e'', by simp [he''], hq''⟩

end Trace

end Execution
