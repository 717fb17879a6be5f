import Mathlib.Algebra.Order.Group.Multiset

/-!
# Acquiring and releasing

A program that handles resources leaves a log of what it acquired and what it released. Replaying
the log keeps track of what is held, and gets stuck at the first release of something that is not
held, be it a second release or the release of something that was never acquired. A log is settled
when the replay comes to its end with nothing held.

What is held is a multiset, since a resource can come back under the same name while the first one
is still around.
-/

namespace Resources

inductive Use (ρ : Type*) where
  | acquire (r : ρ)
  | release (r : ρ)
deriving DecidableEq

variable {ρ : Type*} [DecidableEq ρ]

/-- What is held after a log, starting from what was held before it. -/
def held : Multiset ρ → List (Use ρ) → Option (Multiset ρ)
  | s, [] => some s
  | s, .acquire r :: log => held (r ::ₘ s) log
  | s, .release r :: log => if r ∈ s then held (s.erase r) log else none

/-- Everything that was acquired was released, and nothing else. -/
def Settled (log : List (Use ρ)) : Prop := held 0 log = some 0

instance (log : List (Use ρ)) : Decidable (Settled log) :=
  inferInstanceAs (Decidable (held 0 log = some 0))

variable {s t u : Multiset ρ} {log log' : List (Use ρ)} {r : ρ} {rs : List ρ}

@[simp] theorem held_nil (s : Multiset ρ) : held s [] = some s := rfl

@[simp] theorem held_acquire (s : Multiset ρ) (r : ρ) (log : List (Use ρ)) :
    held s (.acquire r :: log) = held (r ::ₘ s) log := rfl

theorem held_release (s : Multiset ρ) (r : ρ) (log : List (Use ρ)) :
    held s (.release r :: log) = if r ∈ s then held (s.erase r) log else none := rfl

@[simp] theorem held_release_cons (s : Multiset ρ) (r : ρ) (log : List (Use ρ)) :
    held (r ::ₘ s) (.release r :: log) = held s log := by
  rw [held_release, if_pos (Multiset.mem_cons_self r s), Multiset.erase_cons_head]

theorem held_append (s : Multiset ρ) (log log' : List (Use ρ)) :
    held s (log ++ log') = (held s log).bind fun t ↦ held t log' := by
  induction log generalizing s with
  | nil => rfl
  | cons use log ih =>
    cases use with
    | acquire r =>
      rw [List.cons_append, held_acquire, held_acquire]
      exact ih (r ::ₘ s)
    | release r =>
      rw [List.cons_append, held_release, held_release]
      split_ifs
      · exact ih (s.erase r)
      · rfl

theorem held_acquires (s : Multiset ρ) (rs : List ρ) :
    held s (rs.map .acquire) = some ((rs : Multiset ρ) + s) := by
  induction rs generalizing s with
  | nil => rw [List.map_nil, held_nil, Multiset.coe_nil, zero_add]
  | cons r rs ih =>
    rw [List.map_cons, held_acquire, ih, ← Multiset.cons_coe, Multiset.cons_add, Multiset.add_cons]

theorem held_releases (s : Multiset ρ) (rs : List ρ) :
    held ((rs : Multiset ρ) + s) (rs.map .release) = some s := by
  induction rs with
  | nil => rw [List.map_nil, held_nil, Multiset.coe_nil, zero_add]
  | cons r rs ih =>
    rw [List.map_cons, ← Multiset.cons_coe, Multiset.cons_add, held_release_cons]
    exact ih

theorem held_of_append (h : held s log = some t) (h' : held t log' = some u) :
    held s (log ++ log') = some u := by
  rw [held_append, h, Option.bind_some, h']

/-- What was held before a log and acquired in it is held after it or was released in it. -/
theorem count_held (h : held s log = some t) (r : ρ) :
    s.count r + log.count (.acquire r) = t.count r + log.count (.release r) := by
  induction log generalizing s with
  | nil => rw [Option.some.inj h, List.count_nil, List.count_nil]
  | cons use log ih =>
    cases use with
    | acquire r' =>
      have hrest := ih h
      rw [Multiset.count_cons] at hrest
      rw [List.count_cons, List.count_cons]
      by_cases hr : r = r'
      · simp [hr] at hrest ⊢
        omega
      · simp [hr, Ne.symm hr] at hrest ⊢
        omega
    | release r' =>
      rw [held_release] at h
      split_ifs at h with hmem
      have hrest := ih h
      rw [List.count_cons, List.count_cons]
      by_cases hr : r = r'
      · subst hr
        have hpos := Multiset.count_pos.mpr hmem
        rw [Multiset.count_erase_self] at hrest
        simp at hrest ⊢
        omega
      · rw [Multiset.count_erase_of_ne hr] at hrest
        simp [Ne.symm hr]
        omega

/-- **Exactly once**: in a settled log each resource is released as often as it is acquired. -/
theorem Settled.count_release (h : Settled log) (r : ρ) :
    log.count (.release r) = log.count (.acquire r) := by
  have hcount := count_held h r
  rw [Multiset.count_zero] at hcount
  omega

end Resources
