import SparseCamera.Lib.Resources

/-!
# What a resource needs

A socket needs its context, a thread the object it works on. What a resource needs is a list of
requirements, and each of them can be met by any one of several resources. A state is grounded if
the requirements of everything that is held are met by what is held, and a log is orderly if it
never leaves the grounded states: nothing is acquired before what it needs, and nothing is released
while something needs it.

Orderly logs can be put in a row, framed by what they do not touch, and renamed.

## The invariant

A log is orderly by recursion: the present state is grounded, and so is every one after it. To show
this for a whole program one shows it for its parts and puts them in a row (`Takes.append`). A part
is shown for the state it needs and used in any larger one (`Takes.add`), as long as what else is
held is grounded by itself.
-/

namespace Resources

section Grounded

variable {ρ : Type*} {needs : ρ → List (ρ → Bool)} {s u : Multiset ρ} {r : ρ}

/-- Everything that is held has what it needs. -/
def Grounded (needs : ρ → List (ρ → Bool)) (s : Multiset ρ) : Prop :=
  ∀ a ∈ s, ∀ p ∈ needs a, ∃ b ∈ s, p b = true

instance (needs : ρ → List (ρ → Bool)) (s : Multiset ρ) : Decidable (Grounded needs s) :=
  have (p : ρ → Bool) : Decidable (∃ b ∈ s, p b = true) := Multiset.decidableExistsMultiset
  Multiset.decidableForallMultiset

theorem Grounded.add (hs : Grounded needs s) (hu : Grounded needs u) : Grounded needs (s + u) := by
  intro a ha p hp
  rcases Multiset.mem_add.mp ha with ha | ha
  · obtain ⟨b, hb, hpb⟩ := hs a ha p hp
    exact ⟨b, Multiset.mem_add.mpr (Or.inl hb), hpb⟩
  · obtain ⟨b, hb, hpb⟩ := hu a ha p hp
    exact ⟨b, Multiset.mem_add.mpr (Or.inr hb), hpb⟩

theorem Grounded.cons (hs : Grounded needs s) (hr : ∀ p ∈ needs r, ∃ b ∈ s, p b = true) :
    Grounded needs (r ::ₘ s) := by
  intro a ha p hp
  rcases Multiset.mem_cons.mp ha with rfl | ha
  · obtain ⟨b, hb, hpb⟩ := hr p hp
    exact ⟨b, Multiset.mem_cons_of_mem hb, hpb⟩
  · obtain ⟨b, hb, hpb⟩ := hs a ha p hp
    exact ⟨b, Multiset.mem_cons_of_mem hb, hpb⟩

/-- A resource is taken away that nothing else has a use for. -/
theorem Grounded.of_cons (hs : Grounded needs (r ::ₘ s))
    (hr : ∀ a ∈ s, ∀ p ∈ needs a, p r = false) : Grounded needs s := by
  intro a ha p hp
  obtain ⟨b, hb, hpb⟩ := hs a (Multiset.mem_cons_of_mem ha) p hp
  rcases Multiset.mem_cons.mp hb with rfl | hb
  · rw [hr a ha p hp] at hpb
    cases hpb
  · exact ⟨b, hb, hpb⟩

end Grounded

/-! ## Orderly logs -/

variable {ρ ρ' : Type*} [DecidableEq ρ] [DecidableEq ρ'] {needs : ρ → List (ρ → Bool)}
  {s t : Multiset ρ} {log log' : List (Use ρ)} {r : ρ} {rs : List ρ}

/-- At every moment of the log everything that is held has what it needs, and only what is held is
released. -/
def Orderly (needs : ρ → List (ρ → Bool)) : Multiset ρ → List (Use ρ) → Prop
  | s, [] => Grounded needs s
  | s, .acquire r :: log => Grounded needs s ∧ Orderly needs (r ::ₘ s) log
  | s, .release r :: log => Grounded needs s ∧ r ∈ s ∧ Orderly needs (s.erase r) log

instance decidableOrderly (needs : ρ → List (ρ → Bool)) :
    (s : Multiset ρ) → (log : List (Use ρ)) → Decidable (Orderly needs s log)
  | s, [] => inferInstanceAs (Decidable (Grounded needs s))
  | s, .acquire r :: log =>
    have := decidableOrderly needs (r ::ₘ s) log
    inferInstanceAs (Decidable (Grounded needs s ∧ Orderly needs (r ::ₘ s) log))
  | s, .release r :: log =>
    have := decidableOrderly needs (s.erase r) log
    inferInstanceAs (Decidable (Grounded needs s ∧ r ∈ s ∧ Orderly needs (s.erase r) log))

theorem Orderly.grounded (h : Orderly needs s log) : Grounded needs s := by
  cases log with
  | nil => exact h
  | cons use log =>
    cases use with
    | acquire r => exact h.1
    | release r => exact h.1

theorem Orderly.held (h : Orderly needs s log) :
    ∃ t, Resources.held s log = some t ∧ Grounded needs t := by
  induction log generalizing s with
  | nil => exact ⟨s, rfl, h⟩
  | cons use log ih =>
    cases use with
    | acquire r => exact ih h.2
    | release r =>
      obtain ⟨-, hmem, hrest⟩ := h
      rw [held_release, if_pos hmem]
      exact ih hrest

theorem orderly_append (h : Orderly needs s log) (hheld : held s log = some t)
    (h' : Orderly needs t log') : Orderly needs s (log ++ log') := by
  induction log generalizing s with
  | nil =>
    obtain rfl := Option.some.inj hheld
    exact h'
  | cons use log ih =>
    cases use with
    | acquire r => exact ⟨h.1, ih h.2 hheld⟩
    | release r =>
      obtain ⟨hs, hmem, hrest⟩ := h
      rw [held_release, if_pos hmem] at hheld
      exact ⟨hs, hmem, ih hrest hheld⟩

/-- **At every moment**: what is held after a part of an orderly log has what it needs. -/
theorem Orderly.of_append (h : Orderly needs s (log ++ log')) : Orderly needs s log := by
  induction log generalizing s with
  | nil => exact h.grounded
  | cons use log ih =>
    cases use with
    | acquire r => exact ⟨h.1, ih h.2⟩
    | release r => exact ⟨h.1, h.2.1, ih h.2.2⟩

private theorem orderly_release_cons (hs : Grounded needs (r ::ₘ s)) (h : Orderly needs s log) :
    Orderly needs (r ::ₘ s) (.release r :: log) := by
  refine ⟨hs, Multiset.mem_cons_self r s, ?_⟩
  rw [Multiset.erase_cons_head]
  exact h

theorem orderly_releases (hall : Grounded needs ((rs : Multiset ρ) + s))
    (hrs : rs.Pairwise fun r a ↦ ∀ p ∈ needs a, p r = false)
    (hs : ∀ r ∈ rs, ∀ a ∈ s, ∀ p ∈ needs a, p r = false) :
    Orderly needs ((rs : Multiset ρ) + s) (rs.map .release) := by
  induction rs with
  | nil => exact hall
  | cons r rs ih =>
    rw [← Multiset.cons_coe, Multiset.cons_add] at hall ⊢
    obtain ⟨hfirst, hrest⟩ := List.pairwise_cons.mp hrs
    refine orderly_release_cons hall (ih (hall.of_cons ?_) hrest ?_)
    · intro a ha
      rcases Multiset.mem_add.mp ha with ha | ha
      · exact hfirst a ha
      · exact hs r List.mem_cons_self a ha
    · exact fun r' hr' ↦ hs r' (List.mem_cons_of_mem r hr')

/-! ## Frames

Whatever a log does not mention can be held all along. It needs nothing from the log, as it is
grounded by itself. -/

theorem held_add (h : held s log = some t) (u : Multiset ρ) : held (s + u) log = some (t + u) := by
  induction log generalizing s with
  | nil => rw [Option.some.inj h, held_nil]
  | cons use log ih =>
    cases use with
    | acquire r =>
      rw [held_acquire, ← Multiset.cons_add]
      exact ih h
    | release r =>
      rw [held_release] at h
      split_ifs at h with hmem
      rw [held_release, if_pos (Multiset.mem_add.mpr (Or.inl hmem)),
        Multiset.erase_add_left_pos u hmem]
      exact ih h

theorem Orderly.add (h : Orderly needs s log) {u : Multiset ρ} (hu : Grounded needs u) :
    Orderly needs (s + u) log := by
  induction log generalizing s with
  | nil => exact Grounded.add h hu
  | cons use log ih =>
    cases use with
    | acquire r =>
      refine ⟨h.1.add hu, ?_⟩
      rw [← Multiset.cons_add]
      exact ih h.2
    | release r =>
      obtain ⟨hs, hmem, hrest⟩ := h
      refine ⟨hs.add hu, Multiset.mem_add.mpr (Or.inl hmem), ?_⟩
      rw [Multiset.erase_add_left_pos u hmem]
      exact ih hrest

/-! ## Other names

A component keeps a log about its own resources, and the program that uses it keeps one log about
everything. An injective renaming takes the one into the other. -/

/-- The same entry about a resource with another name. -/
def Use.map {ρ ρ' : Type*} (f : ρ → ρ') : Use ρ → Use ρ'
  | .acquire r => .acquire (f r)
  | .release r => .release (f r)

theorem map_acquires {ρ ρ' : Type*} (f : ρ → ρ') (rs : List ρ) :
    (rs.map Use.acquire).map (Use.map f) = (rs.map f).map .acquire := by
  rw [List.map_map, List.map_map]
  rfl

theorem map_releases {ρ ρ' : Type*} (f : ρ → ρ') (rs : List ρ) :
    (rs.map Use.release).map (Use.map f) = (rs.map f).map .release := by
  rw [List.map_map, List.map_map]
  rfl

theorem held_map {f : ρ → ρ'} (hf : Function.Injective f) (h : held s log = some t) :
    held (s.map f) (log.map (Use.map f)) = some (t.map f) := by
  induction log generalizing s with
  | nil =>
    rw [← Option.some.inj h]
    rfl
  | cons use log ih =>
    cases use with
    | acquire r =>
      rw [List.map_cons, Use.map, held_acquire, ← Multiset.map_cons]
      exact ih h
    | release r =>
      rw [held_release] at h
      split_ifs at h with hmem
      rw [List.map_cons, Use.map, held_release, if_pos (Multiset.mem_map_of_mem f hmem),
        ← Multiset.map_erase f hf]
      exact ih h

/-- Under its new name a resource may need what it needed before, by its new name. -/
theorem Orderly.map {f : ρ → ρ'} (hf : Function.Injective f) {needs' : ρ' → List (ρ' → Bool)}
    (hneeds : ∀ r, ∀ p ∈ needs' (f r), ∃ q ∈ needs r, ∀ b, q b = true → p (f b) = true)
    (h : Orderly needs s log) : Orderly needs' (s.map f) (log.map (Use.map f)) := by
  have hground {s : Multiset ρ} (hs : Grounded needs s) : Grounded needs' (s.map f) := by
    intro a ha p hp
    obtain ⟨r, hr, rfl⟩ := Multiset.mem_map.mp ha
    obtain ⟨q, hq, hqp⟩ := hneeds r p hp
    obtain ⟨b, hb, hqb⟩ := hs r hr q hq
    exact ⟨f b, Multiset.mem_map_of_mem f hb, hqp b hqb⟩
  induction log generalizing s with
  | nil => exact hground h
  | cons use log ih =>
    cases use with
    | acquire r =>
      refine ⟨hground h.1, ?_⟩
      rw [← Multiset.map_cons]
      exact ih h.2
    | release r =>
      obtain ⟨hs, hmem, hrest⟩ := h
      refine ⟨hground hs, Multiset.mem_map_of_mem f hmem, ?_⟩
      rw [← Multiset.map_erase f hf]
      exact ih hrest

/-! ## From one state to another -/

/-- The log is orderly and takes one state to another. -/
def Takes (needs : ρ → List (ρ → Bool)) (s : Multiset ρ) (log : List (Use ρ)) (t : Multiset ρ) :
    Prop :=
  Orderly needs s log ∧ held s log = some t

instance (needs : ρ → List (ρ → Bool)) (s : Multiset ρ) (log : List (Use ρ)) (t : Multiset ρ) :
    Decidable (Takes needs s log t) :=
  inferInstanceAs (Decidable (Orderly needs s log ∧ held s log = some t))

theorem takes_nil (hs : Grounded needs s) : Takes needs s [] s := ⟨hs, rfl⟩

theorem Takes.grounded (h : Takes needs s log t) : Grounded needs t := by
  obtain ⟨t', ht', hgrounded⟩ := h.1.held
  obtain rfl := Option.some.inj (ht'.symm.trans h.2)
  exact hgrounded

theorem Takes.append {u : Multiset ρ} (h : Takes needs s log t) (h' : Takes needs t log' u) :
    Takes needs s (log ++ log') u :=
  ⟨orderly_append h.1 h.2 h'.1, held_of_append h.2 h'.2⟩

theorem takes_acquire (hs : Grounded needs s) (hr : ∀ p ∈ needs r, ∃ b ∈ s, p b = true) :
    Takes needs s [.acquire r] (r ::ₘ s) :=
  ⟨⟨hs, hs.cons hr⟩, rfl⟩

theorem takes_releases (hall : Grounded needs ((rs : Multiset ρ) + s))
    (hrs : rs.Pairwise fun r a ↦ ∀ p ∈ needs a, p r = false)
    (hs : ∀ r ∈ rs, ∀ a ∈ s, ∀ p ∈ needs a, p r = false) :
    Takes needs ((rs : Multiset ρ) + s) (rs.map .release) s :=
  ⟨orderly_releases hall hrs hs, held_releases s rs⟩

/-- The frame rule. -/
theorem Takes.add (h : Takes needs s log t) {u : Multiset ρ} (hu : Grounded needs u) :
    Takes needs (s + u) log (t + u) :=
  ⟨h.1.add hu, held_add h.2 u⟩

theorem Takes.map {f : ρ → ρ'} (hf : Function.Injective f) {needs' : ρ' → List (ρ' → Bool)}
    (hneeds : ∀ r, ∀ p ∈ needs' (f r), ∃ q ∈ needs r, ∀ b, q b = true → p (f b) = true)
    (h : Takes needs s log t) : Takes needs' (s.map f) (log.map (Use.map f)) (t.map f) :=
  ⟨h.1.map hf hneeds, held_map hf h.2⟩

end Resources
