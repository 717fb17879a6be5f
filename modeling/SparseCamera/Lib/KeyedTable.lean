import SparseCamera.Lib.KeyedHistory

/-!
# Tables with room for some keys

A table keeps one record for each key and has room for so many keys. The first entry of a key takes
a fresh record if there is room, every entry is looked up and then changes the record of its key,
and the entries of a key that found no room are passed over.

Entries of one key touch the record of no other key. What a key's entries find is therefore settled
by the key's own stream and by the record it starts from, `start`, and the other keys have a say in
the latter only: they may have used up the room before the key first appeared.

## The construction

A key's history goes through three stages: it has no record, it is given a fresh one or turned away,
and from then on only its own entries count. `start` is the record at the beginning of the third
stage, or that there is none. It is computed from the whole history in advance, and
`start_step_of_ne` says that a step of another key does not change what was computed.
-/

namespace KeyedTable

open KeyedHistory

variable {α κ ρ : Type*} [DecidableEq κ]

structure Table (κ ρ : Type*) where
  keys : Finset κ
  record : κ → ρ

/-- How a table is kept. -/
structure Policy (α κ ρ : Type*) where
  key : α → κ
  room : ℕ
  fresh : κ → ρ
  advance : ρ → α → ρ

/-- The record of a key, if it has one. -/
def Table.held (t : Table κ ρ) (k : κ) : Option ρ := if k ∈ t.keys then some (t.record k) else none

namespace Policy

variable (p : Policy α κ ρ) (t : Table κ ρ)

/-- The record an entry with this key finds. -/
def slot (k : κ) : Option ρ :=
  if k ∈ t.keys then some (t.record k)
  else if t.keys.card < p.room then some (p.fresh k) else none

def step (a : α) : Table κ ρ :=
  (p.slot t (p.key a)).elim t fun r ↦
    ⟨insert (p.key a) t.keys, Function.update t.record (p.key a) (p.advance r a)⟩

def run (l : List α) : Table κ ρ := l.foldl p.step t

@[simp] theorem run_nil : p.run t [] = t := rfl

@[simp] theorem run_cons (a : α) (l : List α) : p.run t (a :: l) = p.run (p.step t a) l := rfl

/-- The entries of one key in a history, each with the record it finds. -/
def looks (k : κ) : Table κ ρ → List α → List (α × Option ρ)
  | _, [] => []
  | t, a :: l => (if p.key a = k then [(a, p.slot t k)] else []) ++ looks k (p.step t a) l

/-- What the entries of a stream find that starts from some record. -/
def found : Option ρ → List α → List (α × Option ρ)
  | _, [] => []
  | r, a :: l => (a, r) :: found (r.map fun r ↦ p.advance r a) l

/-- The key has a record, or there is room left for it when it first appears. -/
def HasRoom (l : List α) (k : κ) : Prop :=
  k ∈ t.keys ∨ (t.keys ∪ keySet p.key (l.takeWhile fun a ↦ p.key a ≠ k)).card < p.room

instance (l : List α) (k : κ) : Decidable (p.HasRoom t l k) :=
  inferInstanceAs (Decidable (_ ∨ _))

/-- The record a key starts a history from. -/
def start (l : List α) (k : κ) : Option ρ :=
  if p.HasRoom t l k then some (if k ∈ t.keys then t.record k else p.fresh k) else none

/-! ## One entry

The three cases of an entry: its key has a record, there is room for one, or there is none. They are
told apart once, in `slot`. -/

section Step

variable {p t} {a : α} {k : κ} {l : List α}

theorem slot_of_mem (h : k ∈ t.keys) : p.slot t k = some (t.record k) := if_pos h

theorem slot_of_room (h : k ∉ t.keys) (hroom : t.keys.card < p.room) :
    p.slot t k = some (p.fresh k) := by
  rw [slot, if_neg h, if_pos hroom]

theorem slot_of_full (h : k ∉ t.keys) (hfull : ¬t.keys.card < p.room) : p.slot t k = none := by
  rw [slot, if_neg h, if_neg hfull]

theorem step_of_slot {r : ρ} (h : p.slot t (p.key a) = some r) :
    p.step t a
      = ⟨insert (p.key a) t.keys, Function.update t.record (p.key a) (p.advance r a)⟩ := by
  rw [step, h, Option.elim_some]

theorem step_of_none (h : p.slot t (p.key a) = none) : p.step t a = t := by
  rw [step, h, Option.elim_none]

theorem held_step_of_ne (h : p.key a ≠ k) : (p.step t a).held k = t.held k := by
  cases hslot : p.slot t (p.key a) with
  | none => rw [step_of_none hslot]
  | some r =>
    rw [step_of_slot hslot, Table.held, Table.held]
    simp only [Finset.mem_insert, h.symm, false_or, Function.update_of_ne h.symm]

theorem held_step_self : (p.step t a).held (p.key a)
    = (p.slot t (p.key a)).map fun r ↦ p.advance r a := by
  cases hslot : p.slot t (p.key a) with
  | none =>
    have hmem : p.key a ∉ t.keys := by
      intro hmem
      rw [slot_of_mem hmem] at hslot
      cases hslot
    rw [step_of_none hslot, Table.held, if_neg hmem]
    rfl
  | some r =>
    rw [step_of_slot hslot, Table.held, if_pos (Finset.mem_insert_self _ _), Option.map_some]
    exact congrArg some (Function.update_self _ _ _)

theorem start_of_mem (h : k ∈ t.keys) : p.start t l k = some (t.record k) := by
  have hroom : p.HasRoom t l k := Or.inl h
  rw [start, if_pos hroom, if_pos h]

theorem start_of_notMem (h : k ∉ t.keys) : p.start t l k
    = if (t.keys ∪ keySet p.key (l.takeWhile fun a ↦ p.key a ≠ k)).card < p.room then
        some (p.fresh k) else none := by
  simp only [start, HasRoom, h, false_or, if_false]

private theorem start_cons_self : p.start t (a :: l) (p.key a) = p.slot t (p.key a) := by
  by_cases hmem : p.key a ∈ t.keys
  · rw [start_of_mem hmem, slot_of_mem hmem]
  · rw [start_of_notMem hmem, slot, if_neg hmem]
    simp

theorem start_step_self : p.start (p.step t a) l (p.key a)
    = (p.slot t (p.key a)).map fun r ↦ p.advance r a := by
  cases hslot : p.slot t (p.key a) with
  | none =>
    have hmem : p.key a ∉ t.keys := by
      intro hmem
      rw [slot_of_mem hmem] at hslot
      cases hslot
    have hfull : ¬t.keys.card < p.room := by
      intro hroom
      rw [slot_of_room hmem hroom] at hslot
      cases hslot
    rw [step_of_none hslot, start_of_notMem hmem, if_neg, Option.map_none]
    exact fun hlt ↦ hfull ((Finset.card_le_card Finset.subset_union_left).trans_lt hlt)
  | some r =>
    rw [step_of_slot hslot, start_of_mem (Finset.mem_insert_self _ _), Option.map_some]
    exact congrArg some (Function.update_self _ _ _)

/-- Another key's entry may take room away, but that was accounted for. -/
theorem start_step_of_ne (h : p.key a ≠ k) :
    p.start (p.step t a) l k = p.start t (a :: l) k := by
  have hwhile : (a :: l).takeWhile (fun a ↦ p.key a ≠ k)
      = a :: l.takeWhile fun a ↦ p.key a ≠ k := by
    rw [List.takeWhile_cons_of_pos (by simpa using h)]
  have hset : keySet p.key (a :: l.takeWhile fun a ↦ p.key a ≠ k)
      = insert (p.key a) (keySet p.key (l.takeWhile fun a ↦ p.key a ≠ k)) := by
    rw [keySet, List.map_cons, List.toFinset_cons, ← keySet]
  cases hslot : p.slot t (p.key a) with
  | none =>
    rw [step_of_none hslot]
    by_cases hmem : k ∈ t.keys
    · rw [start_of_mem hmem, start_of_mem hmem]
    · -- the table is full, and stays so
      have hfull : ¬t.keys.card < p.room := by
        intro hroom
        rw [slot, if_pos hroom] at hslot
        split_ifs at hslot
      have hover (s : Finset κ) : ¬(t.keys ∪ s).card < p.room := fun hlt ↦
        hfull ((Finset.card_le_card Finset.subset_union_left).trans_lt hlt)
      rw [start_of_notMem hmem, start_of_notMem hmem, if_neg (hover _), if_neg (hover _)]
  | some r =>
    rw [step_of_slot hslot]
    by_cases hmem : k ∈ t.keys
    · rw [start_of_mem (Finset.mem_insert_of_mem hmem), start_of_mem hmem]
      exact congrArg some (Function.update_of_ne h.symm _ _)
    · have hmem' : k ∉ insert (p.key a) t.keys := by
        simp [h.symm, hmem]
      rw [start_of_notMem hmem', start_of_notMem hmem, hwhile, hset, Finset.insert_union,
        Finset.union_insert]

theorem isSome_start : (p.start t l k).isSome = true ↔ p.HasRoom t l k := by
  rw [start]
  by_cases h : p.HasRoom t l k
  · rw [if_pos h]
    exact iff_of_true rfl h
  · rw [if_neg h]
    exact iff_of_false Bool.false_ne_true h

theorem hasRoom_cons_self :
    p.HasRoom t (a :: l) (p.key a) ↔ (p.slot t (p.key a)).isSome = true := by
  rw [← isSome_start, start_cons_self]

theorem hasRoom_step_of_ne (h : p.key a ≠ k) :
    p.HasRoom (p.step t a) l k ↔ p.HasRoom t (a :: l) k := by
  rw [← isSome_start, ← isSome_start, start_step_of_ne h]

theorem mem_keys_step_self :
    p.key a ∈ (p.step t a).keys ↔ (p.slot t (p.key a)).isSome = true := by
  have hheld : p.key a ∈ (p.step t a).keys
      ↔ ((p.step t a).held (p.key a)).isSome = true := by
    rw [Table.held]
    by_cases hmem : p.key a ∈ (p.step t a).keys
    · rw [if_pos hmem]
      exact iff_of_true hmem rfl
    · rw [if_neg hmem]
      exact iff_of_false hmem Bool.false_ne_true
  rw [hheld, held_step_self, Option.isSome_map]

theorem mem_keys_step_of_ne (h : p.key a ≠ k) : k ∈ (p.step t a).keys ↔ k ∈ t.keys := by
  cases hslot : p.slot t (p.key a) with
  | none => rw [step_of_none hslot]
  | some r =>
    rw [step_of_slot hslot, Finset.mem_insert]
    exact or_iff_right h.symm

end Step

/-! ## A history

Both results are inductions on the history with the table arbitrary. In the step the entry is of the
key in question or it is not. -/

section Run

variable {p t} {k : κ} {l l' : List α}

/-- **What the entries of a key find** depends on its own stream and on where it starts. -/
theorem looks_eq : p.looks k t l = p.found (p.start t l k) (stream p.key l k) := by
  induction l generalizing t with
  | nil => rfl
  | cons a l ih =>
    rw [looks, ih]
    by_cases h : p.key a = k
    · obtain rfl := h
      rw [if_pos rfl, stream_cons_self, found, start_cons_self, start_step_self]
      rfl
    · rw [if_neg h, stream_cons_of_ne _ h, start_step_of_ne h, List.nil_append]

/-- **The record a history leaves.** -/
theorem held_run : (p.run t l).held k
    = if stream p.key l k = [] then t.held k
      else (p.start t l k).map fun r ↦ (stream p.key l k).foldl p.advance r := by
  induction l generalizing t with
  | nil => rfl
  | cons a l ih =>
    rw [run_cons, ih]
    by_cases h : p.key a = k
    · obtain rfl := h
      rw [stream_cons_self, if_neg (List.cons_ne_nil _ _), start_step_self, start_cons_self]
      split_ifs with hnil
      · rw [hnil, held_step_self]
        rfl
      · rw [Option.map_map]
        rfl
    · rw [stream_cons_of_ne _ h, held_step_of_ne h, start_step_of_ne h]

omit [DecidableEq κ] in
theorem mem_found (r : ρ) (before : List α) (a : α) (after : List α) :
    (a, some (before.foldl p.advance r)) ∈ p.found (some r) (before ++ a :: after) := by
  induction before generalizing r with
  | nil => exact List.mem_cons_self
  | cons b before ih => exact List.mem_cons_of_mem _ (ih (p.advance r b))

omit [DecidableEq κ] in
theorem found_getElem? (r : ρ) (l : List α) (k : ℕ) : (p.found (some r) l)[k]?
    = l[k]?.map fun a ↦ (a, some ((l.take k).foldl p.advance r)) := by
  induction l generalizing r k with
  | nil => rfl
  | cons b l ih =>
    cases k with
    | zero => rfl
    | succ k => exact ih (p.advance r b) k

omit [DecidableEq κ] in
theorem found_none_eq (l : List α) : p.found none l = l.map fun a ↦ (a, none) := by
  induction l with
  | nil => rfl
  | cons a l ih => rw [found, List.map_cons, Option.map_none, ih]

omit [DecidableEq κ] in
/-- What an entry does not change about a record, all entries of a key find, or none does. -/
theorem forall_found_iff {P : ρ → Prop} (hP : ∀ r a, P (p.advance r a) ↔ P r) (hne : l ≠ [])
    (r : Option ρ) :
    (∀ look ∈ p.found r l, ∃ x, look.2 = some x ∧ P x) ↔ ∃ x, r = some x ∧ P x := by
  constructor
  · intro h
    cases l with
    | nil => exact absurd rfl hne
    | cons a l => exact h (a, r) List.mem_cons_self
  · rintro ⟨x, rfl, hx⟩
    clear hne
    induction l generalizing x with
    | nil => exact fun look hlook ↦ absurd hlook List.not_mem_nil
    | cons a l ih =>
      intro look hlook
      rcases List.mem_cons.mp hlook with rfl | hlook
      · exact ⟨x, rfl, hx⟩
      · exact ih (p.advance x a) ((hP x a).mpr hx) look hlook

end Run

end Policy

/-! ## Insertions

A history with entries of other keys added. The stream of the key is the same, so all that can
change is whether there was room when it first appeared. -/

/-- A history with more entries of some kind. -/
inductive Inserted (P : α → Prop) : List α → List α → Prop
  | nil : Inserted P [] []
  | keep (a : α) {l l' : List α} (h : Inserted P l l') : Inserted P (a :: l) (a :: l')
  | add {a : α} (ha : P a) {l l' : List α} (h : Inserted P l l') : Inserted P l (a :: l')

theorem Inserted.refl {P : α → Prop} (l : List α) : Inserted P l l := by
  induction l with
  | nil => exact .nil
  | cons a l ih => exact .keep a ih

theorem Inserted.append {P : α → Prop} {before : List α} (h : ∀ a ∈ before, P a) (l : List α) :
    Inserted P l (before ++ l) := by
  induction before with
  | nil => exact .refl l
  | cons a before ih =>
    exact .add (h a List.mem_cons_self) (ih fun b hb ↦ h b (List.mem_cons_of_mem _ hb))

namespace Policy

variable {p : Policy α κ ρ} {t : Table κ ρ} {k : κ} {l l' : List α}

theorem stream_of_inserted (h : Inserted (fun a ↦ p.key a ≠ k) l l') :
    stream p.key l' k = stream p.key l k := by
  induction h with
  | nil => rfl
  | keep a _ ih =>
    rw [stream, stream, List.filter_cons, List.filter_cons]
    split_ifs
    · exact congrArg (a :: ·) ih
    · exact ih
  | add ha _ ih =>
    rw [stream, List.filter_cons, if_neg (by simpa using ha)]
    exact ih

theorem HasRoom.of_inserted (h : Inserted (fun a ↦ p.key a ≠ k) l l')
    (hroom : p.HasRoom t l' k) : p.HasRoom t l k := by
  have hsub : keySet p.key (l.takeWhile fun a ↦ p.key a ≠ k)
      ⊆ keySet p.key (l'.takeWhile fun a ↦ p.key a ≠ k) := by
    clear hroom
    induction h with
    | nil => exact Finset.Subset.refl _
    | keep a _ ih =>
      rw [List.takeWhile_cons, List.takeWhile_cons]
      split_ifs
      · rw [keySet, keySet, List.map_cons, List.map_cons, List.toFinset_cons, List.toFinset_cons]
        exact Finset.insert_subset_insert _ ih
      · exact Finset.Subset.refl _
    | add ha _ ih =>
      rw [List.takeWhile_cons_of_pos (by simpa using ha)]
      apply ih.trans
      rw [keySet, keySet, List.map_cons, List.toFinset_cons]
      exact Finset.subset_insert _ _
  rcases hroom with hmem | hlt
  · exact Or.inl hmem
  · exact Or.inr ((Finset.card_le_card (Finset.union_subset_union_right hsub)).trans_lt hlt)

/-- **When insertions do not show**: when they leave the key its room, or it had none anyway. -/
theorem start_inserted_iff (h : Inserted (fun a ↦ p.key a ≠ k) l l') :
    p.start t l k = p.start t l' k ↔ p.HasRoom t l' k ∨ ¬p.HasRoom t l k := by
  rw [start, start]
  by_cases hroom' : p.HasRoom t l' k
  · rw [if_pos hroom', if_pos (hroom'.of_inserted h)]
    exact iff_of_true rfl (Or.inl hroom')
  · by_cases hroom : p.HasRoom t l k
    · rw [if_pos hroom, if_neg hroom']
      exact iff_of_false (by simp) (by simp [hroom, hroom'])
    · rw [if_neg hroom, if_neg hroom']
      exact iff_of_true rfl (Or.inr hroom)

end Policy

end KeyedTable
