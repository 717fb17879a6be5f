import Mathlib.Data.List.Forall2

/-!
# Lists related entry by entry

Where one list is made of another, an entry for each entry, the two are related by
`List.Forall₂`. These are the rules that take such a pair of lists apart: at its end, at an entry,
and under two maps that agree on related entries.
-/

namespace SparseCamera

variable {α β γ : Type*} {R : α → β → Prop}

theorem forall₂_concat {l : List α} {l' : List β} {a : α} {b : β} :
    List.Forall₂ R (l ++ [a]) (l' ++ [b]) ↔ List.Forall₂ R l l' ∧ R a b := by
  rw [← List.forall₂_reverse_iff, List.reverse_append, List.reverse_append, List.reverse_singleton,
    List.reverse_singleton, List.singleton_append, List.singleton_append, List.forall₂_cons,
    List.forall₂_reverse_iff, and_comm]

theorem forall₂_concat_left {l : List α} {l' : List β} {a : α} :
    List.Forall₂ R (l ++ [a]) l' ↔
      ∃ front b, List.Forall₂ R l front ∧ R a b ∧ l' = front ++ [b] := by
  constructor
  · intro h
    rcases List.eq_nil_or_concat' l' with rfl | ⟨front, b, rfl⟩
    · have hlen := h.length_eq
      simp at hlen
    · obtain ⟨hfront, hb⟩ := forall₂_concat.mp h
      exact ⟨front, b, hfront, hb, rfl⟩
  · rintro ⟨front, b, hfront, hb, rfl⟩
    exact forall₂_concat.mpr ⟨hfront, hb⟩

theorem exists_of_mem_right {l : List α} {l' : List β} (h : List.Forall₂ R l l') {b : β}
    (hb : b ∈ l') : ∃ a ∈ l, R a b := by
  induction h with
  | nil => exact absurd hb List.not_mem_nil
  | cons hab _ ih =>
    rcases List.mem_cons.mp hb with rfl | hb
    · exact ⟨_, List.mem_cons_self, hab⟩
    · obtain ⟨a, ha, hR⟩ := ih hb
      exact ⟨a, List.mem_cons_of_mem _ ha, hR⟩

theorem map_eq_map_of_forall₂ {f : α → γ} {g : β → γ} {l : List α} {l' : List β}
    (h : List.Forall₂ R l l') (hR : ∀ a b, R a b → f a = g b) : l.map f = l'.map g := by
  rw [← List.forall₂_eq_eq_eq, List.forall₂_map_left_iff, List.forall₂_map_right_iff]
  exact h.imp hR

theorem exists_between {Q : α → γ → Prop} {S : γ → β → Prop} {l : List α} {l' : List β}
    (h : List.Forall₂ R l l') (hR : ∀ a b, R a b → ∃ c, Q a c ∧ S c b) :
    ∃ m, List.Forall₂ Q l m ∧ List.Forall₂ S m l' := by
  induction h with
  | nil => exact ⟨[], List.Forall₂.nil, List.Forall₂.nil⟩
  | cons hab _ ih =>
    obtain ⟨c, hQ, hS⟩ := hR _ _ hab
    obtain ⟨m, hQs, hSs⟩ := ih
    exact ⟨c :: m, List.Forall₂.cons hQ hQs, List.Forall₂.cons hS hSs⟩

end SparseCamera
