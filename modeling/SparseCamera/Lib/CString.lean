import Mathlib.Data.List.DropRight
import Mathlib.Data.List.Basic

/-!
# Text in byte arrays

The functions of the C library that a hand-written parser leans on, in the "C" locale. A string is
the list of its bytes without the terminator; what a function writes into the array in place is
here the string it leaves behind.

Trimming is first stated for lists over any type: `strip p` drops what satisfies `p` at both ends.
-/

/-! ## Trimming

What is dropped are a prefix and a suffix, and `exists_eq_strip` gives them back. A list that has
neither is `Stripped`, and such lists are exactly the results of trimming. -/

namespace List

variable {α : Type*} (p : α → Bool)

/-- Drop what satisfies `p` at both ends. -/
def strip (s : List α) : List α := (s.dropWhile p).rdropWhile p

/-- Nothing that satisfies `p` stands at either end. -/
structure Stripped (s : List α) : Prop where
  head : ∀ h : s ≠ [], p (s.head h) = false
  last : ∀ h : s ≠ [], p (s.getLast h) = false

variable {p} {s t : List α} {a : α}

theorem stripped_iff : Stripped p s ↔
    (∀ h : s ≠ [], p (s.head h) = false) ∧ ∀ h : s ≠ [], p (s.getLast h) = false :=
  ⟨fun h ↦ ⟨h.head, h.last⟩, fun h ↦ ⟨h.1, h.2⟩⟩

instance : Decidable (Stripped p s) := decidable_of_iff _ stripped_iff.symm

theorem Stripped.strip_eq (h : Stripped p s) : s.strip p = s := by
  have hhead : s.dropWhile p = s := by
    rw [dropWhile_eq_self_iff]
    intro hpos
    rw [← head_eq_getElem (ne_nil_of_length_pos hpos), h.head]
    exact Bool.false_ne_true
  rw [strip, hhead, rdropWhile_eq_self_iff]
  intro hne
  rw [h.last hne]
  exact Bool.false_ne_true

theorem Stripped.surround (hs : Stripped p s) (ht : Stripped p t) (hs' : s ≠ []) (ht' : t ≠ [])
    (m : List α) : Stripped p (s ++ m ++ t) where
  head := by
    intro h
    rw [head_append_of_ne_nil (by simp [hs']), head_append_of_ne_nil hs', hs.head]
  last := by
    intro h
    rw [getLast_append_of_ne_nil _ ht', ht.last]

private theorem isInfix_strip (s : List α) : s.strip p <:+: s :=
  IsPrefix.isInfix ( rdropWhile_prefix p _) |>.trans (dropWhile_suffix p).isInfix

theorem mem_of_mem_strip (h : a ∈ s.strip p) : a ∈ s := (isInfix_strip s).subset h

theorem stripped_strip (s : List α) : Stripped p (s.strip p) where
  head := by
    intro hne
    -- what is left after the end has been cut begins as it did before
    have hpre : s.strip p <+: s.dropWhile p := rdropWhile_prefix p _
    have hne' : s.dropWhile p ≠ [] := fun h ↦ hne (prefix_nil.mp (h ▸ hpre))
    rw [hpre.head hne]
    exact head_dropWhile_not p hne'
  last := fun hne ↦ Bool.eq_false_iff.mpr (rdropWhile_last_not p _ hne)

theorem strip_cons (h : p a = true) : (a :: s).strip p = s.strip p := by
  rw [strip, dropWhile_cons_of_pos h, strip]

theorem strip_concat (h : p a = true) : (s ++ [a]).strip p = s.strip p := by
  rw [strip, dropWhile_append]
  split
  · next hnil =>
    rw [isEmpty_iff] at hnil
    rw [dropWhile_cons_of_pos h, dropWhile_nil, strip, hnil]
  · rw [rdropWhile_concat_pos _ _ _ h, strip]

theorem exists_eq_strip (p : α → Bool) (s : List α) :
    ∃ l r, (∀ a ∈ l, p a = true) ∧ (∀ a ∈ r, p a = true) ∧ s = l ++ s.strip p ++ r := by
  refine ⟨s.takeWhile p, (s.dropWhile p).rtakeWhile p, ?_, ?_, ?_⟩
  · intro a ha
    exact mem_takeWhile_imp ha
  · intro a ha
    exact mem_rtakeWhile_imp ha
  · rw [append_assoc, strip, rdropWhile_append_rtakeWhile, takeWhile_append_dropWhile]

theorem strip_append_append {l r : List α} (hl : ∀ a ∈ l, p a = true) (hr : ∀ a ∈ r, p a = true) :
    (l ++ s ++ r).strip p = s.strip p := by
  have hleft : (l ++ s).strip p = s.strip p := by
    induction l with
    | nil => rfl
    | cons a l ih =>
      rw [forall_mem_cons] at hl
      rw [cons_append, strip_cons hl.1, ih hl.2]
  induction r using reverseRecOn with
  | nil => rw [append_nil, hleft]
  | append_singleton r a ih =>
    rw [forall_mem_append] at hr
    rw [← append_assoc, strip_concat (hr.2 a (mem_singleton_self a)), ih hr.1]

theorem strip_eq_nil_iff : s.strip p = [] ↔ ∀ a ∈ s, p a = true := by
  constructor
  · intro hnil
    obtain ⟨l, r, hl, hr, hs⟩ := exists_eq_strip p s
    rw [hs, hnil, append_nil, forall_mem_append]
    exact ⟨hl, hr⟩
  · intro hs
    have hstrip := strip_append_append (s := []) hs (fun _ h ↦ (not_mem_nil h).elim)
    rw [append_nil, append_nil] at hstrip
    exact hstrip

theorem head?_strip (h : p a = false) : ((a :: s).strip p).head? = some a := by
  have hdrop : (a :: s).dropWhile p = a :: s := dropWhile_cons_of_neg (by simp [h])
  rw [strip, hdrop]
  have hpre : (a :: s).rdropWhile p <+: a :: s := rdropWhile_prefix p _
  cases hr : (a :: s).rdropWhile p with
  | nil => exact absurd (rdropWhile_eq_nil_iff.mp hr a mem_cons_self) (by simp [h])
  | cons b t =>
    rw [hr, cons_prefix_cons] at hpre
    rw [head?_cons, hpre.1]

end List

namespace CString

/-! ## Strings -/

/-- What the array holds up to the terminator. -/
def cstring (bytes : List UInt8) : List UInt8 := bytes.takeWhile (· ≠ 0)

def chr (c : Char) : UInt8 := c.val.toUInt8

def ascii (text : String) : List UInt8 := text.toList.map chr

def newline : UInt8 := 10

/-- `isspace`: blank, tab, newline, vertical tab, form feed, carriage return. -/
def isspace (b : UInt8) : Bool := b = 32 || (9 ≤ b && b ≤ 13)

/-- `strchr`: what stands before the first `c` and what stands after it. -/
def strchr (c : UInt8) : List UInt8 → Option (List UInt8 × List UInt8)
  | [] => none
  | b :: s =>
    if b = c then some ([], s)
    else (strchr c s).map fun (before, after) ↦ (b :: before, after)

/-- `snprintf` of `"%s"` into an array of `size` bytes. -/
def snprintf (size : ℕ) (s : List UInt8) : List UInt8 := s.take (size - 1)

theorem snprintf_of_lt {size : ℕ} {s : List UInt8} (h : s.length < size) : snprintf size s = s :=
  List.take_of_length_le (by omega)

theorem strchr_eq_some {c : UInt8} {s before after : List UInt8} :
    strchr c s = some (before, after) ↔ c ∉ before ∧ s = before ++ c :: after := by
  induction s generalizing before with
  | nil => simp [strchr]
  | cons b s ih =>
    rw [strchr]
    by_cases hb : b = c
    · rw [if_pos hb, hb]
      cases before with
      | nil => simp
      | cons b' before =>
        apply iff_of_false (by simp)
        rintro ⟨hnot, heq⟩
        exact hnot (List.mem_cons.mpr (Or.inl (List.cons.inj heq).1))
    · rw [if_neg hb]
      cases before with
      | nil => simp [hb]
      | cons b' before =>
        constructor
        · intro h
          obtain ⟨⟨before', after'⟩, hs, heq⟩ := Option.map_eq_some_iff.mp h
          obtain ⟨hcons, rfl⟩ := Prod.mk.inj heq
          obtain ⟨rfl, rfl⟩ := List.cons.inj hcons
          obtain ⟨hnot, rfl⟩ := ih.mp hs
          exact ⟨by simp [Ne.symm hb, hnot], rfl⟩
        · rintro ⟨hnot, heq⟩
          obtain ⟨rfl, hs⟩ := List.cons.inj heq
          rw [List.mem_cons, not_or] at hnot
          rw [ih.mpr ⟨hnot.2, hs⟩, Option.map_some]

end CString
