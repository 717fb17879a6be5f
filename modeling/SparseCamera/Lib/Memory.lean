import Mathlib.Data.List.Basic
import Mathlib.Logic.Function.Basic
import Mathlib.Order.Basic
import Mathlib.Order.Lattice

/-!
# Buffers and the allocator

The contents of a C buffer are a list. `overwrite` is a `memcpy` seen from its destination,
`resize` is what a `realloc` does to the contents.

A `Store` maps handles to the live buffers. Handles are handed out once: a `realloc` that succeeds
kills the old handle and returns a new one, even where a real allocator would grow the block in
place, because the program may not tell the two apart. Touching a dead handle is undefined
behaviour and the operations return `none` for it.
-/

namespace Memory

/-! ## Contents of a buffer

Two copies, one behind the other, are one longer copy. This is what a serializer does that writes
its parts one after the other. -/

section Contents

variable {α : Type*}

/-- `dst` after `src` was copied over it from position `off` on. -/
def overwrite (dst : List α) (off : ℕ) (src : List α) : List α :=
  dst.take off ++ src ++ dst.drop (off + src.length)

theorem overwrite_zero (dst src : List α) :
    overwrite dst 0 src = src ++ dst.drop src.length := by
  rw [overwrite, List.take_zero, List.nil_append, Nat.zero_add]

theorem length_overwrite {dst src : List α} {off : ℕ} (h : off + src.length ≤ dst.length) :
    (overwrite dst off src).length = dst.length := by
  rw [overwrite, List.length_append, List.length_append, List.length_take, List.length_drop]
  omega

theorem overwrite_overwrite {dst a b : List α} {off : ℕ} (h : off + a.length ≤ dst.length) :
    overwrite (overwrite dst off a) (off + a.length) b = overwrite dst off (a ++ b) := by
  have hoff : (dst.take off).length = off := by rw [List.length_take]; omega
  have hpre : (dst.take off ++ a).length = off + a.length := by rw [List.length_append, hoff]
  have hdrop : (dst.take off ++ a ++ dst.drop (off + a.length)).drop (off + a.length + b.length)
      = dst.drop (off + (a ++ b).length) := by
    rw [List.drop_append, hpre, List.drop_eq_nil_of_le (by omega), List.nil_append,
      List.drop_drop, List.length_append]
    congr 1
    omega
  rw [overwrite, overwrite, List.take_left' hpre, hdrop, overwrite]
  simp only [List.append_assoc]

theorem take_overwrite_zero (dst src : List α) :
    (overwrite dst 0 src).take src.length = src := by
  rw [overwrite_zero, List.take_left]

theorem drop_overwrite_zero (dst src : List α) :
    (overwrite dst 0 src).drop src.length = dst.drop src.length := by
  rw [overwrite_zero, List.drop_left]

/-- The contents of a buffer after it was reallocated to `n` entries. What lies past the old end
is indeterminate in C and `fill` here. -/
def resize (fill : α) (n : ℕ) (l : List α) : List α :=
  l.take n ++ List.replicate (n - l.length) fill

@[simp] theorem length_resize (fill : α) (n : ℕ) (l : List α) : (resize fill n l).length = n := by
  rw [resize, List.length_append, List.length_take, List.length_replicate]
  omega

theorem take_resize {fill : α} {k n : ℕ} {l : List α} (hk : k ≤ n) (hl : k ≤ l.length) :
    (resize fill n l).take k = l.take k := by
  rw [resize, List.take_append_of_le_length (by rw [List.length_take]; omega), List.take_take,
    min_eq_left hk]

end Contents

/-! ## The store

The handles that were never handed out name nothing, which is a field of the structure. So a new
handle differs from every live one. -/

structure Store (β : Type*) where
  /-- The contents of each live buffer; `none` for a handle that is dead or not handed out. -/
  block : ℕ → Option β
  /-- The first handle not handed out yet. -/
  next : ℕ
  /-- Only handed-out handles are live. -/
  fresh : ∀ h, next ≤ h → block h = none

namespace Store

variable {β : Type*} (s : Store β) {h k : ℕ} {b : β}

def empty : Store β := ⟨fun _ ↦ none, 0, fun _ _ ↦ rfl⟩

theorem lt_next (hb : s.block h = some b) : h < s.next := by
  by_contra hcon
  rw [s.fresh h (not_lt.mp hcon)] at hb
  exact absurd hb (by simp)

/-- A new buffer with contents `b`. -/
def alloc (b : β) : Store β where
  block := Function.update s.block s.next (some b)
  next := s.next + 1
  fresh h hh := by
    rw [Function.update_of_ne (by omega)]
    exact s.fresh h (by omega)

@[simp] theorem alloc_block_next (b : β) : (s.alloc b).block s.next = some b :=
  Function.update_self _ _ _

theorem alloc_block_of_ne (b : β) (hk : k ≠ s.next) : (s.alloc b).block k = s.block k :=
  Function.update_of_ne hk _ _

theorem alloc_block_of_live (b : β) {c : β} (hk : s.block k = some c) :
    (s.alloc b).block k = some c := by
  rw [alloc_block_of_ne s b (s.lt_next hk).ne, hk]

/-- The buffer of `h` is given back. -/
def free (h : ℕ) : Store β where
  block := Function.update s.block h none
  next := s.next
  fresh k hk := by
    rcases eq_or_ne k h with rfl | hne
    · exact Function.update_self _ _ _
    · rw [Function.update_of_ne hne, s.fresh k hk]

@[simp] theorem free_block_self (h : ℕ) : (s.free h).block h = none := Function.update_self _ _ _

theorem free_block_of_ne (hk : k ≠ h) : (s.free h).block k = s.block k :=
  Function.update_of_ne hk _ _

@[simp] theorem free_next (h : ℕ) : (s.free h).next = s.next := rfl

/-- Store through a handle. -/
def write (h : ℕ) (b : β) : Option (Store β) :=
  match hb : s.block h with
  | none => none
  | some _ => some
    { block := Function.update s.block h (some b)
      next := s.next
      fresh k hk := by
        rw [Function.update_of_ne ((s.lt_next hb).trans_le hk).ne']
        exact s.fresh k hk }

/-- `realloc`: on success the old handle is dead and a new one names the resized contents, on
failure nothing changes and the result is the null pointer. -/
def realloc (h : ℕ) (granted : Bool) (resize : β → β) : Option (Option ℕ × Store β) :=
  match s.block h with
  | none => none
  | some b =>
    if granted then some (some s.next, (s.free h).alloc (resize b)) else some (none, s)

theorem realloc_denied (f : β → β) (hb : s.block h = some b) :
    s.realloc h false f = some (none, s) := by
  rw [realloc, hb]
  rfl

theorem realloc_granted (f : β → β) (hb : s.block h = some b) :
    s.realloc h true f = some (some s.next, (s.free h).alloc (f b)) := by
  rw [realloc, hb]
  rfl

theorem realloc_block_old (f : β → β) (hb : s.block h = some b) :
    ((s.free h).alloc (f b)).block h = none := by
  have hne : h ≠ (s.free h).next := (s.lt_next hb).ne
  rw [alloc_block_of_ne _ _ hne, free_block_self]

theorem realloc_block_new (f : β → β) : ((s.free h).alloc (f b)).block s.next = some (f b) :=
  alloc_block_next _ _

/-- Other live buffers are not touched. -/
theorem realloc_block_other (f : β → β) {c : β} (hk : s.block k = some c) (hne : k ≠ h) :
    ((s.free h).alloc (f b)).block k = some c := by
  have hnext : k ≠ (s.free h).next := (s.lt_next hk).ne
  rw [alloc_block_of_ne _ _ hnext, free_block_of_ne s hne, hk]

theorem exists_write (hb : s.block h = some b) (c : β) :
    ∃ s', s.write h c = some s' ∧ s'.block h = some c ∧
      (∀ k, k ≠ h → s'.block k = s.block k) ∧ s'.next = s.next := by
  rw [write]
  split
  · rename_i hnone
    rw [hnone] at hb
    exact absurd hb (by simp)
  · exact ⟨_, rfl, Function.update_self _ _ _, fun k hk ↦ Function.update_of_ne hk _ _, rfl⟩

end Store

end Memory
