import Mathlib.Algebra.Order.BigOperators.Group.List
import Mathlib.Algebra.Order.Field.Basic
import Mathlib.Data.List.Induction
import Mathlib.Order.Bounds.Basic

/-!
# Running statistics

A stream of numbers is summed up as it goes by: how many there were, their sum, the smallest and the
largest of them. The two extremes start from values that are beyond everything the stream can hold,
so that the first number replaces both. As long as the numbers do lie between these values, the
extremes are those of the stream (`isLeast_min`, `isGreatest_max`), and the mean lies between them
(`le_mean`, `mean_le`).

The numbers may be the steps from each entry of another stream to the next (`steps`).
-/

namespace Running

/-! ## Steps -/

section Steps

variable {α β : Type*}

/-- From each entry to the next. -/
def steps (step : α → α → β) (l : List α) : List β := List.zipWith step l l.tail

theorem steps_concat (step : α → α → β) (l : List α) (a b : α) :
    steps step (l ++ [a, b]) = steps step (l ++ [a]) ++ [step a b] := by
  induction l with
  | nil => rfl
  | cons c l ih =>
    cases l with
    | nil => rfl
    | cons d l => exact congrArg (step c d :: ·) ih

theorem forall_mem_steps {step : α → α → β} {P : β → Prop} {l : List α} :
    (∀ x ∈ steps step l, P x) ↔ l.IsChain fun a b ↦ P (step a b) := by
  induction l with
  | nil => exact iff_of_true (fun _ h ↦ absurd h List.not_mem_nil) .nil
  | cons a l ih =>
    cases l with
    | nil => exact iff_of_true (fun _ h ↦ absurd h List.not_mem_nil) (.singleton a)
    | cons b l =>
      rw [List.isChain_cons_cons, ← ih]
      exact List.forall_mem_cons

theorem length_steps (step : α → α → β) (l : List α) : (steps step l).length = l.length - 1 := by
  rw [steps, List.length_zipWith, List.length_tail]
  exact Nat.min_eq_right (Nat.sub_le _ _)

end Steps

/-! ## The smallest entry

The loop starts from a value above all entries. It never returns that value unless the stream is
empty, and otherwise what it returns is an entry. -/

/-- The smallest entry of a stream so far, or what the search started from. -/
theorem isLeast_foldl {β : Type*} [LinearOrder β] {hi : β} {l : List β} (h : ∀ x ∈ l, x < hi)
    (hne : l ≠ []) : IsLeast {x | x ∈ l} (l.foldl (fun m x ↦ if x < m then x else m) hi) := by
  induction l using List.reverseRecOn with
  | nil => exact absurd rfl hne
  | append_singleton l x ih =>
    have hx : x ∈ l ++ [x] := List.mem_append_right _ List.mem_cons_self
    rw [List.foldl_append, List.foldl_cons, List.foldl_nil]
    obtain rfl | hl := eq_or_ne l []
    · rw [List.foldl_nil, if_pos (h x hx)]
      exact ⟨hx, fun y hy ↦ (List.mem_singleton.mp hy).ge⟩
    · obtain ⟨hmem, hleast⟩ := ih (fun y hy ↦ h y (List.mem_append_left _ hy)) hl
      split_ifs with hlt
      · refine ⟨hx, fun y hy ↦ ?_⟩
        obtain hy | hy := List.mem_append.mp hy
        · exact hlt.le.trans (hleast hy)
        · exact (List.mem_singleton.mp hy).ge
      · refine ⟨List.mem_append_left _ hmem, fun y hy ↦ ?_⟩
        obtain hy | hy := List.mem_append.mp hy
        · exact hleast hy
        · exact (List.mem_singleton.mp hy) ▸ not_lt.mp hlt

/-! ## Statistics

The four numbers do not depend on each other, so the whole is the four loops side by side
(`ofList_eq`). -/

/-- Count, sum and extremes. -/
structure Stats (α : Type*) where
  count : ℕ
  sum : α
  min : α
  max : α

section Stats

variable {α : Type*} [Field α] [LinearOrder α]

def Stats.empty (lo hi : α) : Stats α := ⟨0, 0, hi, lo⟩

def Stats.push (s : Stats α) (x : α) : Stats α where
  count := s.count + 1
  sum := s.sum + x
  min := if x < s.min then x else s.min
  max := if s.max < x then x else s.max

def Stats.ofList (lo hi : α) (l : List α) : Stats α := l.foldl Stats.push (.empty lo hi)

variable {lo hi : α} {l : List α}

theorem ofList_concat (lo hi : α) (l : List α) (x : α) :
    Stats.ofList lo hi (l ++ [x]) = (Stats.ofList lo hi l).push x := by
  rw [Stats.ofList, List.foldl_append]
  rfl

theorem ofList_eq (lo hi : α) (l : List α) : Stats.ofList lo hi l =
    { count := l.length
      sum := l.sum
      min := l.foldl (fun m x ↦ if x < m then x else m) hi
      max := l.foldl (fun m x ↦ if m < x then x else m) lo } := by
  induction l using List.reverseRecOn with
  | nil => rfl
  | append_singleton l x ih =>
    rw [ofList_concat, ih, List.length_append, List.sum_append, List.sum_singleton,
      List.foldl_append, List.foldl_append]
    rfl

theorem isLeast_min (h : ∀ x ∈ l, x < hi) (hne : l ≠ []) :
    IsLeast {x | x ∈ l} (Stats.ofList lo hi l).min := by
  rw [ofList_eq]
  exact isLeast_foldl h hne

theorem isGreatest_max (h : ∀ x ∈ l, lo < x) (hne : l ≠ []) :
    IsGreatest {x | x ∈ l} (Stats.ofList lo hi l).max := by
  rw [ofList_eq]
  exact @isLeast_foldl αᵒᵈ _ lo l h hne

variable [IsStrictOrderedRing α] {m : α}

private theorem length_cast_pos (hne : l ≠ []) : 0 < (l.length : α) :=
  Nat.cast_pos.mpr (List.length_pos_iff.mpr hne)

theorem le_mean (hne : l ≠ []) (h : m ∈ lowerBounds {x | x ∈ l}) : m ≤ l.sum / l.length := by
  rw [le_div_iff₀ (length_cast_pos hne), mul_comm, ← nsmul_eq_mul]
  exact List.card_nsmul_le_sum l m fun x hx ↦ h hx

theorem mean_le (hne : l ≠ []) (h : m ∈ upperBounds {x | x ∈ l}) : l.sum / l.length ≤ m := by
  rw [div_le_iff₀ (length_cast_pos hne), mul_comm, ← nsmul_eq_mul]
  exact List.sum_le_card_nsmul l m fun x hx ↦ h hx

end Stats

end Running
