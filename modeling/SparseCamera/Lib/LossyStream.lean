import SparseCamera.Lib.KeyedHistory

/-!
# Streams that lose entries

A producer numbers its entries one by one and each of them is sent or dropped. A list of Booleans
records this, `true` for sent. A consumer that got the first `d` entries that were sent, and sees
their numbers only, can tell the drops between the first and the last of them: each step in the
numbers is one run of drops, and what is missing from it is the length of the run.

## The construction

The list is read from the front. What the induction carries along is how many drops have come since
the last entry that was sent: neither the step in the numbers nor the run of drops is complete
before the next such entry.
-/

namespace LossyStream

open KeyedHistory

/-- The numbers of the entries that were sent, counting from `k`. -/
def positions (k : ℕ) : List Bool → List ℕ
  | [] => []
  | true :: l => k :: positions (k + 1) l
  | false :: l => positions (k + 1) l

/-- The stream up to the `d`-th entry that was sent. -/
def through : ℕ → List Bool → List Bool
  | 0, _ => []
  | _ + 1, [] => []
  | d + 1, true :: l => true :: through d l
  | d + 1, false :: l => false :: through (d + 1) l

/-- The stream from the first entry that was sent to the `d`-th. -/
def window (l : List Bool) (d : ℕ) : List Bool := through d (l.dropWhile not)

/-- The number of runs of drops in a list that starts with an entry that was sent: a run starts
where a drop follows such an entry. -/
def runs (l : List Bool) : ℕ := adjacentSum (fun a b ↦ if a = true ∧ b = false then 1 else 0) l

/-- How many entries were dropped strictly between the first and the `d`-th that were sent. -/
def dropsBetween (l : List Bool) (d : ℕ) : ℕ := (window l d).count false

/-- The number of maximal runs of such drops. -/
def dropRuns (l : List Bool) (d : ℕ) : ℕ := runs (window l d)

/-! ## The numbers that were sent -/

theorem positions_concat (k : ℕ) (l : List Bool) (b : Bool) :
    positions k (l ++ [b]) = positions k l ++ if b then [k + l.length] else [] := by
  induction l generalizing k with
  | nil => cases b <;> rfl
  | cons c l ih =>
    cases c with
    | true => simp [positions, ih, Nat.add_assoc, Nat.add_comm 1]
    | false => simp [positions, ih, Nat.add_assoc, Nat.add_comm 1]

@[simp] theorem length_positions (k : ℕ) (l : List Bool) :
    (positions k l).length = l.count true := by
  induction l generalizing k with
  | nil => rfl
  | cons c l ih => cases c <;> simp [positions, ih]

theorem mem_positions {k p : ℕ} {l : List Bool} (h : p ∈ positions k l) :
    k ≤ p ∧ p < k + l.length := by
  induction l generalizing k with
  | nil => simp [positions] at h
  | cons c l ih =>
    rw [List.length_cons]
    cases c with
    | true =>
      rcases List.mem_cons.mp h with rfl | htail
      · omega
      · have := ih htail
        omega
    | false =>
      have := ih h
      omega

theorem isChain_positions (k : ℕ) (l : List Bool) : (positions k l).IsChain (· < ·) := by
  induction l generalizing k with
  | nil => exact List.IsChain.nil
  | cons c l ih =>
    cases c with
    | true =>
      refine (ih (k + 1)).cons ?_
      intro p hp
      exact (mem_positions (List.mem_of_mem_head? hp)).1
    | false => exact ih (k + 1)

/-! ## Runs

A run of drops begins where a drop follows an entry that was sent. So the runs are counted by
adjacent pairs, like the steps in the numbers. -/

theorem runs_cons_cons (a b : Bool) (l : List Bool) :
    runs (a :: b :: l) = (if a = true ∧ b = false then 1 else 0) + runs (b :: l) := rfl

theorem runs_replicate (j : ℕ) (l : List Bool) :
    runs (false :: (List.replicate j false ++ true :: l)) = runs (true :: l) := by
  induction j with
  | zero =>
    rw [List.replicate_zero, List.nil_append, runs_cons_cons, if_neg (by simp), Nat.zero_add]
  | succ j ih =>
    rw [List.replicate_succ, List.cons_append, runs_cons_cons, if_neg (by simp), ih, Nat.zero_add]

theorem runs_true_replicate (j : ℕ) (l : List Bool) :
    runs (true :: (List.replicate j false ++ true :: l))
      = (if j = 0 then 0 else 1) + runs (true :: l) := by
  cases j with
  | zero => rw [List.replicate_zero, List.nil_append, runs_cons_cons, if_neg (by simp), if_pos rfl]
  | succ j =>
    rw [List.replicate_succ, List.cons_append, runs_cons_cons, if_pos ⟨rfl, rfl⟩, runs_replicate,
      if_neg (Nat.succ_ne_zero j)]

private theorem runs_eq_zero {l : List Bool} : runs (true :: l) = 0 ↔ l.count false = 0 := by
  induction l with
  | nil => simp [runs]
  | cons b l ih =>
    cases b with
    | true =>
      rw [runs_cons_cons, if_neg (by simp), Nat.zero_add, ih, List.count_cons_of_ne (by simp)]
    | false => rw [runs_cons_cons, if_pos ⟨rfl, rfl⟩, List.count_cons_self]; omega

/-! ## What the numbers tell -/

private theorem adjacentSum_positions_cons (l : List Bool) (k j d : ℕ) (hd : d ≠ 0)
    (hsent : d ≤ l.count true) :
    adjacentSum (fun s s' ↦ if s' = s + 1 then 0 else 1) (k :: (positions (k + 1 + j) l).take d)
        = runs (true :: (List.replicate j false ++ through d l)) ∧
    adjacentSum (fun s s' ↦ s' - s - 1) (k :: (positions (k + 1 + j) l).take d)
        = (true :: (List.replicate j false ++ through d l)).count false := by
  induction l generalizing k j d with
  | nil => simp at hsent; omega
  | cons c l ih =>
    obtain ⟨d, rfl⟩ := Nat.exists_eq_succ_of_ne_zero hd
    cases c with
    | false =>
      -- one more drop before the next entry
      have hreplicate : List.replicate j false ++ false :: through (d + 1) l
          = List.replicate (j + 1) false ++ through (d + 1) l := by
        rw [List.replicate_succ', List.append_assoc]
        rfl
      rw [List.count_cons_of_ne (by simp)] at hsent
      rw [through, hreplicate]
      exact ih k (j + 1) (d + 1) hd hsent
    | true =>
      rw [List.count_cons_self] at hsent
      rw [positions, List.take_succ_cons, adjacentSum_cons_cons, adjacentSum_cons_cons, through,
        runs_true_replicate]
      -- the step is over, and the next one starts here without a drop
      have hcount : (true :: (List.replicate j false ++ true :: through d l)).count false
          = j + (true :: through d l).count false := by simp
      have hlost : k + 1 + j - k - 1 = j := by omega
      have hstep : (k + 1 + j = k + 1) ↔ j = 0 := by omega
      rw [hcount, hlost]
      simp only [hstep]
      rcases Nat.eq_zero_or_pos d with rfl | hpos
      · simp [through, runs]
      · obtain ⟨hruns, hdrops⟩ := ih (k + 1 + j) 0 d hpos.ne' (by omega)
        exact ⟨congrArg _ hruns, congrArg _ hdrops⟩

/-- **A step in the numbers is a run of drops**, and what is missing from it is the length of the
run. -/
theorem adjacentSum_positions (l : List Bool) (k d : ℕ) (hsent : d ≤ l.count true) :
    adjacentSum (fun s s' ↦ if s' = s + 1 then 0 else 1) ((positions k l).take d) = dropRuns l d ∧
      adjacentSum (fun s s' ↦ s' - s - 1) ((positions k l).take d) = dropsBetween l d := by
  induction l generalizing k with
  | nil =>
    obtain rfl : d = 0 := by simpa using hsent
    exact ⟨rfl, rfl⟩
  | cons c l ih =>
    cases c with
    | false =>
      rw [List.count_cons_of_ne (by simp)] at hsent
      exact ih (k + 1) hsent
    | true =>
      rw [List.count_cons_self] at hsent
      cases d with
      | zero => exact ⟨rfl, rfl⟩
      | succ d =>
        rcases Nat.eq_zero_or_pos d with rfl | hpos
        · simp [positions, dropRuns, dropsBetween, window, through, runs]
        · exact adjacentSum_positions_cons l k 0 d hpos.ne' (by omega)

private theorem through_sublist (d : ℕ) (l : List Bool) : (through d l).Sublist l := by
  induction l generalizing d with
  | nil => cases d <;> exact List.Sublist.refl _
  | cons c l ih =>
    cases d with
    | zero => exact List.nil_sublist _
    | succ d =>
      cases c with
      | true => exact (ih d).cons_cons true
      | false => exact (ih (d + 1)).cons_cons false

theorem dropsBetween_le (l : List Bool) (d : ℕ) : dropsBetween l d ≤ l.count false :=
  ((through_sublist d _).trans (List.dropWhile_sublist not)).count_le false

theorem dropsBetween_replicate (k d : ℕ) : dropsBetween (List.replicate k true) d = 0 := by
  have hle := dropsBetween_le (List.replicate k true) d
  have hnone : (List.replicate k true).count false = 0 :=
    List.count_eq_zero.mpr fun h ↦ Bool.false_ne_true (List.eq_of_mem_replicate h)
  omega

theorem runs_cons_le (a : Bool) (l : List Bool) : runs (a :: l) ≤ l.count false := by
  induction l generalizing a with
  | nil => exact Nat.le_refl 0
  | cons b l ih =>
    have hrest := ih b
    rw [runs_cons_cons]
    cases b with
    | true =>
      rw [if_neg (by simp), Nat.zero_add, List.count_cons_of_ne (by simp)]
      exact hrest
    | false =>
      rw [List.count_cons_self]
      split_ifs
      · omega
      · omega

theorem dropRuns_le (l : List Bool) (d : ℕ) : dropRuns l d ≤ l.count false := by
  refine le_trans ?_ (dropsBetween_le l d)
  rw [dropRuns, dropsBetween]
  cases hw : window l d with
  | nil => exact Nat.le_refl 0
  | cons a l' => exact (runs_cons_le a l').trans ((List.sublist_cons_self a l').count_le false)

theorem dropRuns_eq_zero {l : List Bool} {d : ℕ} : dropRuns l d = 0 ↔ dropsBetween l d = 0 := by
  rw [dropRuns, dropsBetween, window]
  cases hdrop : l.dropWhile not with
  | nil => cases d <;> simp [through, runs]
  | cons c l' =>
    -- what is left of the stream begins with an entry that was sent
    obtain rfl : c = true := by
      have hhead := List.head_dropWhile_not not (l := l) (by rw [hdrop]; exact List.cons_ne_nil _ _)
      simpa [hdrop] using hhead
    cases d with
    | zero => simp [through, runs]
    | succ d =>
      rw [through, runs_eq_zero, List.count_cons_of_ne (by simp)]

end LossyStream
