import Mathlib.Data.List.Basic

/-!
# Reading lines into a buffer

A reader with room for `room` characters gets a line up to and including its end `nl`, or as much
of it as there is room for; the next read goes on from there. So a long line comes in pieces, and
whoever takes pieces for lines sees lines that are not in the file.

`records f` is what a consumer `f` makes of the pieces that mean something to it. For a consumer
that does not mind the `nl` at the end, the file can be cut at any line; and a suffix of a line that
the consumer ignores may still leave pieces behind (`records_ignored`).

## The construction

A read takes a prefix off the stream and leaves the rest (`getLine_append`). If there is room for at
least one character it takes something, so the reads come to an end, and the length of the stream is
enough fuel. `pieces_eq` is the equation without fuel, and the rules below follow from it by
induction on the length of what is left.
-/

namespace LineReader

variable {α β : Type*} [DecidableEq α] (nl : α)

/-- One read: what is stored, and the rest of the stream. -/
def getLine : ℕ → List α → List α × List α
  | 0, s => ([], s)
  | _ + 1, [] => ([], [])
  | room + 1, a :: s =>
    if a = nl then ([a], s)
    else
      let (line, rest) := getLine room s
      (a :: line, rest)

/-- At most `fuel` reads, up to the end of the stream. -/
def getLines (room : ℕ) : ℕ → List α → List (List α)
  | 0, _ => []
  | fuel + 1, s =>
    if s = [] then []
    else
      let (line, rest) := getLine nl room s
      line :: getLines room fuel rest

def pieces (room : ℕ) (s : List α) : List (List α) := getLines nl room s.length s

/-- What a consumer makes of the pieces. -/
def records (room : ℕ) (f : List α → Option β) (s : List α) : List β :=
  (pieces nl room s).filterMap f

/-! ## One read -/

section Read

variable {nl} {room : ℕ} {s t u : List α}

theorem getLine_append (nl : α) (room : ℕ) (s : List α) :
    (getLine nl room s).1 ++ (getLine nl room s).2 = s := by
  induction room generalizing s with
  | zero => rfl
  | succ room ih =>
    cases s with
    | nil => rfl
    | cons a s =>
      rw [getLine]
      split_ifs
      · rfl
      · exact congrArg (a :: ·) (ih s)

theorem length_getLine_lt (nl : α) (hroom : 0 < room) (hs : s ≠ []) :
    (getLine nl room s).2.length < s.length := by
  have hlen := congrArg List.length (getLine_append nl room s)
  have hpos : 0 < (getLine nl room s).1.length := by
    obtain ⟨room, rfl⟩ := Nat.exists_eq_add_one.mpr hroom
    obtain ⟨a, s, rfl⟩ := List.exists_cons_of_ne_nil hs
    rw [getLine]
    split_ifs
    · exact Nat.one_pos
    · exact Nat.succ_pos _
  rw [List.length_append] at hlen
  omega

theorem getLine_of_le (hu : nl ∉ u) (hle : room ≤ u.length) :
    getLine nl room (u ++ s) = (u.take room, u.drop room ++ s) := by
  induction room generalizing u with
  | zero => rfl
  | succ room ih =>
    cases u with
    | nil => exact absurd hle (Nat.not_succ_le_zero room)
    | cons a u =>
      rw [List.mem_cons, not_or] at hu
      rw [List.cons_append, getLine, if_neg (Ne.symm hu.1), ih hu.2 (Nat.le_of_succ_le_succ hle)]
      rfl

theorem getLine_of_lt (hu : nl ∉ u) (hlt : u.length < room) :
    getLine nl room (u ++ nl :: s) = (u ++ [nl], s) := by
  induction u generalizing room with
  | nil =>
    obtain ⟨room, rfl⟩ := Nat.exists_eq_add_one.mpr hlt
    rw [List.nil_append, getLine, if_pos rfl, List.nil_append]
  | cons a u ih =>
    obtain ⟨room, rfl⟩ := Nat.exists_eq_add_one.mpr (Nat.zero_lt_of_lt hlt)
    rw [List.mem_cons, not_or] at hu
    rw [List.cons_append, getLine, if_neg (Ne.symm hu.1), ih hu.2 (Nat.lt_of_succ_lt_succ hlt)]
    rfl

private theorem getLine_last (hu : nl ∉ u) : getLine nl room u = (u.take room, u.drop room) := by
  induction room generalizing u with
  | zero => rfl
  | succ room ih =>
    cases u with
    | nil => rfl
    | cons a u =>
      rw [List.mem_cons, not_or] at hu
      rw [getLine, if_neg (Ne.symm hu.1), ih hu.2]
      rfl

private theorem getLine_boundary (hlast : s.getLast? = some nl) :
    getLine nl room (s ++ t) = ((getLine nl room s).1, (getLine nl room s).2 ++ t) := by
  induction room generalizing s with
  | zero => rfl
  | succ room ih =>
    cases s with
    | nil => cases hlast
    | cons a s =>
      rw [List.cons_append, getLine, getLine]
      split_ifs with ha
      · rfl
      · -- the end is not the character that was just read
        have hs : s.getLast? = some nl := by
          cases s with
          | nil => exact absurd (Option.some.inj hlast) ha
          | cons b s => rwa [List.getLast?_cons_cons] at hlast
        rw [ih hs]

private theorem getLine_fst (room : ℕ) (s : List α) :
    ∃ u, nl ∉ u ∧ ((getLine nl room s).1 = u ∨ (getLine nl room s).1 = u ++ [nl]) := by
  induction room generalizing s with
  | zero => exact ⟨[], List.not_mem_nil, Or.inl rfl⟩
  | succ room ih =>
    cases s with
    | nil => exact ⟨[], List.not_mem_nil, Or.inl rfl⟩
    | cons a s =>
      rw [getLine]
      split_ifs with ha
      · exact ⟨[], List.not_mem_nil, Or.inr (by rw [ha, List.nil_append])⟩
      · obtain ⟨u, hu, h⟩ := ih s
        refine ⟨a :: u, by simp [Ne.symm ha, hu], ?_⟩
        exact h.imp (congrArg (a :: ·)) (congrArg (a :: ·))

end Read

/-! ## All reads

Where a piece ends with the end of a line, the reader starts afresh, so the stream can be cut there.
Elsewhere it cannot: what the next piece is depends on how much of the line is gone. -/

section Pieces

variable {nl} {room : ℕ} {s t u : List α}

@[simp] theorem getLines_nil (fuel : ℕ) : getLines nl room fuel ([] : List α) = [] := by
  cases fuel with
  | zero => rfl
  | succ fuel => rw [getLines, if_pos rfl]

private theorem getLines_succ (fuel : ℕ) (hs : s ≠ []) :
    getLines nl room (fuel + 1) s
      = (getLine nl room s).1 :: getLines nl room fuel (getLine nl room s).2 := by
  rw [getLines, if_neg hs]

/-- Every read makes progress, so more fuel than characters changes nothing. -/
theorem getLines_congr (hroom : 0 < room) {fuel fuel' : ℕ} (h : s.length ≤ fuel)
    (h' : s.length ≤ fuel') : getLines nl room fuel s = getLines nl room fuel' s := by
  induction fuel generalizing fuel' s with
  | zero => rw [List.length_eq_zero_iff.mp (Nat.le_zero.mp h), getLines_nil, getLines_nil]
  | succ fuel ih =>
    by_cases hs : s = []
    · rw [hs, getLines_nil, getLines_nil]
    · have hlt := length_getLine_lt nl hroom hs
      have hpos : 0 < fuel' := Nat.lt_of_lt_of_le (Nat.zero_lt_of_lt hlt) h'
      obtain ⟨fuel', rfl⟩ := Nat.exists_eq_add_one.mpr hpos
      have hrest : (getLine nl room s).2.length ≤ fuel := by omega
      have hrest' : (getLine nl room s).2.length ≤ fuel' := by omega
      rw [getLines_succ fuel hs, getLines_succ fuel' hs, ih hrest hrest']

@[simp] theorem pieces_nil : pieces nl room ([] : List α) = [] := rfl

theorem pieces_eq (hroom : 0 < room) (hs : s ≠ []) :
    pieces nl room s = (getLine nl room s).1 :: pieces nl room (getLine nl room s).2 := by
  have hlt := length_getLine_lt nl hroom hs
  obtain ⟨fuel, hfuel⟩ := Nat.exists_eq_add_one.mpr (Nat.zero_lt_of_lt hlt)
  have hrest : (getLine nl room s).2.length ≤ fuel := by omega
  rw [pieces, hfuel, getLines_succ fuel hs, pieces, getLines_congr hroom hrest (Nat.le_refl _)]

theorem exists_of_mem_pieces (hroom : 0 < room) {piece : List α} (h : piece ∈ pieces nl room s) :
    ∃ u, nl ∉ u ∧ (piece = u ∨ piece = u ++ [nl]) := by
  induction hn : s.length using Nat.strongRecOn generalizing s with
  | ind n ih =>
    by_cases hs : s = []
    · rw [hs, pieces_nil] at h
      cases h
    · rw [pieces_eq hroom hs, List.mem_cons] at h
      rcases h with rfl | h
      · exact getLine_fst room s
      · exact ih _ (hn ▸ length_getLine_lt nl hroom hs) h rfl

theorem pieces_append (hroom : 0 < room) (hlast : s = [] ∨ s.getLast? = some nl) (t : List α) :
    pieces nl room (s ++ t) = pieces nl room s ++ pieces nl room t := by
  induction hn : s.length using Nat.strongRecOn generalizing s with
  | ind n ih =>
    by_cases hs : s = []
    · rw [hs, List.nil_append, pieces_nil, List.nil_append]
    · have hnl := hlast.resolve_left hs
      have hst : s ++ t ≠ [] := fun h ↦ hs (List.append_eq_nil_iff.mp h).1
      have hrest : (getLine nl room s).2 = [] ∨ (getLine nl room s).2.getLast? = some nl := by
        refine or_iff_not_imp_left.mpr ?_
        intro hne
        rw [← getLine_append nl room s, List.getLast?_append_of_ne_nil _ hne] at hnl
        exact hnl
      rw [pieces_eq hroom hst, pieces_eq hroom hs, getLine_boundary hnl, List.cons_append,
        ih _ (hn ▸ length_getLine_lt nl hroom hs) hrest rfl]

theorem pieces_of_le (hroom : 0 < room) (hu : nl ∉ u) (hle : room ≤ u.length) (s : List α) :
    pieces nl room (u ++ s) = u.take room :: pieces nl room (u.drop room ++ s) := by
  have hne : u ++ s ≠ [] := fun h ↦ by
    rw [(List.append_eq_nil_iff.mp h).1, List.length_nil] at hle
    omega
  rw [pieces_eq hroom hne, getLine_of_le hu hle]

theorem pieces_of_lt (hu : nl ∉ u) (hlt : u.length < room) (s : List α) :
    pieces nl room (u ++ nl :: s) = (u ++ [nl]) :: pieces nl room s := by
  rw [pieces_eq (Nat.zero_lt_of_lt hlt) (by simp), getLine_of_lt hu hlt]

private theorem pieces_last (hroom : 0 < room) (hu : nl ∉ u) (hne : u ≠ []) :
    pieces nl room u = u.take room :: pieces nl room (u.drop room) := by
  rw [pieces_eq hroom hne, getLine_last hu]

theorem mem_of_mem_splitOn {a : α} (hu : u ∈ s.splitOn nl) (ha : a ∈ u) : a ∈ s := by
  induction hn : s.length using Nat.strongRecOn generalizing s with
  | ind n ih =>
    by_cases hmem : nl ∈ s
    · obtain ⟨v, t, rfl, hv⟩ := List.eq_append_cons_of_mem hmem
      rw [List.splitOn_append_cons_self_of_not_mem hv, List.mem_cons] at hu
      rcases hu with rfl | hu
      · exact List.mem_append_left _ ha
      · have hlt : t.length < n := by
          rw [← hn, List.length_append, List.length_cons]
          omega
        exact List.mem_append_right _ (List.mem_cons_of_mem _ (ih _ hlt hu rfl))
    · rw [List.splitOn_eq_singleton hmem, List.mem_singleton] at hu
      exact hu ▸ ha

end Pieces

/-! ## Records

A consumer that takes a line with its end for the same as one without sees no difference between a
file and its lines, as long as these fit. -/

section Records

variable {nl} {room : ℕ} {f : List α → Option β} {s t u c : List α}

omit [DecidableEq α] in
theorem filterMap_cons_toList (f : List α → Option β) (u : List α) (us : List (List α)) :
    (u :: us).filterMap f = (f u).toList ++ us.filterMap f := by
  rw [List.filterMap_cons]
  cases f u with
  | none => rfl
  | some b => rfl

@[simp] theorem records_nil : records nl room f [] = [] := rfl

theorem records_append (hroom : 0 < room) (hlast : s = [] ∨ s.getLast? = some nl) (t : List α) :
    records nl room f (s ++ t) = records nl room f s ++ records nl room f t := by
  rw [records, pieces_append hroom hlast, List.filterMap_append, records, records]

private theorem records_of_le (hroom : 0 < room) (hu : nl ∉ u) (hle : room ≤ u.length)
    (t : List α) :
    records nl room f (u ++ t)
      = (f (u.take room)).toList ++ records nl room f (u.drop room ++ t) := by
  rw [records, pieces_of_le hroom hu hle, filterMap_cons_toList, records]

private theorem records_of_le_nil (hroom : 0 < room) (hu : nl ∉ u) (hle : room ≤ u.length) :
    records nl room f u = (f (u.take room)).toList ++ records nl room f (u.drop room) := by
  simpa only [List.append_nil] using @records_of_le _ _ _ nl room f u hroom hu hle []

variable (hend : ∀ u, nl ∉ u → f (u ++ [nl]) = f u) (hnil : f [] = none)

include hnil in
theorem records_short (hu : nl ∉ u) (hle : u.length ≤ room) :
    records nl room f u = (f u).toList := by
  by_cases hne : u = []
  · rw [hne, records_nil, hnil, Option.toList_none]
  · have hroom := Nat.lt_of_lt_of_le (List.length_pos_of_ne_nil hne) hle
    rw [records, pieces_last hroom hu hne, List.take_of_length_le hle, List.drop_of_length_le hle,
      pieces_nil, filterMap_cons_toList, List.filterMap_nil, List.append_nil]

include hend hnil in
theorem records_blank (hroom : 0 < room) (t : List α) :
    records nl room f (nl :: t) = records nl room f t := by
  have hpieces := pieces_of_lt (List.not_mem_nil (a := nl)) hroom t
  have hf : f [nl] = none := (hend [] List.not_mem_nil).trans hnil
  rw [List.nil_append] at hpieces
  rw [records, hpieces, List.nil_append, List.filterMap_cons_none hf, records]

include hend hnil in
/-- The end of a line does not matter, so the file can be cut in front of it. -/
theorem records_line (hroom : 0 < room) (hu : nl ∉ u) (ht : t = [] ∨ ∃ t', t = nl :: t') :
    records nl room f (u ++ t) = records nl room f u ++ records nl room f t := by
  rcases ht with rfl | ⟨t, rfl⟩
  · rw [List.append_nil, records_nil, List.append_nil]
  rw [records_blank hend hnil hroom]
  induction hn : u.length using Nat.strongRecOn generalizing u with
  | ind n ih =>
    subst hn
    -- one read takes the first part of a long line, a short one is read with its end
    by_cases hle : room ≤ u.length
    · have hdrop : (u.drop room).length < u.length := by
        rw [List.length_drop]
        omega
      rw [records_of_le hroom hu hle, records_of_le_nil hroom hu hle, List.append_assoc,
        ih _ hdrop (fun h ↦ hu (List.mem_of_mem_drop h)) rfl]
    · have hlt := Nat.lt_of_not_ge hle
      rw [records, pieces_of_lt hu hlt, filterMap_cons_toList, hend u hu,
        records_short hnil hu (Nat.le_of_lt hlt), records]

include hend hnil in
/-- If every line fits, there is one record for each line that means something. -/
theorem records_splitOn (hroom : 0 < room) (hfits : ∀ u ∈ s.splitOn nl, u.length ≤ room) :
    records nl room f s = (s.splitOn nl).filterMap f := by
  induction hn : s.length using Nat.strongRecOn generalizing s with
  | ind n ih =>
    subst hn
    by_cases hmem : nl ∈ s
    · obtain ⟨u, t, rfl, hu⟩ := List.eq_append_cons_of_mem hmem
      rw [List.splitOn_append_cons_self_of_not_mem hu] at hfits ⊢
      rw [List.forall_mem_cons] at hfits
      have hlt : t.length < (u ++ nl :: t).length := by
        rw [List.length_append, List.length_cons]
        omega
      rw [records_line hend hnil hroom hu (Or.inr ⟨t, rfl⟩), records_short hnil hu hfits.1,
        records_blank hend hnil hroom, ih _ hlt hfits.2 rfl, filterMap_cons_toList]
    · rw [List.splitOn_eq_singleton hmem] at hfits ⊢
      rw [records_short hnil hmem (hfits s (List.mem_singleton_self s)), filterMap_cons_toList,
        List.filterMap_nil, List.append_nil]

/-- What is left of a suffix that the consumer ignores: the reads after the one in which it
begins. -/
theorem records_ignored (hroom : 0 < room) (hnil : f [] = none) (hu : nl ∉ u) (hc : nl ∉ c)
    (hignore : ∀ v k, nl ∉ v → f (v ++ c.take k) = f v) :
    records nl room f (u ++ c)
      = records nl room f u ++ records nl room f (c.drop (room - u.length % room)) := by
  induction hn : u.length using Nat.strongRecOn generalizing u with
  | ind n ih =>
    subst hn
    have huc : nl ∉ u ++ c := fun h ↦ (List.mem_append.mp h).elim hu hc
    by_cases hle : room ≤ u.length
    · have hdrop : (u.drop room).length < u.length := by
        rw [List.length_drop]
        omega
      have hih := ih _ hdrop (fun h ↦ hu (List.mem_of_mem_drop h)) rfl
      rw [List.length_drop, ← Nat.mod_eq_sub_mod hle] at hih
      rw [records_of_le hroom hu hle, records_of_le_nil hroom hu hle, List.append_assoc, hih]
    · have hlt := Nat.lt_of_not_ge hle
      -- the suffix begins in this read, which takes as much of it as there is room for
      have hle' := Nat.le_of_lt hlt
      rw [Nat.mod_eq_of_lt hlt, records_short hnil hu hle']
      by_cases hne : u ++ c = []
      · obtain ⟨rfl, rfl⟩ := List.append_eq_nil_iff.mp hne
        simp [hnil]
      · rw [records, pieces_last hroom huc hne, List.take_append, List.take_of_length_le hle',
          List.drop_append, List.drop_of_length_le hle', List.nil_append, filterMap_cons_toList,
          hignore u _ hu, records]

end Records

end LineReader
