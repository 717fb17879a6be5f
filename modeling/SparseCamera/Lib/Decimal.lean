import SparseCamera.Lib.Numerals

/-!
# Decimal numbers in text

What `strtoul` reads in base 10, in closed form: it splits a text into blanks, a sign, a run of
digits and the rest (`strtoul_eq_some_iff`). The run is the longest there is, so at most one number
begins at the start of a text.

## The construction

The functions of `Numerals` consume a text from the front. A closed form says instead how the text
is put together, and the two are compared part by part: blanks, sign, digits. Each part is the
longest of its kind, which is what makes the parts of a text unique.
-/

namespace CString

/-- `isdigit`. -/
def isdigit (b : UInt8) : Bool := chr '0' ≤ b && b ≤ chr '9'

/-- The number a run of digits stands for. -/
def decimalNumber (ds : List UInt8) : ℕ := number 10 (ds.map fun b ↦ (b - chr '0').toNat)

/-- Blanks, a sign or none, and one or more digits; `negative` if the sign is minus. -/
def SpellsInt (s : List UInt8) (negative : Bool) (n : ℕ) : Prop :=
  ∃ l g ds, l.all isspace = true ∧
    ((g = [] ∧ negative = false) ∨ (g = ascii "+" ∧ negative = false) ∨
      (g = ascii "-" ∧ negative = true)) ∧
    ds ≠ [] ∧ ds.all isdigit = true ∧ decimalNumber ds = n ∧ s = l ++ g ++ ds

/-- The unsigned 64-bit value of an integer, and whether it is out of range. -/
def unsigned64 (negative : Bool) (n : ℕ) : UInt64 × Bool :=
  if 2 ^ 64 ≤ n then (0xffffffffffffffff, true)
  else (if negative then -UInt64.ofNat n else .ofNat n, false)

/-! ## Digits -/

theorem isdigit_iff {b : UInt8} : isdigit b = true ↔ chr '0' ≤ b ∧ b ≤ chr '9' := by
  rw [isdigit, Bool.and_eq_true, decide_eq_true_iff, decide_eq_true_iff]

private theorem digit_ten (b : UInt8) :
    digit 10 b = if isdigit b = true then some (b - chr '0').toNat else none := by
  rw [digit]
  by_cases h : isdigit b = true
  · obtain ⟨hle, hge⟩ := isdigit_iff.mp h
    have hvalue : (b - chr '0').toNat < 10 := by
      have hzero : (chr '0').toNat = 48 := rfl
      have hnine : (chr '9').toNat = 57 := rfl
      rw [UInt8.toNat_sub_of_le _ _ hle]
      rw [UInt8.le_iff_toNat_le] at hge
      omega
    rw [if_pos h, if_pos ⟨hle, hge⟩, Option.filter_some, if_pos (decide_eq_true hvalue)]
  · rw [if_neg h, if_neg (fun hb ↦ h (isdigit_iff.mpr hb))]
    -- a letter is worth ten or more
    split_ifs
    · rw [Option.filter_some, if_neg (by simp)]
    · rfl

private theorem digits_ten (s : List UInt8) :
    digits 10 s
      = ((s.takeWhile isdigit).map fun b ↦ (b - chr '0').toNat, s.dropWhile isdigit) := by
  induction s with
  | nil => rfl
  | cons b s ih =>
    rw [digits, digit_ten]
    by_cases hb : isdigit b = true
    · rw [if_pos hb, List.takeWhile_cons_of_pos hb, List.dropWhile_cons_of_pos hb, ih,
        List.map_cons]
    · rw [if_neg hb, List.takeWhile_cons_of_neg hb, List.dropWhile_cons_of_neg hb]
      rfl

theorem isdigit_spec {b : UInt8} (h : isdigit b = true) :
    isspace b = false ∧ b ≠ chr '-' ∧ b ≠ chr '+' := by
  rw [isdigit_iff, UInt8.le_iff_toNat_le, UInt8.le_iff_toNat_le] at h
  have hzero : (chr '0').toNat = 48 := rfl
  refine ⟨?_, ?_, ?_⟩
  · rw [isspace, Bool.or_eq_false_iff, Bool.and_eq_false_iff, decide_eq_false_iff_not,
      decide_eq_false_iff_not, decide_eq_false_iff_not, UInt8.le_iff_toNat_le,
      UInt8.le_iff_toNat_le]
    have hbound : (13 : UInt8).toNat = 13 := rfl
    refine ⟨?_, Or.inr (by omega)⟩
    rintro rfl
    exact absurd h.1 (by decide)
  · rintro rfl
    exact absurd h.1 (by decide)
  · rintro rfl
    exact absurd h.1 (by decide)

/-! ## Signs -/

theorem exists_sign (s : List UInt8) : ∃ g, ((g = [] ∧ (sign s).1 = false) ∨
    (g = ascii "+" ∧ (sign s).1 = false) ∨ (g = ascii "-" ∧ (sign s).1 = true)) ∧
      s = g ++ (sign s).2 := by
  cases s with
  | nil => exact ⟨[], Or.inl ⟨rfl, rfl⟩, rfl⟩
  | cons b s =>
    rw [sign]
    split_ifs with hminus hplus
    · exact ⟨ascii "-", Or.inr (Or.inr ⟨rfl, rfl⟩), hminus ▸ rfl⟩
    · exact ⟨ascii "+", Or.inr (Or.inl ⟨rfl, rfl⟩), hplus ▸ rfl⟩
    · exact ⟨[], Or.inl ⟨rfl, rfl⟩, rfl⟩

private theorem sign_of_isdigit {b : UInt8} {s : List UInt8} (h : isdigit b = true) :
    sign (b :: s) = (false, b :: s) := by
  obtain ⟨-, hminus, hplus⟩ := isdigit_spec h
  rw [sign, if_neg hminus, if_neg hplus]

theorem SpellsInt.sign_eq {t : List UInt8} {negative : Bool} {n : ℕ} (h : SpellsInt t negative n)
    (rest : List UInt8) :
    ∃ ds, sign ((t ++ rest).dropWhile isspace) = (negative, ds ++ rest) ∧ ds ≠ [] ∧
      ds.all isdigit = true ∧ decimalNumber ds = n := by
  obtain ⟨l, g, ds, hl, hg, hne, hdigits, hn, rfl⟩ := h
  refine ⟨ds, ?_, hne, hdigits, hn⟩
  obtain ⟨d, ds, rfl⟩ := List.exists_cons_of_ne_nil hne
  have hd : isdigit d = true := by
    rw [List.all_cons, Bool.and_eq_true] at hdigits
    exact hdigits.1
  have hdrop : (l ++ g ++ d :: ds ++ rest).dropWhile isspace = g ++ d :: (ds ++ rest) := by
    rw [List.append_assoc, List.append_assoc,
      List.dropWhile_append_of_pos (List.all_eq_true.mp hl), List.cons_append]
    rcases hg with ⟨rfl, -⟩ | ⟨rfl, -⟩ | ⟨rfl, -⟩
    · exact List.dropWhile_cons_of_neg (by simp [isdigit_spec hd])
    · rfl
    · rfl
  rw [hdrop]
  rcases hg with ⟨rfl, rfl⟩ | ⟨rfl, rfl⟩ | ⟨rfl, rfl⟩
  · exact sign_of_isdigit hd
  · rfl
  · rfl

/-! ## Numbers -/

theorem strtoul_eq (s : List UInt8) :
    strtoul s =
      let u := sign (s.dropWhile isspace)
      if u.2.takeWhile isdigit = [] then none
      else
        let v := unsigned64 u.1 (decimalNumber (u.2.takeWhile isdigit))
        some ⟨v.1, v.2, u.2.dropWhile isdigit⟩ := by
  rw [strtoul]
  obtain ⟨negative, u⟩ := sign (s.dropWhile isspace)
  simp only [digits_ten]
  cases hds : u.takeWhile isdigit with
  | nil => rfl
  | cons b ds =>
    rw [if_neg (List.cons_ne_nil b ds), List.map_cons]
    simp only [unsigned64, decimalNumber, List.map_cons]
    split_ifs
    · rfl
    · rfl
    · rfl

/-- What `strtoul` reads is a spelled integer, the longest there is. -/
theorem strtoul_eq_some_iff {s rest : List UInt8} {v : UInt64} {erange : Bool} :
    strtoul s = some ⟨v, erange, rest⟩ ↔ ∃ t negative n, SpellsInt t negative n ∧ s = t ++ rest ∧
      (∀ b ∈ rest.head?, isdigit b = false) ∧ unsigned64 negative n = (v, erange) := by
  rw [strtoul_eq]
  constructor
  · intro h
    simp only at h
    split_ifs at h with hne
    obtain ⟨rfl, rfl, rfl⟩ := Converted.mk.inj (Option.some.inj h)
    have hblank : (s.takeWhile isspace).all isspace = true := List.all_takeWhile
    have hcut := List.takeWhile_append_dropWhile (p := isspace) (l := s)
    have hsplit := List.takeWhile_append_dropWhile (p := isdigit)
      (l := (sign (s.dropWhile isspace)).2)
    have hdigits : ((sign (s.dropWhile isspace)).2.takeWhile isdigit).all isdigit = true :=
      List.all_takeWhile
    have hrest : ∀ b ∈ ((sign (s.dropWhile isspace)).2.dropWhile isdigit).head?,
        isdigit b = false := by
      intro b hb
      have hnot := List.head?_dropWhile_not isdigit (sign (s.dropWhile isspace)).2
      rw [Option.mem_def.mp hb] at hnot
      exact hnot
    obtain ⟨g, hg, hs⟩ := exists_sign (s.dropWhile isspace)
    refine ⟨s.takeWhile isspace ++ g ++ (sign (s.dropWhile isspace)).2.takeWhile isdigit, _, _,
      ⟨_, g, _, hblank, hg, hne, hdigits, rfl, rfl⟩, ?_, hrest, rfl⟩
    rw [List.append_assoc, hsplit, List.append_assoc, ← hs, hcut]
  · rintro ⟨t, negative, n, ht, rfl, hrest, hv⟩
    obtain ⟨ds, hsign, hne, hdigits, hn⟩ := ht.sign_eq rest
    have htake : rest.takeWhile isdigit = [] ∧ rest.dropWhile isdigit = rest := by
      cases rest with
      | nil => exact ⟨rfl, rfl⟩
      | cons b rest =>
        have hb : ¬isdigit b = true := by simp [hrest b rfl]
        exact ⟨List.takeWhile_cons_of_neg hb, List.dropWhile_cons_of_neg hb⟩
    have hall := List.all_eq_true.mp hdigits
    simp only [hsign]
    rw [List.takeWhile_append_of_pos hall, List.dropWhile_append_of_pos hall, htake.1, htake.2,
      List.append_nil, if_neg hne, hn, hv]

theorem SpellsInt.unique {t : List UInt8} {negative negative' : Bool} {n n' : ℕ}
    (h : SpellsInt t negative n) (h' : SpellsInt t negative' n') :
    negative = negative' ∧ n = n' := by
  obtain ⟨ds, hsign, -, -, hn⟩ := h.sign_eq []
  obtain ⟨ds', hsign', -, -, hn'⟩ := h'.sign_eq []
  rw [hsign, Prod.mk.injEq, List.append_nil, List.append_nil] at hsign'
  rw [← hn, ← hn', hsign'.2]
  exact ⟨hsign'.1, rfl⟩

theorem SpellsInt.notMem {t : List UInt8} {negative : Bool} {n : ℕ} (h : SpellsInt t negative n)
    {b : UInt8} (hspace : isspace b = false) (hplus : b ∉ ascii "+") (hminus : b ∉ ascii "-")
    (hdigit : isdigit b = false) : b ∉ t := by
  obtain ⟨l, g, ds, hl, hg, -, hdigits, -, rfl⟩ := h
  rw [List.mem_append, List.mem_append, not_or, not_or]
  refine ⟨⟨?_, ?_⟩, ?_⟩
  · intro hmem
    rw [List.all_eq_true.mp hl b hmem] at hspace
    cases hspace
  · rcases hg with ⟨rfl, -⟩ | ⟨rfl, -⟩ | ⟨rfl, -⟩
    · exact List.not_mem_nil
    · exact hplus
    · exact hminus
  · intro hmem
    rw [List.all_eq_true.mp hdigits b hmem] at hdigit
    cases hdigit

/-! ## Ranges

A number that does not fit 64 bits is out of range, with a minus sign or without. One that does is
negated modulo 2^64 if it has one, and no error is reported. -/

theorem toNat_neg_ofNat {n : ℕ} (hlt : n < 2 ^ 64) :
    (-UInt64.ofNat n).toNat = (2 ^ 64 - n) % 2 ^ 64 := by
  have hsize : UInt64.size = 2 ^ 64 := rfl
  rw [UInt64.toNat_neg, UInt64.toNat_ofNat_of_lt' hlt, hsize]

theorem unsigned64_toUInt32 {negative : Bool} {n : ℕ} (hlt : n < 2 ^ 32)
    (hzero : negative = true → n = 0) :
    (unsigned64 negative n).1.toUInt32 = UInt32.ofNat n := by
  have hrange : n < 2 ^ 64 := by omega
  rw [unsigned64, if_neg (not_le.mpr hrange)]
  split_ifs with hneg
  · rw [hzero hneg]
    rfl
  · rw [← UInt32.toNat_inj, UInt64.toNat_toUInt32, UInt64.toNat_ofNat_of_lt' hrange,
      UInt32.toNat_ofNat']

end CString
