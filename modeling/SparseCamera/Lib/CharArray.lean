import SparseCamera.Lib.Decimal
import SparseCamera.Lib.Memory
import SparseCamera.Lib.Nonfinite

/-!
# Strings in arrays

A string lives in an array of characters and ends at the first zero behind its beginning. A pointer
into the array is a position, and the text it points at is what stands between there and the zero.

`strtoul` and `strtod` hand back such a pointer. What they leave unread is an end of the text they
were given, so the pointer is found by counting from the zero backwards.
-/

namespace CString

open Memory

/-- An array of `size` zeros after a text was written to its beginning, with its terminator. -/
def charArray (size : ℕ) (s : List UInt8) : List UInt8 :=
  overwrite (List.replicate size 0) 0 (s ++ [0])

def textAt (a : List UInt8) (i : ℕ) : List UInt8 := cstring (a.drop i)

/-- `strlen`. -/
def strlen (a : List UInt8) (i : ℕ) : ℕ := (textAt a i).length

/-! ## Texts and positions -/

section Text

variable {a s t rest : List UInt8} {i size : ℕ}

theorem cstring_append (h : 0 ∉ s) (rest : List UInt8) : cstring (s ++ 0 :: rest) = s := by
  rw [cstring, List.takeWhile_append_of_pos]
  · simp
  · intro b hb
    exact decide_eq_true fun hzero ↦ h (hzero ▸ hb)

theorem textAt_of_drop (h : 0 ∉ t) (ha : a.drop i = t ++ 0 :: rest) : textAt a i = t := by
  rw [textAt, ha, cstring_append h]

theorem textAt_eq_nil_iff : textAt a i = [] ↔ a.getD i 0 = 0 := by
  rw [textAt, cstring, List.getD_eq_getElem?_getD, ← List.head?_drop]
  cases a.drop i with
  | nil => simp
  | cons b t => by_cases hb : b = 0 <;> simp [hb]

private theorem charArray_eq (size : ℕ) (s : List UInt8) :
    charArray size s = s ++ 0 :: List.replicate (size - (s.length + 1)) 0 := by
  rw [charArray, overwrite_zero, List.drop_replicate, List.append_assoc, List.length_append]
  rfl

theorem drop_charArray (size : ℕ) (hi : i ≤ s.length) : (charArray size s).drop i
    = s.drop i ++ 0 :: List.replicate (size - (s.length + 1)) 0 := by
  rw [charArray_eq, List.drop_append_of_le_length hi]

theorem textAt_charArray (size : ℕ) (h : 0 ∉ s) (hi : i ≤ s.length) :
    textAt (charArray size s) i = s.drop i :=
  textAt_of_drop (fun hmem ↦ h (List.mem_of_mem_drop hmem)) (drop_charArray size hi)

theorem getElem?_charArray (size : ℕ) (s : List UInt8) :
    (charArray size s)[s.length]? = some 0 := by
  rw [charArray_eq, List.getElem?_append_right (Nat.le_refl _), Nat.sub_self]
  rfl

theorem set_charArray (size : ℕ) (s : List UInt8) :
    (charArray size s).set s.length 0 = charArray size s := by
  obtain ⟨hlt, hzero⟩ := List.getElem?_eq_some_iff.mp (getElem?_charArray size s)
  calc (charArray size s).set s.length 0
      = (charArray size s).set s.length (charArray size s)[s.length] := by rw [hzero]
    _ = charArray size s := List.set_getElem_self hlt

end Text

/-! ## Where a conversion stops

Every stage of the two conversions hands on an end of the text that it was given, and ends of ends
are ends. So it is enough to look at each stage by itself. -/

section Suffix

variable {s : List UInt8}

private theorem sign_suffix (s : List UInt8) : (sign s).2 <:+ s := by
  cases s with
  | nil => exact List.suffix_refl _
  | cons b s =>
    rw [sign]
    split_ifs
    · exact List.suffix_cons b s
    · exact List.suffix_cons b s
    · exact List.suffix_refl _

private theorem digits_suffix (base : ℕ) (s : List UInt8) : (digits base s).2 <:+ s := by
  induction s with
  | nil => exact List.suffix_refl _
  | cons b s ih =>
    rw [digits]
    cases digit base b with
    | none => exact List.suffix_refl _
    | some d => exact ih.trans (List.suffix_cons b s)

theorem strtoul_suffix {v : Converted UInt64} (h : strtoul s = some v) : v.rest <:+ s := by
  obtain ⟨t, -, -, -, hs, -⟩ := strtoul_eq_some_iff.mp h
  exact ⟨t, hs.symm⟩

private theorem afterWord_suffix {word rest : List UInt8} (h : afterWord word s = some rest) :
    rest <:+ s := by
  obtain ⟨w, -, hs⟩ := afterWord_eq_some_iff.mp h
  exact ⟨w, hs.symm⟩

private theorem afterNan_suffix (s : List UInt8) : afterNan s <:+ s := by
  obtain ⟨t, -, hs⟩ := exists_payload s
  exact ⟨t, hs.symm⟩

private theorem mantissa_suffix {base m k : ℕ} {rest : List UInt8}
    (h : mantissa base s = some (m, k, rest)) : rest <:+ s := by
  have hwhole := digits_suffix base s
  simp only [mantissa] at h
  split_ifs at h
  obtain ⟨-, -, rfl⟩ := by simpa using h
  split
  · exact List.nil_suffix
  · next b rest hrest =>
    rw [hrest] at hwhole
    split_ifs
    · exact (digits_suffix base rest).trans ((List.suffix_cons b rest).trans hwhole)
    · exact hwhole

private theorem exponent_suffix (mark : Char) (s : List UInt8) : (exponent mark s).2 <:+ s := by
  cases s with
  | nil => exact List.suffix_refl _
  | cons b s =>
    simp only [exponent]
    by_cases hmark : tolower b = chr mark
    · rw [if_pos hmark]
      split
      · exact List.suffix_refl _
      · next ds rest _ hdigits =>
        have hrest := digits_suffix 10 (sign s).2
        rw [hdigits] at hrest
        exact hrest.trans ((sign_suffix s).trans (List.suffix_cons b s))
    · rw [if_neg hmark]

private theorem decimal_suffix {q : ℚ} {rest : List UInt8} (h : decimal s = some (q, rest)) :
    rest <:+ s := by
  obtain ⟨⟨m, k, rest'⟩, hmantissa, heq⟩ := Option.map_eq_some_iff.mp h
  obtain ⟨-, rfl⟩ := Prod.mk.inj heq
  exact (exponent_suffix 'e' rest').trans (mantissa_suffix hmantissa)

private theorem hexadecimal_suffix {q : ℚ} {rest : List UInt8}
    (h : hexadecimal s = some (q, rest)) :
    rest <:+ s := by
  cases s with
  | nil => cases h
  | cons zero s =>
    cases s with
    | nil => cases h
    | cons x s =>
      rw [hexadecimal] at h
      split_ifs at h
      obtain ⟨⟨m, k, rest'⟩, hmantissa, heq⟩ := Option.map_eq_some_iff.mp h
      obtain ⟨-, rfl⟩ := Prod.mk.inj heq
      exact ((exponent_suffix 'p' rest').trans (mantissa_suffix hmantissa)).trans
        ((List.suffix_cons x s).trans (List.suffix_cons zero (x :: s)))

theorem strtod_suffix {v : Converted ExtRat} (h : strtod s = some v) : v.rest <:+ s := by
  have hsign := (sign_suffix (s.dropWhile isspace)).trans (List.dropWhile_suffix isspace)
  rw [strtod] at h
  generalize sign (s.dropWhile isspace) = signed at h hsign
  obtain ⟨negative, u⟩ := signed
  refine List.IsSuffix.trans ?_ hsign
  simp only at h ⊢
  split at h
  · next rest hword =>
    obtain rfl := Option.some.inj h
    obtain ⟨w, -, hw⟩ := exists_word_of_afterInf hword
    exact ⟨w, hw.symm⟩
  · split at h
    · next rest hnan =>
      obtain rfl := Option.some.inj h
      exact (afterNan_suffix rest).trans (afterWord_suffix hnan)
    · obtain ⟨⟨q, rest⟩, hnumber, rfl⟩ := Option.map_eq_some_iff.mp h
      rw [Option.orElse_eq_orElse, Option.orElse_eq_or, Option.or_eq_some_iff] at hnumber
      rcases hnumber with hhex | ⟨-, hdec⟩
      · exact hexadecimal_suffix hhex
      · exact decimal_suffix hdec

end Suffix

end CString
