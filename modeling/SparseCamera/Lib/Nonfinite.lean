import SparseCamera.Lib.Decimal

/-!
# Infinities and NaNs in text

Besides numbers `strtod` reads a few words: `inf` and `infinity`, and `nan` with or without a
payload in parentheses, all in any case and with a sign before them. A number that overflows comes
out as an infinity as well, but is reported as out of range. So what is read without such a report
and is not finite was spelled as one of the words (`strtod_nonfinite_iff`).
-/

namespace CString

def isPayload (b : UInt8) : Bool :=
  b = chr '_' || (chr '0' ≤ b && b ≤ chr '9') || (chr 'a' ≤ tolower b && tolower b ≤ chr 'z')

def IsPayload (t : List UInt8) : Prop :=
  t = [] ∨ ∃ u, u.all isPayload = true ∧ t = ascii "(" ++ u ++ ascii ")"

def IsNonfiniteWord (w : List UInt8) : Prop :=
  sameText (ascii "inf") w = true ∨ sameText (ascii "infinity") w = true ∨
    ∃ n t, sameText (ascii "nan") n = true ∧ IsPayload t ∧ w = n ++ t

/-- Blanks, a sign or none, and a word for an infinity or a NaN. -/
def SpellsNonfinite (s : List UInt8) : Prop :=
  ∃ l g w, l.all isspace = true ∧ (g = [] ∨ g = ascii "+" ∨ g = ascii "-") ∧ IsNonfiniteWord w ∧
    s = l ++ g ++ w

/-! ## Words in any case

Two words that differ in case only have the same length, and letter by letter they are equal or 32
apart. -/

theorem eq_of_tolower {b x : UInt8} (h : tolower b = x) : b = x ∨ b = x - 32 := by
  rw [tolower] at h
  split_ifs at h
  · exact Or.inr (by rw [← h, UInt8.add_sub_cancel])
  · exact Or.inl h

private theorem sameText_length {s t : List UInt8} (h : sameText s t = true) :
    t.length = s.length := by
  have hmap := congrArg List.length (of_decide_eq_true h)
  rw [List.length_map, List.length_map] at hmap
  exact hmap.symm

theorem afterWord_eq_some_iff {word s rest : List UInt8} :
    afterWord word s = some rest ↔ ∃ w, sameText word w = true ∧ s = w ++ rest := by
  rw [afterWord]
  constructor
  · intro h
    split_ifs at h with hsame
    obtain rfl := Option.some.inj h
    exact ⟨_, hsame, (List.take_append_drop _ _).symm⟩
  · rintro ⟨w, hsame, rfl⟩
    have hlen := sameText_length hsame
    rw [← hlen, List.take_left, if_pos hsame, List.drop_left]

private theorem afterWord_eq_none {x : UInt8} {word s : List UInt8} {b : UInt8}
    (h : tolower x ≠ tolower b) : afterWord (x :: word) (b :: s) = none := by
  rw [afterWord, if_neg]
  intro hsame
  have hmap := of_decide_eq_true hsame
  rw [List.length_cons, List.take_succ_cons, List.map_cons, List.map_cons] at hmap
  exact h (List.cons.inj hmap).1

private theorem exists_cons_of_sameText {x : UInt8} {word n : List UInt8}
    (h : sameText (x :: word) n = true) : ∃ b u, n = b :: u ∧ tolower b = tolower x := by
  cases n with
  | nil => cases of_decide_eq_true h
  | cons b u => exact ⟨b, u, rfl, (List.cons.inj (of_decide_eq_true h)).1.symm⟩

theorem IsNonfiniteWord.exists_cons {w : List UInt8} (h : IsNonfiniteWord w) :
    ∃ b u, w = b :: u ∧ isspace b = false ∧ b ≠ chr '-' ∧ b ≠ chr '+' := by
  have hletter {b x : UInt8} (hb : tolower b = x) (hx : x = chr 'i' ∨ x = chr 'n') :
      isspace b = false ∧ b ≠ chr '-' ∧ b ≠ chr '+' := by
    rcases hx with rfl | rfl
    · rcases eq_of_tolower hb with rfl | rfl <;> decide
    · rcases eq_of_tolower hb with rfl | rfl <;> decide
  rcases h with hinf | hinf | ⟨n, t, hnan, -, rfl⟩
  · obtain ⟨b, u, rfl, hb⟩ := exists_cons_of_sameText hinf
    exact ⟨b, u, rfl, hletter hb (Or.inl rfl)⟩
  · obtain ⟨b, u, rfl, hb⟩ := exists_cons_of_sameText hinf
    exact ⟨b, u, rfl, hletter hb (Or.inl rfl)⟩
  · obtain ⟨b, u, rfl, hb⟩ := exists_cons_of_sameText hnan
    exact ⟨b, u ++ t, rfl, hletter hb (Or.inr rfl)⟩

/-! ## Payloads -/

private theorem afterNan_cons (b : UInt8) (s : List UInt8) : afterNan (b :: s) =
    if b = chr '(' then
      match s.dropWhile isPayload with
      | c :: r => if c = chr ')' then r else b :: s
      | [] => b :: s
    else b :: s := rfl

theorem exists_payload (s : List UInt8) : ∃ t, IsPayload t ∧ s = t ++ afterNan s := by
  cases s with
  | nil => exact ⟨[], Or.inl rfl, rfl⟩
  | cons b s =>
    rw [afterNan_cons]
    split_ifs with hopen
    · split
      · next c r hdrop =>
        split_ifs with hclose
        · refine ⟨_, Or.inr ⟨s.takeWhile isPayload, List.all_takeWhile, rfl⟩, ?_⟩
          have hs := List.takeWhile_append_dropWhile (p := isPayload) (l := s)
          rw [hdrop, hclose] at hs
          calc b :: s = chr '(' :: (s.takeWhile isPayload ++ chr ')' :: r) := by rw [hopen, hs]
            _ = ascii "(" ++ s.takeWhile isPayload ++ ascii ")" ++ r := by simp [ascii]
        · exact ⟨[], Or.inl rfl, rfl⟩
      · exact ⟨[], Or.inl rfl, rfl⟩
    · exact ⟨[], Or.inl rfl, rfl⟩

theorem afterNan_append {t r : List UInt8} (ht : IsPayload t) (hr : r.all isspace = true) :
    afterNan (t ++ r) = r := by
  rcases ht with rfl | ⟨u, hu, rfl⟩
  · cases r with
    | nil => rfl
    | cons b r =>
      rw [List.nil_append, afterNan_cons, if_neg]
      rintro rfl
      rw [List.all_cons] at hr
      exact absurd (Bool.and_eq_true_iff.mp hr).1 (by decide)
  · have hdrop : (u ++ (ascii ")" ++ r)).dropWhile isPayload = chr ')' :: r := by
      rw [List.dropWhile_append_of_pos (List.all_eq_true.mp hu)]
      rfl
    have happend : ascii "(" ++ u ++ ascii ")" ++ r = chr '(' :: (u ++ (ascii ")" ++ r)) := by
      rw [List.append_assoc, List.append_assoc]
      rfl
    rw [happend, afterNan_cons, if_pos rfl, hdrop]
    exact if_pos rfl

/-! ## What is not finite

`strtod` looks for the words first, and each of its branches has its own kind of value: a number
that is in range is finite. So the value tells which word was read. -/

theorem toDouble_finite {q : ℚ} {v : ExtRat} (h : toDouble q = (v, false)) : ∃ p, v = .fin p := by
  rw [toDouble] at h
  split_ifs at h
  · exact ⟨0, (Prod.mk.inj h).1.symm⟩
  · simp only at h
    split_ifs at h
    · cases (Prod.mk.inj h).2
    · exact ⟨_, (Prod.mk.inj h).1.symm⟩

private theorem sign_nonfinite {l g w : List UInt8} (hl : l.all isspace = true)
    (hg : g = [] ∨ g = ascii "+" ∨ g = ascii "-") (hw : IsNonfiniteWord w) (r : List UInt8) :
    ∃ negative, sign ((l ++ g ++ w ++ r).dropWhile isspace) = (negative, w ++ r) := by
  obtain ⟨b, u, rfl, hb, hminus, hplus⟩ := hw.exists_cons
  have hdrop : (l ++ g ++ b :: u ++ r).dropWhile isspace
      = (g ++ b :: (u ++ r)).dropWhile isspace := by
    rw [List.append_assoc, List.append_assoc,
      List.dropWhile_append_of_pos (List.all_eq_true.mp hl), List.cons_append]
  rw [hdrop]
  rcases hg with rfl | rfl | rfl
  · refine ⟨false, ?_⟩
    rw [List.nil_append, List.dropWhile_cons_of_neg (by simp [hb]), sign, if_neg hminus,
      if_neg hplus]
    rfl
  · exact ⟨false, rfl⟩
  · exact ⟨true, rfl⟩

theorem exists_word_of_afterInf {s rest : List UInt8}
    (h : (afterWord (ascii "infinity") s <|> afterWord (ascii "inf") s) = some rest) :
    ∃ w, IsNonfiniteWord w ∧ s = w ++ rest := by
  rw [Option.orElse_eq_orElse, Option.orElse_eq_or, Option.or_eq_some_iff] at h
  rcases h with hlong | ⟨-, hshort⟩
  · obtain ⟨w, hw, hs⟩ := afterWord_eq_some_iff.mp hlong
    exact ⟨w, Or.inr (Or.inl hw), hs⟩
  · obtain ⟨w, hw, hs⟩ := afterWord_eq_some_iff.mp hshort
    exact ⟨w, Or.inl hw, hs⟩

/-- The longer word is not found in the shorter one and blanks, unless it ends in blanks. -/
theorem afterInf_append {w r : List UInt8} (hr : r.all isspace = true)
    (hw : sameText (ascii "inf") w = true ∨ sameText (ascii "infinity") w = true) :
    ∃ rest, (afterWord (ascii "infinity") (w ++ r) <|> afterWord (ascii "inf") (w ++ r))
      = some rest ∧ rest.all isspace = true := by
  rcases hw with hinf | hinf
  · have hword : afterWord (ascii "inf") (w ++ r) = some r :=
      afterWord_eq_some_iff.mpr ⟨w, hinf, rfl⟩
    cases hlong : afterWord (ascii "infinity") (w ++ r) with
    | none => exact ⟨r, hword, hr⟩
    | some rest =>
      refine ⟨rest, rfl, ?_⟩
      obtain ⟨w', hw', hsplit⟩ := afterWord_eq_some_iff.mp hlong
      have hlen : w.length < w'.length := by
        rw [sameText_length hinf, sameText_length hw']
        decide
      obtain ⟨c, -, rfl⟩ | ⟨c, rfl, -⟩ := List.append_eq_append_iff.mp hsplit
      · rw [List.all_append, Bool.and_eq_true] at hr
        exact hr.2
      · rw [List.length_append] at hlen
        omega
  · have hword : afterWord (ascii "infinity") (w ++ r) = some r :=
      afterWord_eq_some_iff.mpr ⟨w, hinf, rfl⟩
    rw [hword]
    exact ⟨r, rfl, hr⟩

theorem exists_word_of_strtod {s rest : List UInt8} {v : ExtRat}
    (h : strtod s = some ⟨v, false, rest⟩) (hv : ∀ q, v ≠ .fin q) :
    ∃ w, IsNonfiniteWord w ∧ (sign (s.dropWhile isspace)).2 = w ++ rest := by
  rw [strtod] at h
  generalize sign (s.dropWhile isspace) = signed at h ⊢
  obtain ⟨negative, u⟩ := signed
  simp only at h ⊢
  split at h
  · next rest' hinf =>
    obtain rfl := (Converted.mk.inj (Option.some.inj h)).2.2
    exact exists_word_of_afterInf hinf
  · split at h
    · next rest' hnan =>
      obtain ⟨n, hn, hu⟩ := afterWord_eq_some_iff.mp hnan
      obtain ⟨t, ht, hrest⟩ := exists_payload rest'
      refine ⟨n ++ t, Or.inr (Or.inr ⟨n, t, hn, ht, rfl⟩), ?_⟩
      rw [hu, List.append_assoc, ← (Converted.mk.inj (Option.some.inj h)).2.2, ← hrest]
    · -- a number in digits that is in range is finite
      obtain ⟨⟨q, r⟩, -, heq⟩ := Option.map_eq_some_iff.mp h
      obtain ⟨hvalue, herange, -⟩ := Converted.mk.inj heq
      obtain ⟨p, hp⟩ := @toDouble_finite q _ (Prod.ext rfl herange)
      simp only [hp] at hvalue
      split_ifs at hvalue
      · exact absurd hvalue.symm (hv (-p))
      · exact absurd hvalue.symm (hv p)

private theorem strtod_of_word {l g w r : List UInt8} (hl : l.all isspace = true)
    (hg : g = [] ∨ g = ascii "+" ∨ g = ascii "-") (hw : IsNonfiniteWord w)
    (hr : r.all isspace = true) :
    ∃ v rest, strtod (l ++ g ++ w ++ r) = some ⟨v, false, rest⟩ ∧ rest.all isspace = true ∧
      ∀ q, v ≠ .fin q := by
  obtain ⟨negative, hsign⟩ := sign_nonfinite hl hg hw r
  rw [strtod, hsign]
  have hsigned (q : ℚ) : (if negative = true then ExtRat.posInf.neg else .posInf) ≠ .fin q := by
    split_ifs
    · rintro ⟨⟩
    · rintro ⟨⟩
  rw [IsNonfiniteWord, ← or_assoc] at hw
  rcases hw with hinf | ⟨n, t, hnan, ht, rfl⟩
  · obtain ⟨rest, hword, hrest⟩ := afterInf_append hr hinf
    refine ⟨_, rest, ?_, hrest, hsigned⟩
    simp only [hword]
  · obtain ⟨b, u, rfl, hb⟩ := exists_cons_of_sameText hnan
    have hother : tolower (chr 'i') ≠ tolower b := by
      rw [hb]
      decide
    have hlong : afterWord (ascii "infinity") (b :: u ++ t ++ r) = none := afterWord_eq_none hother
    have hshort : afterWord (ascii "inf") (b :: u ++ t ++ r) = none := afterWord_eq_none hother
    have hword : afterWord (ascii "nan") (b :: u ++ t ++ r) = some (t ++ r) :=
      afterWord_eq_some_iff.mpr ⟨b :: u, hnan, List.append_assoc _ _ _⟩
    refine ⟨.nan, r, ?_, hr, fun q ↦ by rintro ⟨⟩⟩
    simp only [hlong, hshort, hword, afterNan_append ht hr]
    rfl

/-- **What is read without a report and is not finite was spelled as a word.** -/
theorem strtod_nonfinite_iff {s : List UInt8} :
    (∃ v rest, strtod s = some ⟨v, false, rest⟩ ∧ rest.all isspace = true ∧ ∀ q, v ≠ .fin q) ↔
      ∃ t r, SpellsNonfinite t ∧ r.all isspace = true ∧ s = t ++ r := by
  constructor
  · rintro ⟨v, rest, h, hrest, hv⟩
    obtain ⟨w, hw, hu⟩ := exists_word_of_strtod h hv
    obtain ⟨g, hg, hs⟩ := exists_sign (s.dropWhile isspace)
    have hg : g = [] ∨ g = ascii "+" ∨ g = ascii "-" :=
      hg.imp And.left (Or.imp And.left And.left)
    refine ⟨s.takeWhile isspace ++ g ++ w, rest, ⟨_, g, w, List.all_takeWhile, hg, hw, rfl⟩, hrest,
      ?_⟩
    calc s = s.takeWhile isspace ++ s.dropWhile isspace :=
          List.takeWhile_append_dropWhile.symm
      _ = s.takeWhile isspace ++ (g ++ (w ++ rest)) := by rw [hs, hu]
      _ = s.takeWhile isspace ++ g ++ w ++ rest := by rw [List.append_assoc, List.append_assoc]
  · rintro ⟨t, r, ⟨l, g, w, hl, hg, hw, rfl⟩, hr, rfl⟩
    exact strtod_of_word hl hg hw hr

end CString
