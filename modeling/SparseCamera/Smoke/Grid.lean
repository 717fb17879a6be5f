import SparseCamera.Lib.Decimal
import SparseCamera.Smoke.Config

/-!
# Geometry values

A geometry is written `ROWSxCOLS`, and `parse_grid` leaves the reading to `sscanf`. Its `%u` takes a
minus sign and keeps the last 32 bits of what `strtoul` makes of a number, so a number that is
negative or too long becomes a different one; it is rejected only if it becomes zero
(`parseGrid_exact_iff`).

## The construction

`%u` reads a number with a sign and of any length, and keeps 32 bits of it. So a text has two
readings: the geometry it spells, and what comes of it. Where the two numbers are below 2^32 and
without a minus sign they agree. Otherwise the parser is right only if it rejects the text, and it
does when one of the numbers becomes zero.
-/

namespace SparseCamera

open CString

/-- `parse_grid` as its caller sees it: what it returns, and what `rows` and `cols` hold then. -/
def parseGridInto (s : Bytes) (rows cols : UInt32) : ℤ × UInt32 × UInt32 :=
  match parseGrid s with
  | some (r, c) => (0, r, c)
  | none => (-1, rows, cols)

/-- Two numbers with the letter `x` between them; blanks and a plus sign may stand before each. -/
def SpellsGrid (s : Bytes) (r c : ℕ) : Prop :=
  (1 ≤ r ∧ r < 2 ^ 32) ∧ (1 ≤ c ∧ c < 2 ^ 32) ∧
    ∃ u v, s = u ++ ascii "x" ++ v ∧ SpellsInt u false r ∧ SpellsInt v false c

/-- A text is parsed as the geometry it spells, and fails without writing if it spells none. -/
def ExactGrid (s : Bytes) (rows cols : UInt32) (outcome : ℤ × UInt32 × UInt32) : Prop :=
  (∀ r c, SpellsGrid s r c → outcome = (0, UInt32.ofNat r, UInt32.ofNat c)) ∧
    ((¬∃ r c, SpellsGrid s r c) → outcome = (-1, rows, cols))

/-- The last 32 bits of the number, as far as it fits 64 bits, are not all zero. -/
def LowBits (n : ℕ) : Prop := 2 ^ 64 ≤ n ∨ n % 2 ^ 32 ≠ 0

/-- Two numbers with an `x` between them, one of them negative or too long, and neither becomes
zero. -/
def Garbled (s : Bytes) : Prop :=
  ∃ u v negative negative' r c, s = u ++ ascii "x" ++ v ∧ SpellsInt u negative r ∧
    SpellsInt v negative' c ∧ LowBits r ∧ LowBits c ∧
    (negative = true ∨ negative' = true ∨ 2 ^ 32 ≤ r ∨ 2 ^ 32 ≤ c)

/-! ## The numbers

A text is cut at its first `x`, and no number contains one, so there is only one way to cut it.
Likewise a text spells one number at most. -/

private theorem toUInt32_unsigned64 {negative : Bool} {n : ℕ} :
    (unsigned64 negative n).1.toUInt32 = 0 ↔ ¬LowBits n := by
  rw [← UInt32.toNat_inj, UInt64.toNat_toUInt32, LowBits, unsigned64]
  have hzero : (0 : UInt32).toNat = 0 := rfl
  split_ifs with hrange hneg
  · exact iff_of_false (by decide) (fun h ↦ h (Or.inl hrange))
  · rw [toNat_neg_ofNat (not_le.mp hrange), hzero]
    omega
  · rw [UInt64.toNat_ofNat_of_lt' (not_le.mp hrange), hzero]
    omega

/-- A text has one reading as two integers with an `x` between them. -/
theorem spellsInt_split_unique {u v u' v' : Bytes} {negative negative' : Bool} {n n' : ℕ}
    (hu : SpellsInt u negative n) (hu' : SpellsInt u' negative' n')
    (h : u ++ ascii "x" ++ v = u' ++ ascii "x" ++ v') : u = u' ∧ v = v' := by
  have hx {t : Bytes} {negative : Bool} {n : ℕ} (ht : SpellsInt t negative n) : chr 'x' ∉ t :=
    ht.notMem (by decide) (by decide) (by decide) (by decide)
  have hsplit : strchr (chr 'x') (u ++ ascii "x" ++ v) = some (u, v) :=
    strchr_eq_some.mpr ⟨hx hu, List.append_assoc _ _ _⟩
  have hsplit' : strchr (chr 'x') (u ++ ascii "x" ++ v) = some (u', v') :=
    strchr_eq_some.mpr ⟨hx hu', h.trans (List.append_assoc _ _ _)⟩
  rw [hsplit] at hsplit'
  exact Prod.mk.inj (Option.some.inj hsplit')

private theorem reading_unique {s u v u' v' : Bytes} {neg neg' sgn sgn' : Bool} {r c r' c' : ℕ}
    (hs : s = u ++ ascii "x" ++ v) (hu : SpellsInt u neg r) (hv : SpellsInt v neg' c)
    (hs' : s = u' ++ ascii "x" ++ v') (hu' : SpellsInt u' sgn r') (hv' : SpellsInt v' sgn' c') :
    neg = sgn ∧ neg' = sgn' ∧ r = r' ∧ c = c' := by
  obtain ⟨rfl, rfl⟩ := spellsInt_split_unique hu hu' (hs.symm.trans hs')
  obtain ⟨hneg, hr⟩ := hu.unique hu'
  obtain ⟨hneg', hc⟩ := hv.unique hv'
  exact ⟨hneg, hneg', hr, hc⟩

/-! ## The parser -/

/-- What `parse_grid` reads: two integers, as `sscanf` stores them. -/
theorem parseGrid_eq_some_iff {s : Bytes} {rows cols : UInt32} :
    parseGrid s = some (rows, cols) ↔ ∃ u v negative negative' r c, s = u ++ ascii "x" ++ v ∧
      SpellsInt u negative r ∧ SpellsInt v negative' c ∧ LowBits r ∧ LowBits c ∧
      (unsigned64 negative r).1.toUInt32 = rows ∧ (unsigned64 negative' c).1.toUInt32 = cols := by
  rw [parseGrid]
  constructor
  · intro h
    split at h
    · next r erange b rest hr =>
      split_ifs at h with hx
      split at h
      · next c erange' hc =>
        split_ifs at h with hzero
        obtain ⟨rfl, rfl⟩ := Prod.mk.inj (Option.some.inj h)
        obtain ⟨u, negative, n, hu, rfl, -, hn⟩ := strtoul_eq_some_iff.mp hr
        obtain ⟨v, negative', m, hv, rfl, -, hm⟩ := strtoul_eq_some_iff.mp hc
        obtain rfl : (unsigned64 negative n).1 = r := congrArg Prod.fst hn
        obtain rfl : (unsigned64 negative' m).1 = c := congrArg Prod.fst hm
        rw [toUInt32_unsigned64, toUInt32_unsigned64, not_or, not_not, not_not] at hzero
        refine ⟨u, v, negative, negative', n, m, ?_, hu, hv, hzero.1, hzero.2, rfl, rfl⟩
        rw [hx, List.append_nil, List.append_assoc]
        rfl
      · cases h
    · cases h
  · rintro ⟨u, v, negative, negative', r, c, rfl, hu, hv, hr, hc, rfl, rfl⟩
    have hfirst : strtoul (u ++ ascii "x" ++ v) = some ⟨(unsigned64 negative r).1,
        (unsigned64 negative r).2, chr 'x' :: v⟩ := by
      refine strtoul_eq_some_iff.mpr ⟨u, negative, r, hu, List.append_assoc _ _ _, ?_, rfl⟩
      rintro b ⟨⟩
      decide
    have hsecond : strtoul v = some ⟨(unsigned64 negative' c).1,
        (unsigned64 negative' c).2, []⟩ := by
      refine strtoul_eq_some_iff.mpr ⟨v, negative', c, hv, (List.append_nil v).symm, ?_, rfl⟩
      rintro b ⟨⟩
    rw [hfirst]
    simp only [↓reduceIte]
    rw [hsecond]
    simp only
    rw [if_neg]
    rw [toUInt32_unsigned64, toUInt32_unsigned64, not_or, not_not, not_not]
    exact ⟨hr, hc⟩

/-- A text that is parsed is parsed as what it spells, unless it is garbled. -/
theorem exactGrid_iff_of_some {s : Bytes} {r c : UInt32} (h : parseGrid s = some (r, c))
    (rows cols : UInt32) : ExactGrid s rows cols (0, r, c) ↔ ¬Garbled s := by
  obtain ⟨u, v, neg, neg', m, k, hs, hu, hv, hm, hk, hr, hc⟩ := parseGrid_eq_some_iff.mp h
  have hread {m' k' : ℕ} (h : SpellsGrid s m' k') :
      neg = false ∧ neg' = false ∧ m = m' ∧ k = k' ∧ m < 2 ^ 32 ∧ k < 2 ^ 32 := by
    obtain ⟨⟨-, hm'⟩, ⟨-, hk'⟩, u', v', hs', hu', hv'⟩ := h
    obtain ⟨hneg, hneg', rfl, rfl⟩ := reading_unique hs hu hv hs' hu' hv'
    exact ⟨hneg, hneg', rfl, rfl, hm', hk'⟩
  by_cases hbad : neg = true ∨ neg' = true ∨ 2 ^ 32 ≤ m ∨ 2 ^ 32 ≤ k
  · refine iff_of_false ?_ (not_not.mpr ⟨u, v, neg, neg', m, k, hs, hu, hv, hm, hk, hbad⟩)
    rintro ⟨-, hreject⟩
    have hnone : ¬∃ m k, SpellsGrid s m k := by
      rintro ⟨m', k', h⟩
      obtain ⟨rfl, rfl, -, -, hm', hk'⟩ := hread h
      simp only [Bool.false_eq_true, false_or] at hbad
      omega
    exact absurd (congrArg Prod.fst (hreject hnone)) (by simp)
  · simp only [not_or, not_le, Bool.not_eq_true] at hbad
    obtain ⟨rfl, rfl, hm', hk'⟩ := hbad
    have hspells : SpellsGrid s m k := by
      rw [LowBits] at hm hk
      exact ⟨⟨by omega, hm'⟩, ⟨by omega, hk'⟩, u, v, hs, hu, hv⟩
    refine iff_of_true ⟨?_, fun hnone ↦ absurd ⟨m, k, hspells⟩ hnone⟩ ?_
    · intro i j h
      obtain ⟨-, -, rfl, rfl, -, -⟩ := hread h
      rw [unsigned64_toUInt32 hm' (fun h ↦ by cases h)] at hr
      rw [unsigned64_toUInt32 hk' (fun h ↦ by cases h)] at hc
      rw [hr, hc]
    · rintro ⟨u', v', sgn, sgn', i, j, hs', hu', hv', -, -, hbad⟩
      obtain ⟨rfl, rfl, rfl, rfl⟩ := reading_unique hs hu hv hs' hu' hv'
      simp only [Bool.false_eq_true, false_or] at hbad
      omega

private theorem not_spells_of_none {s : Bytes} (h : parseGrid s = none) :
    (∀ r c, ¬SpellsGrid s r c) ∧ ¬Garbled s := by
  have hnone {u v : Bytes} {neg neg' : Bool} {r c : ℕ} (hs : s = u ++ ascii "x" ++ v)
      (hu : SpellsInt u neg r) (hv : SpellsInt v neg' c) (hr : LowBits r) : ¬LowBits c := by
    intro hc
    rw [parseGrid_eq_some_iff.mpr ⟨u, v, _, _, r, c, hs, hu, hv, hr, hc, rfl, rfl⟩] at h
    cases h
  refine ⟨?_, ?_⟩
  · rintro r c ⟨⟨hr, hr'⟩, ⟨hc, hc'⟩, u, v, hs, hu, hv⟩
    refine hnone hs hu hv (Or.inr ?_) (Or.inr ?_)
    · omega
    · omega
  · rintro ⟨u, v, neg, neg', r, c, hs, hu, hv, hr, hc, -⟩
    exact hnone hs hu hv hr hc

/-- **When `parse_grid` is exact.** It takes the geometries and no other texts, unless a number that
is negative or too long becomes another one. -/
theorem parseGrid_exact_iff (s : Bytes) (rows cols : UInt32) :
    ExactGrid s rows cols (parseGridInto s rows cols) ↔ ¬Garbled s := by
  rw [parseGridInto]
  split
  · next r c h => exact exactGrid_iff_of_some h rows cols
  · next h =>
    obtain ⟨hspells, hgarbled⟩ := not_spells_of_none h
    exact iff_of_true ⟨fun r c hrc ↦ absurd hrc (hspells r c), fun _ ↦ rfl⟩ hgarbled

/-- **A number that is too long becomes another one.** -/
theorem parseGrid_garbled :
    parseGridInto (ascii "4294967297x-4294967295") 0 0 = (0, 1, 1) ∧
      ¬ExactGrid (ascii "4294967297x-4294967295") 0 0 (0, 1, 1) := by
  refine ⟨by decide +kernel, ?_⟩
  rintro ⟨-, hreject⟩
  refine absurd (hreject ?_) (by decide)
  rintro ⟨r, c, ⟨-, hr⟩, -, u, v, hs, hu, -⟩
  have hlong : SpellsInt (ascii "4294967297") false 4294967297 :=
    ⟨[], [], ascii "4294967297", rfl, Or.inl ⟨rfl, rfl⟩, by decide, by decide +kernel,
      by decide +kernel, rfl⟩
  obtain ⟨rfl, -⟩ := spellsInt_split_unique (v := ascii "-4294967295") hlong hu (by
    rw [← hs]
    decide)
  obtain ⟨-, rfl⟩ := hlong.unique hu
  omega

end SparseCamera
