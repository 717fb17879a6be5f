import SparseCamera.Ini.Typed
import SparseCamera.Lib.Decimal

/-!
# Unsigned values

`ini_get_u32` should take the decimals below 2^32 and nothing else. It leaves the reading to
`strtoul`, which takes a minus sign and negates in 64 bits, and checks the outcome: nothing may
follow the number, it must not have been out of range, and it must fit 32 bits. A number that comes
out small because it was negated passes these checks (`iniGetU32_exact_iff`).

## The construction

There are three descriptions of the values that are accepted: by what the value spells, `SpellsU32`,
by what `strtoul` makes of it, and by what the checks let pass, `FitsU32`. `strtoul_eq_some_iff`
leads from the first to the second. The checks are arithmetic on the number and its sign, and the
difference between them and the first description is exactly `WrapsU32`.
-/

namespace SparseCamera

open CString

/-- A typed lookup as its caller sees it: what it returns, and what `out` holds then. -/
def lookedUp {α : Type} (result : Except ConfErr α) (out : α) : ℤ × α :=
  match result with
  | .ok a => (0, a)
  | .error _ => (-1, out)

/-- An unsigned 32-bit decimal: digits with a plus sign or none, or a zero with a minus sign. -/
def SpellsU32 (s : Bytes) (n : ℕ) : Prop :=
  n < 2 ^ 32 ∧ ∃ ds, ds ≠ [] ∧ ds.all isdigit = true ∧ decimalNumber ds = n ∧
    (s = ds ∨ s = ascii "+" ++ ds ∨ s = ascii "-" ++ ds ∧ n = 0)

/-- The lookup of the value `s` succeeds with its number if it spells one, and fails without writing
if it does not. -/
def ExactU32 (s : Bytes) (out : UInt32) (outcome : ℤ × UInt32) : Prop :=
  (∀ n, SpellsU32 s n → outcome = (0, UInt32.ofNat n)) ∧
    ((¬∃ n, SpellsU32 s n) → outcome = (-1, out))

/-- A minus sign and a number that comes out below 2^32 when it is negated in 64 bits. -/
def WrapsU32 (s : Bytes) : Prop :=
  ∃ ds, ds.all isdigit = true ∧ s = ascii "-" ++ ds ∧
    2 ^ 64 - 2 ^ 32 < decimalNumber ds ∧ decimalNumber ds < 2 ^ 64

/-! ## Values without blanks at their ends

`ini_load` has trimmed every value. So no blanks precede the number, and nothing that could be
skipped follows it. -/

section Value

variable {s : Bytes} {negative : Bool} {n : ℕ}

private theorem spellsInt_iff (hs : s.Stripped isspace) : SpellsInt s negative n ↔
    ∃ ds, ds ≠ [] ∧ ds.all isdigit = true ∧ decimalNumber ds = n ∧
      ((s = ds ∧ negative = false) ∨ (s = ascii "+" ++ ds ∧ negative = false) ∨
        (s = ascii "-" ++ ds ∧ negative = true)) := by
  constructor
  · rintro ⟨l, g, ds, hl, hg, hne, hdigits, hn, rfl⟩
    have hnil : l = [] := by
      cases l with
      | nil => rfl
      | cons b l =>
        -- the value does not begin with a blank
        have hhead : isspace b = false := hs.head (List.cons_ne_nil _ _)
        rw [List.all_cons, hhead] at hl
        cases hl
    refine ⟨ds, hne, hdigits, hn, ?_⟩
    rw [hnil, List.nil_append]
    rcases hg with ⟨rfl, hneg⟩ | ⟨rfl, hneg⟩ | ⟨rfl, hneg⟩
    · exact Or.inl ⟨rfl, hneg⟩
    · exact Or.inr (Or.inl ⟨rfl, hneg⟩)
    · exact Or.inr (Or.inr ⟨rfl, hneg⟩)
  · rintro ⟨ds, hne, hdigits, hn, ⟨rfl, hneg⟩ | ⟨rfl, hneg⟩ | ⟨rfl, hneg⟩⟩
    · exact ⟨[], [], s, rfl, Or.inl ⟨rfl, hneg⟩, hne, hdigits, hn, rfl⟩
    · exact ⟨[], _, ds, rfl, Or.inr (Or.inl ⟨rfl, hneg⟩), hne, hdigits, hn, rfl⟩
    · exact ⟨[], _, ds, rfl, Or.inr (Or.inr ⟨rfl, hneg⟩), hne, hdigits, hn, rfl⟩

private theorem spellsU32_iff (hs : s.Stripped isspace) :
    SpellsU32 s n ↔
      n < 2 ^ 32 ∧ ∃ negative, SpellsInt s negative n ∧ (negative = true → n = 0) := by
  rw [SpellsU32]
  simp only [spellsInt_iff hs]
  constructor
  · rintro ⟨hlt, ds, hne, hdigits, hn, h | h | ⟨h, hzero⟩⟩
    · exact ⟨hlt, false, ⟨ds, hne, hdigits, hn, Or.inl ⟨h, rfl⟩⟩, fun h ↦ by cases h⟩
    · exact ⟨hlt, false, ⟨ds, hne, hdigits, hn, Or.inr (Or.inl ⟨h, rfl⟩)⟩, fun h ↦ by cases h⟩
    · exact ⟨hlt, true, ⟨ds, hne, hdigits, hn, Or.inr (Or.inr ⟨h, rfl⟩)⟩, fun _ ↦ hzero⟩
  · rintro ⟨hlt, negative, ⟨ds, hne, hdigits, hn, ⟨h, rfl⟩ | ⟨h, rfl⟩ | ⟨h, rfl⟩⟩, hzero⟩
    · exact ⟨hlt, ds, hne, hdigits, hn, Or.inl h⟩
    · exact ⟨hlt, ds, hne, hdigits, hn, Or.inr (Or.inl h)⟩
    · exact ⟨hlt, ds, hne, hdigits, hn, Or.inr (Or.inr ⟨h, hzero rfl⟩)⟩

private theorem wrapsU32_iff (hs : s.Stripped isspace) :
    WrapsU32 s ↔ ∃ n, SpellsInt s true n ∧ 2 ^ 64 - 2 ^ 32 < n ∧ n < 2 ^ 64 := by
  simp only [spellsInt_iff hs]
  constructor
  · rintro ⟨ds, hdigits, h, hlt, hlt'⟩
    have hne : ds ≠ [] := by
      rintro rfl
      exact absurd hlt (by decide)
    exact ⟨_, ⟨ds, hne, hdigits, rfl, Or.inr (Or.inr ⟨h, trivial⟩)⟩, hlt, hlt'⟩
  · rintro ⟨n, ⟨ds, hne, hdigits, rfl, ⟨h, hneg⟩ | ⟨h, hneg⟩ | ⟨h, -⟩⟩, hlt, hlt'⟩
    · cases hneg
    · cases hneg
    · exact ⟨ds, hdigits, h, hlt, hlt'⟩

end Value

/-! ## The checks -/

/-- What passes the range checks. -/
def FitsU32 (negative : Bool) (n : ℕ) : Prop :=
  if negative then n = 0 ∨ 2 ^ 64 - 2 ^ 32 < n ∧ n < 2 ^ 64 else n < 2 ^ 32

private theorem fitsU32_iff {negative : Bool} {n : ℕ} :
    FitsU32 negative n ↔
      ¬((unsigned64 negative n).2 = true ∨ 0xffffffff < (unsigned64 negative n).1) := by
  have hmax : (0xffffffff : UInt64).toNat = 2 ^ 32 - 1 := rfl
  rw [FitsU32, unsigned64]
  split_ifs with hneg hrange hrange
  · exact iff_of_false (by omega) (by simp)
  · rw [UInt64.lt_iff_toNat_lt, toNat_neg_ofNat (not_le.mp hrange), hmax]
    simp only [false_or]
    omega
  · exact iff_of_false (by omega) (by simp)
  · rw [UInt64.lt_iff_toNat_lt, UInt64.toNat_ofNat_of_lt' (not_le.mp hrange), hmax]
    simp only [false_or]
    omega

private theorem eq_nil_of_trim {t rest : Bytes} (hs : (t ++ rest).Stripped isspace)
    (h : trim rest = []) :
    rest = [] := by
  by_contra hne
  have hlast := hs.last (by simp [hne])
  rw [List.getLast_append_of_ne_nil _ hne,
    List.strip_eq_nil_iff.mp h _ (List.getLast_mem hne)] at hlast
  cases hlast

/-- The lookup accepts the integers that pass the range checks. -/
theorem iniGetU32_eq_ok_iff {ini : Ini} {name key raw : Bytes} {dflt v : UInt32}
    (hget : iniGet ini name key = some raw) (hraw : raw.Stripped isspace) :
    iniGetU32 ini name key dflt = .ok v ↔ ∃ negative n, SpellsInt raw negative n ∧
      FitsU32 negative n ∧ (unsigned64 negative n).1.toUInt32 = v := by
  have hspells {negative : Bool} {n : ℕ} (h : SpellsInt raw negative n) :
      strtoul raw = some ⟨(unsigned64 negative n).1, (unsigned64 negative n).2, []⟩ :=
    strtoul_eq_some_iff.mpr ⟨raw, negative, n, h, (List.append_nil raw).symm,
      fun b hb ↦ (Option.not_mem_none b hb).elim, rfl⟩
  rw [iniGetU32, iniGetWith_eq_ok, hget]
  simp only [reduceCtorEq, false_and, false_or, Option.some.injEq, exists_eq_left']
  constructor
  · intro h
    cases hconv : strtoul raw with
    | none =>
      rw [hconv] at h
      cases h
    | some w =>
      rw [hconv] at h
      simp only at h
      split_ifs at h with hbad
      obtain ⟨hrest, hfits⟩ := not_or.mp hbad
      obtain ⟨t, negative, n, ht, hsplit, -, hw⟩ := strtoul_eq_some_iff.mp hconv
      rw [hsplit] at hraw
      rw [eq_nil_of_trim hraw (not_not.mp hrest), List.append_nil] at hsplit
      refine ⟨negative, n, hsplit ▸ ht, fitsU32_iff.mpr ?_, ?_⟩
      · rw [hw]
        exact hfits
      · rw [hw]
        exact Except.ok.inj h
  · rintro ⟨negative, n, h, hfits, rfl⟩
    rw [hspells h]
    simp only
    rw [if_neg (not_or.mpr ⟨fun hne ↦ hne rfl, fitsU32_iff.mp hfits⟩)]

/-! ## What is accepted -/

private theorem stripped_of_iniGet {fopen : Bytes → Except Bytes Bytes} {granted : Bool}
    {path : Option Bytes} {ini : Ini} (hload : iniLoad fopen granted path = .ok ini)
    {name key raw : Bytes} (hget : iniGet ini name key = some raw) : raw.Stripped isspace := by
  obtain ⟨-, _, _, -, -, hwell, -⟩ := iniLoad_ok_iff.mp hload
  obtain ⟨sec, hsec, -, hpair⟩ := (iniGet_eq_some_iff hwell).mp hget
  exact (((hwell.sections sec hsec).pairs _ hpair).value).stripped

/-- An integer passes the range checks if it is a 32-bit one, or if it wraps around. -/
theorem fitsU32_cases {negative : Bool} {n : ℕ} :
    FitsU32 negative n ↔ (n < 2 ^ 32 ∧ (negative = true → n = 0)) ∨
      (negative = true ∧ 2 ^ 64 - 2 ^ 32 < n ∧ n < 2 ^ 64) := by
  rw [FitsU32]
  split_ifs with hneg
  · simp only [hneg, true_implies, true_and]
    omega
  · simp [hneg]

/-- **When `ini_get_u32` is exact.** For a value of a loaded store it takes the unsigned 32-bit
decimals and no others, unless the value is a negative number that wraps around to a small one. -/
theorem iniGetU32_exact_iff {fopen : Bytes → Except Bytes Bytes} {granted : Bool}
    {path : Option Bytes} {ini : Ini} (hload : iniLoad fopen granted path = .ok ini)
    {name key raw : Bytes} (hget : iniGet ini name key = some raw) (dflt out : UInt32) :
    ExactU32 raw out (lookedUp (iniGetU32 ini name key dflt) out) ↔ ¬WrapsU32 raw := by
  have hraw := stripped_of_iniGet hload hget
  have hok (v : UInt32) := @iniGetU32_eq_ok_iff ini name key raw dflt v hget hraw
  rw [wrapsU32_iff hraw, ExactU32]
  simp only [spellsU32_iff hraw]
  cases hres : iniGetU32 ini name key dflt with
  | ok v =>
    obtain ⟨negative, n, hspells, hfits, rfl⟩ := (hok v).mp hres
    rcases fitsU32_cases.mp hfits with ⟨hlt, hzero⟩ | ⟨rfl, hwraps⟩
    · refine iff_of_true ⟨?_, ?_⟩ ?_
      · rintro m ⟨-, negative', hspells', -⟩
        rw [lookedUp, unsigned64_toUInt32 hlt hzero, (hspells.unique hspells').2]
      · intro hnone
        exact absurd ⟨n, hlt, negative, hspells, hzero⟩ hnone
      · rintro ⟨m, hspells', hwraps⟩
        obtain ⟨rfl, rfl⟩ := hspells.unique hspells'
        have hn := hzero rfl
        omega
    · -- it is accepted, though it is not an unsigned decimal
      refine iff_of_false ?_ (not_not.mpr ⟨n, hspells, hwraps⟩)
      rintro ⟨-, hreject⟩
      have hnone : ¬∃ m, m < 2 ^ 32 ∧ ∃ negative, SpellsInt raw negative m ∧
          (negative = true → m = 0) := by
        rintro ⟨m, -, negative', hspells', hzero⟩
        obtain ⟨rfl, rfl⟩ := hspells.unique hspells'
        have hn := hzero rfl
        omega
      exact absurd (congrArg Prod.fst (hreject hnone)) (by simp [lookedUp])
  | error err =>
    have hnot (negative : Bool) (n : ℕ) (hspells : SpellsInt raw negative n) :
        ¬FitsU32 negative n := by
      intro hfits
      have hsome := (hok _).mpr ⟨negative, n, hspells, hfits, rfl⟩
      rw [hres] at hsome
      cases hsome
    refine iff_of_true ⟨?_, fun _ ↦ rfl⟩ ?_
    · rintro n ⟨hlt, negative, hspells, hzero⟩
      exact absurd (fitsU32_cases.mpr (Or.inl ⟨hlt, hzero⟩)) (hnot negative n hspells)
    · rintro ⟨n, hspells, hwraps⟩
      exact hnot true n hspells (fitsU32_cases.mpr (Or.inr ⟨rfl, hwraps⟩))

def oneValue (value : Bytes) : Ini := ⟨[⟨ascii "sink", [⟨ascii "frames", value⟩]⟩]⟩

theorem iniGetU32_exact_plus :
    ExactU32 (ascii "+7") 0
      (lookedUp (iniGetU32 (oneValue (ascii "+7")) (ascii "sink") (ascii "frames") 100) 0) := by
  refine (@iniGetU32_exact_iff (fun _ ↦ .ok (ascii "[sink]\nframes=+7")) true (some []) _
    (by decide +kernel) _ _ _ (by decide +kernel) 100 0).mpr ?_
  rintro ⟨ds, -, hs, -⟩
  cases hs

/-- **A negative number is accepted.** Negated in 64 bits it comes out as 1. -/
theorem iniGetU32_wraps :
    iniLoad (fun _ ↦ .ok (ascii "[sink]\nframes=-18446744073709551615")) true (some [])
        = .ok (oneValue (ascii "-18446744073709551615")) ∧
      iniGet (oneValue (ascii "-18446744073709551615")) (ascii "sink") (ascii "frames")
        = some (ascii "-18446744073709551615") ∧
      lookedUp (iniGetU32 (oneValue (ascii "-18446744073709551615")) (ascii "sink")
        (ascii "frames") 100) 0 = (0, 1) ∧
      ¬ExactU32 (ascii "-18446744073709551615") 0 (0, 1) := by
  refine ⟨by decide +kernel, by decide +kernel, by decide +kernel, ?_⟩
  rintro ⟨-, hreject⟩
  refine absurd (hreject ?_) (by decide)
  rintro ⟨n, -, ds, hne, hdigits, hn, h | h | ⟨h, hzero⟩⟩
  · rw [← h] at hdigits
    revert hdigits
    decide +kernel
  · cases h
  · obtain rfl : ascii "18446744073709551615" = ds := (List.cons.inj h).2
    rw [hzero] at hn
    revert hn
    decide +kernel

end SparseCamera
