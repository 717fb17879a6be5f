import Mathlib.Data.Rat.Floor
import SparseCamera.Lib.ExtRat

/-!
# Values that survive a conversion

Machine arithmetic is exact as long as the result can be represented. Here are the exact conditions
for a cast that changes the sign, for a sum, and for a sum with everything below a bound; and what a
conversion to an integer yields if it yields a positive one.
-/

/-- A cast keeps a number whose sign bit is clear, and no other. -/
theorem toInt_toInt32_eq_iff (n : UInt32) : n.toInt32.toInt = n.toNat ↔ n.toNat < 2 ^ 31 := by
  have hlt := n.toNat_lt
  have hcast : n.toInt32.toInt = (n.toNat : ℤ).bmod (2 ^ 32) := by
    rw [← Int32.toInt_toBitVec, UInt32.toBitVec_toInt32, BitVec.toInt_eq_toNat_bmod]
    rfl
  rw [hcast]
  constructor
  · intro h
    have hhalf := @Int.bmod_lt (n.toNat : ℤ) (2 ^ 32) (by decide)
    omega
  · intro h
    exact Int.bmod_eq_of_le (by omega) (by omega)

theorem toInt_toUInt64_toInt64 (n : UInt32) : n.toUInt64.toInt64.toInt = n.toNat := by
  have hlt := n.toNat_lt
  rw [← Int64.toInt_toBitVec, UInt64.toBitVec_toInt64, BitVec.toInt_eq_toNat_bmod,
    UInt64.toNat_toBitVec, UInt32.toNat_toUInt64]
  exact Int.bmod_eq_of_le (by omega) (by omega)

theorem toInt_add_eq_iff (a b : Int64) : (a + b).toInt = a.toInt + b.toInt ↔
    -2 ^ 63 ≤ a.toInt + b.toInt ∧ a.toInt + b.toInt < 2 ^ 63 := by
  constructor
  · intro h
    exact h ▸ ⟨(a + b).le_toInt, (a + b).toInt_lt⟩
  · rintro ⟨hle, hlt⟩
    rw [Int64.toInt_add]
    exact Int.bmod_eq_of_le (by omega) (by omega)

/-- **A positive number can be added to everything below a bound** if there is room above it. -/
theorem forall_add_exact_iff {p : Int64} (hp : 0 < p) {bound : ℤ} (hmin : -2 ^ 63 < bound)
    (hmax : bound ≤ 2 ^ 63) :
    (∀ a : Int64, a.toInt < bound → (a + p).toInt = a.toInt + p.toInt) ↔
      p.toInt ≤ 2 ^ 63 - bound := by
  have hp' : 0 < p.toInt := Int64.lt_iff_toInt_lt.mp hp
  simp only [toInt_add_eq_iff]
  constructor
  · intro h
    -- the largest number below the bound
    have hlast : (Int64.ofInt (bound - 1)).toInt = bound - 1 :=
      Int64.toInt_ofInt_of_le (by omega) (by omega)
    obtain ⟨-, hlt⟩ := h (Int64.ofInt (bound - 1)) (by omega)
    omega
  · intro h a ha
    have hle := a.le_toInt
    exact ⟨by omega, by omega⟩

namespace ExtRat

/-- **A conversion that yields a positive integer** has rounded down a number. -/
theorem toInt64_of_pos {x : ExtRat} (h : 0 < x.toInt64) :
    ∃ q : ℚ, x = fin q ∧ x.toInt64.toInt = ⌊q⌋ := by
  have hmin : ¬0 < Int64.minValue := by decide
  cases x with
  | nan => exact absurd h hmin
  | negInf => exact absurd h hmin
  | posInf => exact absurd h hmin
  | fin q =>
    refine ⟨q, rfl, ?_⟩
    simp only [toInt64] at h ⊢
    split_ifs at h ⊢ with hfits
    · have hint := Int64.toInt_ofInt_of_le hfits.1 hfits.2
      have hpos : 0 < q.num.tdiv q.den := by
        rw [Int64.lt_iff_toInt_lt, hint] at h
        exact h
      have hnum : 0 ≤ q.num := by
        by_contra hneg
        have hneg' : 0 ≤ (-q.num).tdiv q.den := Int.tdiv_nonneg (by omega) (Int.natCast_nonneg _)
        rw [Int.neg_tdiv] at hneg'
        omega
      rw [hint, Rat.floor_def', Int.tdiv_eq_ediv_of_nonneg hnum]
    · exact absurd h hmin

end ExtRat
