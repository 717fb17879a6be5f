import Mathlib.Algebra.Order.Field.Rat

/-!
# Rationals with the special values of IEEE arithmetic

The values of a C `double` with the rounding left out: a finite value is a rational and the
arithmetic on finite values is exact; infinities and NaN follow the rules of IEEE 754. Zero is
unsigned, so a division by zero takes its sign from the dividend.

Every comparison with NaN is false. That is the property programs stumble over, since neither
`x ≤ 0` nor `0 < x` then holds.
-/

/-- A `double`, read as an exact rational or one of the special values. -/
inductive ExtRat where
  | nan
  | negInf
  | posInf
  | fin (q : ℚ)
deriving DecidableEq, Repr

namespace ExtRat

instance : Inhabited ExtRat := ⟨fin 0⟩

/-! ## Comparisons

Both comparisons are Boolean functions, as in a program. They are not an order: neither is the
negation of the other. -/

/-- The strict comparison; false as soon as one side is NaN. -/
def lt : ExtRat → ExtRat → Bool
  | fin p, fin q => p < q
  | negInf, fin _ | negInf, posInf | fin _, posInf => true
  | _, _ => false

/-- The comparison; false as soon as one side is NaN. -/
def le : ExtRat → ExtRat → Bool
  | nan, _ | _, nan => false
  | x, y => !lt y x

@[simp] theorem lt_fin (p q : ℚ) : lt (fin p) (fin q) = decide (p < q) := rfl

@[simp] theorem le_fin (p q : ℚ) : le (fin p) (fin q) = decide (p ≤ q) := by
  change (!decide (q < p)) = decide (p ≤ q)
  rw [← decide_not, decide_eq_decide]
  exact not_lt

/-! ## Arithmetic -/

/-- The infinity with the sign of a nonzero rational, NaN for zero. -/
def signedInf (q : ℚ) : ExtRat := if 0 < q then posInf else if q < 0 then negInf else nan

def neg : ExtRat → ExtRat
  | nan => nan
  | negInf => posInf
  | posInf => negInf
  | fin q => fin (-q)

def add : ExtRat → ExtRat → ExtRat
  | nan, _ | _, nan => nan
  | posInf, negInf | negInf, posInf => nan
  | posInf, _ | _, posInf => posInf
  | negInf, _ | _, negInf => negInf
  | fin p, fin q => fin (p + q)

def sub (x y : ExtRat) : ExtRat := add x (neg y)

def mul : ExtRat → ExtRat → ExtRat
  | nan, _ | _, nan => nan
  | posInf, posInf | negInf, negInf => posInf
  | posInf, negInf | negInf, posInf => negInf
  | posInf, fin q | fin q, posInf => signedInf q
  | negInf, fin q | fin q, negInf => signedInf (-q)
  | fin p, fin q => fin (p * q)

def div : ExtRat → ExtRat → ExtRat
  | nan, _ | _, nan => nan
  | posInf, posInf | posInf, negInf | negInf, posInf | negInf, negInf => nan
  | posInf, fin q => if q < 0 then negInf else posInf
  | negInf, fin q => if q < 0 then posInf else negInf
  | fin _, posInf | fin _, negInf => fin 0
  | fin p, fin q => if q = 0 then signedInf p else fin (p / q)

instance : Add ExtRat := ⟨add⟩

instance : Sub ExtRat := ⟨sub⟩

instance : Mul ExtRat := ⟨mul⟩

instance : Div ExtRat := ⟨div⟩

@[simp] theorem add_fin (p q : ℚ) : fin p + fin q = fin (p + q) := rfl

@[simp] theorem sub_fin (p q : ℚ) : fin p - fin q = fin (p - q) := by
  rw [sub_eq_add_neg]
  rfl

@[simp] theorem mul_fin (p q : ℚ) : fin p * fin q = fin (p * q) := rfl

theorem div_fin {p q : ℚ} (hq : q ≠ 0) : fin p / fin q = fin (p / q) := if_neg hq

/-! ## NaN -/

theorem mul_nan (x : ExtRat) : x * nan = nan := by
  cases x <;> rfl

theorem nan_lt (x : ExtRat) : lt nan x = false := by
  cases x <;> rfl

theorem lt_nan (x : ExtRat) : lt x nan = false := by
  cases x <;> rfl

/-! ## Conversion -/

/-- `(int64_t)x`: truncated towards zero. A value that does not fit is undefined in C; the
conversion instruction of the machine gives the smallest integer. -/
def toInt64 : ExtRat → Int64
  | fin q =>
    let z := q.num.tdiv q.den
    if -2 ^ 63 ≤ z ∧ z < 2 ^ 63 then Int64.ofInt z else Int64.minValue
  | _ => Int64.minValue

end ExtRat
