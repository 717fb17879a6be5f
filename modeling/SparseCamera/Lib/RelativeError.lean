import SparseCamera.Lib.Rounding

/-!
# Relative errors

Rounding to `p` significant bits moves a number by at most half a unit in the last place, which is
at most the fraction `1 / 2 ^ p` of it. Errors of this kind add up along a computation, and they say
when a comparison comes out the same with and without rounding: a quotient of two integers keeps
its order to a third one as long as everything has `p` bits. Whatever the error, rounding never
turns an order around.
-/

namespace Binary32

/-- `a` is `b` up to a fraction `ε` of it. -/
def CloseTo (ε a b : ℚ) : Prop := |a - b| ≤ ε * b

section CloseTo

variable {ε δ a b c : ℚ}

theorem CloseTo.trans (h : CloseTo ε a b) (h' : CloseTo δ b c) (hε : 0 ≤ ε) :
    CloseTo (ε + δ + ε * δ) a c := by
  have hb : b ≤ c + δ * c := by
    have hle := (abs_le.mp h').2
    linarith
  calc |a - c| ≤ |a - b| + |b - c| := abs_sub_le a b c
    _ ≤ ε * b + δ * c := add_le_add h h'
    _ ≤ ε * (c + δ * c) + δ * c := by
      gcongr
    _ = (ε + δ + ε * δ) * c := by ring

theorem CloseTo.mono (h : CloseTo ε a b) (hle : ε ≤ δ) (hb : 0 ≤ b) : CloseTo δ a b :=
  le_trans h (mul_le_mul_of_nonneg_right hle hb)

theorem CloseTo.div (h : CloseTo ε a b) (hc : 0 < c) : CloseTo ε (a / c) (b / c) := by
  rw [CloseTo, ← sub_div, abs_div, abs_of_pos hc, mul_div_assoc']
  exact div_le_div_of_nonneg_right h hc.le

end CloseTo

/-! ## Rounding -/

section Rounding

variable {p : ℕ} {q : ℚ}

private theorem abs_roundEven_sub_le (hq : 0 ≤ q) : |(roundEven q : ℚ) - q| ≤ 1 / 2 := by
  have hden : 0 < q.den := q.den_pos
  have hden' : (0 : ℚ) < q.den := by exact_mod_cast hden
  have hdiv := Nat.div_add_mod q.num.toNat q.den
  have hmod := Nat.mod_lt q.num.toNat hden
  have hnum : (q.num.toNat : ℚ) = q * q.den := (div_eq_iff hden'.ne').mp (num_toNat_div_den hq)
  rw [Nat.mul_comm] at hdiv
  -- down, or up
  have hcases : roundEven q = q.num.toNat / q.den ∧ 2 * (q.num.toNat % q.den) ≤ q.den ∨
      roundEven q = q.num.toNat / q.den + 1 ∧ q.den ≤ 2 * (q.num.toNat % q.den) := by
    rw [roundEven]
    split_ifs <;> omega
  -- with the denominators cleared
  have hclear : |(roundEven q : ℚ) - q| * q.den = |(roundEven q : ℚ) * q.den - q.num.toNat| := by
    rw [hnum, ← sub_mul, abs_mul, abs_of_pos hden']
  rw [← mul_le_mul_iff_left₀ hden', hclear, abs_le]
  have hlow : 2 * q.num.toNat ≤ 2 * (roundEven q * q.den) + q.den := by
    rcases hcases with ⟨hround, hrest⟩ | ⟨hround, hrest⟩
    · rw [hround]
      omega
    · rw [hround, Nat.add_mul, Nat.one_mul]
      omega
  have hhigh : 2 * (roundEven q * q.den) ≤ 2 * q.num.toNat + q.den := by
    rcases hcases with ⟨hround, hrest⟩ | ⟨hround, hrest⟩
    · rw [hround]
      omega
    · rw [hround, Nat.add_mul, Nat.one_mul]
      omega
  have hlow' : (2 * q.num.toNat : ℚ) ≤ 2 * (roundEven q * q.den) + q.den := by exact_mod_cast hlow
  have hhigh' : (2 * (roundEven q * q.den) : ℚ) ≤ 2 * q.num.toNat + q.den := by
    exact_mod_cast hhigh
  constructor
  · linarith
  · linarith

/-- **The error of one rounding.** -/
theorem closeTo_roundBits (hq : 0 < q) (hp : 0 < p) : CloseTo (1 / 2 ^ p) (roundBits p q) q := by
  have hpos : (0 : ℚ) < 2 ^ (ilog2 q - (p - 1) : ℤ) := by positivity
  have hsig := (significand_bounds hq hp).1
  have hhalf := abs_roundEven_sub_le (div_nonneg hq.le hpos.le)
  set e : ℤ := ilog2 q - (p - 1) with he
  have hround : roundBits p q - q = (roundEven (q / 2 ^ e) - q / 2 ^ e) * 2 ^ e := by
    rw [roundBits, ← he, sub_mul, div_mul_cancel₀ q hpos.ne']
  have htwo : (2 : ℚ) ^ p = 2 * 2 ^ (p - 1) := by
    rw [← pow_succ', Nat.sub_add_cancel hp]
  rw [le_div_iff₀ hpos] at hsig
  rw [CloseTo, hround, abs_mul, abs_of_pos hpos, one_div, ← div_eq_inv_mul,
    le_div_iff₀ (by positivity)]
  calc |(roundEven (q / 2 ^ e) : ℚ) - q / 2 ^ e| * 2 ^ e * 2 ^ p
      ≤ 1 / 2 * 2 ^ e * 2 ^ p := by gcongr
    _ = 2 ^ (p - 1) * 2 ^ e := by
      rw [htwo]
      ring
    _ ≤ q := hsig

/-- **A comparison without loss**: a rounded quotient of integers is compared with an integer as if
it had not been rounded. -/
theorem roundBits_div_le_iff {s n t : ℕ} (hs : 0 < s) (hn : 0 < n) (hsmall : s < 2 ^ p)
    (hbound : t * n < 2 ^ p) : roundBits p (s / n) ≤ t ↔ s ≤ t * n := by
  have hp : 0 < p := by
    refine Nat.pos_of_ne_zero fun hzero ↦ ?_
    rw [hzero] at hsmall
    omega
  have hsq : (0 : ℚ) < s := by exact_mod_cast hs
  have hnq : (0 : ℚ) < n := by exact_mod_cast hn
  have hpow : (0 : ℚ) < 2 ^ p := by positivity
  obtain ⟨hlow, hhigh⟩ := abs_le.mp (closeTo_roundBits (div_pos hsq hnq) hp)
  have hunit : (1 / 2 ^ p : ℚ) * (s / n) = s / 2 ^ p / n := by ring
  rw [hunit] at hlow hhigh
  have hquot : (s / n : ℚ) * n = s := div_mul_cancel₀ _ hnq.ne'
  have herr : (s / 2 ^ p / n : ℚ) * n = s / 2 ^ p := div_mul_cancel₀ _ hnq.ne'
  rw [← mul_le_mul_iff_left₀ hnq]
  constructor
  · intro hle
    have hcast : (s : ℚ) < t * n + 1 := by
      have hlt : (s / 2 ^ p : ℚ) < 1 := by
        rw [div_lt_one hpow]
        exact_mod_cast hsmall
      nlinarith
    exact Nat.lt_succ_iff.mp (by exact_mod_cast hcast)
  · intro hle
    rcases hle.eq_or_lt with heq | hlt
    · -- the quotient is the integer
      have ht : 0 < t := Nat.pos_of_ne_zero fun hzero ↦ by
        rw [hzero, Nat.zero_mul] at heq
        omega
      have hval : (s / n : ℚ) = t := by
        rw [div_eq_iff hnq.ne', heq]
        push_cast
        rfl
      rw [hval, roundBits_natCast ht ((Nat.le_mul_of_pos_right t hn).trans_lt hbound)]
    · have hcast : (s : ℚ) + 1 ≤ t * n := by exact_mod_cast hlt
      have hsmall' : (s / 2 ^ p : ℚ) ≤ 1 := by
        rw [div_le_one hpow]
        exact_mod_cast hsmall.le
      nlinarith

end Rounding

/-! ## Order

Rounding to the nearest integer is monotone, and so is the choice of the binade. Across binades the
power of two between them separates the results. -/

section Order

variable {p : ℕ} {q r : ℚ}

theorem roundEven_mono (hq : 0 ≤ q) (h : q ≤ r) : roundEven q ≤ roundEven r := by
  by_contra hlt
  -- both are a half away from the same midpoint
  have hstep : (roundEven r : ℚ) + 1 ≤ roundEven q := by exact_mod_cast not_le.mp hlt
  have hhigh := (abs_le.mp (abs_roundEven_sub_le hq)).2
  have hlow := (abs_le.mp (abs_roundEven_sub_le (hq.trans h))).1
  have heq : q = r := by linarith
  exact hlt (heq ▸ le_rfl)

theorem ilog2_mono (hq : 0 < q) (h : q ≤ r) : ilog2 q ≤ ilog2 r := by
  have hlt : (2 : ℚ) ^ ilog2 q < 2 ^ (ilog2 r + 1) :=
    ((ilog2_spec hq).1.trans h).trans_lt (ilog2_spec (hq.trans_le h)).2
  exact Int.lt_add_one_iff.mp ((zpow_lt_zpow_iff_right₀ (by norm_num)).mp hlt)

/-- **Rounding is monotone.** -/
theorem roundBits_mono (hq : 0 < q) (hp : 0 < p) (h : q ≤ r) : roundBits p q ≤ roundBits p r := by
  have hr : 0 < r := hq.trans_le h
  rcases (ilog2_mono hq h).eq_or_lt with heq | hlt
  · rw [roundBits, roundBits, heq]
    gcongr
    exact roundEven_mono (by positivity) (by gcongr)
  · -- between them lies the first number of a binade
    have hnext := (lt_roundBits_of_lt hr hp (sub_lt_sub_right hlt (p - 1 : ℤ))
      (Nat.sub_lt (Nat.two_pow_pos p) one_pos)).1
    rw [show 2 ^ p - 1 + 1 = 2 ^ p from Nat.sub_add_cancel (Nat.two_pow_pos p)] at hnext
    refine le_trans ?_ hnext
    rw [roundBits]
    gcongr
    exact (roundEven_significand hq hp).2

end Order

end Binary32
