import Mathlib.Algebra.Order.Field.Power
import Mathlib.Algebra.Order.Field.Rat
import Mathlib.Data.Rat.Floor
import Mathlib.Tactic.FieldSimp
import Mathlib.Tactic.Linarith
import Mathlib.Tactic.Positivity

/-!
# IEEE binary32

A single-precision number is its 32-bit pattern, so that NaN payloads and signed zeros survive a
copy. A finite pattern denotes a rational, `toRat`; `ofRat` rounds a rational to the nearest
pattern, ties to the even significand.

## The packing

A magnitude is `m * 2 ^ e` with `m ≤ 2 ^ 24` and `-149 ≤ e`. Its pattern is
`(e + 149) * 2 ^ 23 + m` whether `m` is subnormal (`e = -149`, `m < 2 ^ 23`), normal
(`2 ^ 23 ≤ m < 2 ^ 24`, the hidden bit adding one to the exponent field), or `2 ^ 24`, where
rounding carried into the next binade. `toRat_pack` is the one lemma about it.
-/

/-- A C `float`, bit for bit. -/
structure Binary32 where
  /-- The 32-bit pattern. -/
  bits : UInt32
deriving DecidableEq, Repr

namespace Binary32

def bitsEquiv : UInt32 ≃ Binary32 := ⟨mk, bits, fun _ ↦ rfl, fun _ ↦ rfl⟩

/-! ## Fields and value -/

def negative (v : Binary32) : Bool := 2 ^ 31 ≤ v.bits.toNat

def exponent (v : Binary32) : ℕ := v.bits.toNat / 2 ^ 23 % 256

def fraction (v : Binary32) : ℕ := v.bits.toNat % 2 ^ 23

/-- Neither infinite nor NaN; C's `isfinite`. -/
def isFinite (v : Binary32) : Bool := v.exponent ≠ 255

def magnitude (v : Binary32) : ℚ :=
  if v.exponent = 0 then v.fraction * 2 ^ (-149 : ℤ)
  else ((2 ^ 23 + v.fraction : ℕ) : ℚ) * 2 ^ ((v.exponent : ℤ) - 150)

/-- The rational a finite pattern denotes. -/
def toRat (v : Binary32) : ℚ := if v.negative then -v.magnitude else v.magnitude

/-! ## Rounding -/

/-- The integer nearest to a nonnegative rational, ties to even. -/
def roundEven (q : ℚ) : ℕ :=
  let k := q.num.toNat / q.den
  let r := q.num.toNat % q.den
  if 2 * r < q.den then k else if q.den < 2 * r then k + 1 else k + k % 2

/-- The binary exponent of a positive rational: `2 ^ ilog2 q ≤ q < 2 ^ (ilog2 q + 1)`. -/
def ilog2 (q : ℚ) : ℤ :=
  let l : ℤ := (q.num.toNat.log2 : ℤ) - q.den.log2
  if q < 2 ^ l then l - 1 else l

/-- The exponent of the last kept significand bit. -/
def scale (q : ℚ) : ℤ := max (ilog2 q - 23) (-149)

/-- The pattern of `m * 2 ^ e`; out of range it is infinity. -/
def pack (m : ℕ) (e : ℤ) : ℕ := min ((e + 149).toNat * 2 ^ 23 + m) (255 * 2 ^ 23)

/-- Round to the nearest pattern. -/
def ofRat (q : ℚ) : Binary32 :=
  if q = 0 then ⟨0⟩
  else
    let magnitude := pack (roundEven (|q| / 2 ^ scale |q|)) (scale |q|)
    ⟨UInt32.ofNat (if q < 0 then 2 ^ 31 + magnitude else magnitude)⟩

/-- C's division of two finite floats. -/
def div (a b : Binary32) : Binary32 := ofRat (a.toRat / b.toRat)

/-- C's conversion of an unsigned integer. -/
def ofNat (n : ℕ) : Binary32 := ofRat n

/-! ## The packing lemma -/

private theorem toNat_ofNat_pack {m : ℕ} {e : ℤ} : (UInt32.ofNat (pack m e)).toNat = pack m e := by
  apply UInt32.toNat_ofNat_of_lt'
  rw [pack]
  have : UInt32.size = 2 ^ 32 := rfl
  omega

theorem toRat_pack {m : ℕ} {e : ℤ} (he : -149 ≤ e) (hhi : e ≤ 103) (hm : m ≤ 2 ^ 24)
    (hlo : e = -149 ∨ 2 ^ 23 ≤ m) :
    isFinite ⟨UInt32.ofNat (pack m e)⟩ = true ∧
      toRat ⟨UInt32.ofNat (pack m e)⟩ = m * 2 ^ e := by
  obtain ⟨k, hk⟩ : ∃ k : ℕ, e = (k : ℤ) - 149 := ⟨(e + 149).toNat, by omega⟩
  subst hk
  have hpack : pack m ((k : ℤ) - 149) = k * 2 ^ 23 + m := by
    rw [pack, show ((k : ℤ) - 149 + 149).toNat = k from by omega]
    omega
  have hbits : (UInt32.ofNat (pack m ((k : ℤ) - 149))).toNat = k * 2 ^ 23 + m := by
    rw [toNat_ofNat_pack, hpack]
  have hneg : negative ⟨UInt32.ofNat (pack m ((k : ℤ) - 149))⟩ = false := by
    rw [negative, hbits, decide_eq_false_iff_not]
    omega
  rw [toRat, hneg, isFinite, magnitude, exponent, fraction, hbits]
  rcases lt_or_ge m (2 ^ 23) with hsub | hnorm
  · -- subnormal: only the smallest scale lets the hidden bit be missing
    have hk0 : k = 0 := by omega
    have hexp : (k * 2 ^ 23 + m) / 2 ^ 23 % 256 = 0 := by omega
    have hfrac : (k * 2 ^ 23 + m) % 2 ^ 23 = m := by omega
    rw [hexp, hfrac, hk0]
    norm_num
  · rcases Nat.lt_or_ge m (2 ^ 24) with hlt | hge
    · have hexp : (k * 2 ^ 23 + m) / 2 ^ 23 % 256 = k + 1 := by omega
      have hfrac : 2 ^ 23 + (k * 2 ^ 23 + m) % 2 ^ 23 = m := by omega
      have hscale : ((k + 1 : ℕ) : ℤ) - 150 = (k : ℤ) - 149 := by push_cast; ring
      rw [hexp, if_neg (Nat.succ_ne_zero k), hfrac, hscale]
      exact ⟨by simp; omega, rfl⟩
    · -- the carry: the significand is a power of two one binade up
      have hm24 : m = 2 ^ 24 := by omega
      have hexp : (k * 2 ^ 23 + m) / 2 ^ 23 % 256 = k + 2 := by omega
      have hfrac : 2 ^ 23 + (k * 2 ^ 23 + m) % 2 ^ 23 = 2 ^ 23 := by omega
      have hscale : ((k + 2 : ℕ) : ℤ) - 150 = 1 + ((k : ℤ) - 149) := by push_cast; ring
      rw [hexp, if_neg (Nat.succ_ne_zero _), hfrac, hscale, zpow_add₀ two_ne_zero, hm24]
      refine ⟨by simp; omega, ?_⟩
      push_cast
      ring

/-! ## The rounded value

Rounding scales by a power of two, rounds to an integer and packs. The integer has at most 24 bits
or is 2^24, and this is the range in which `toRat_pack` applies. -/

theorem num_toNat_div_den {q : ℚ} (hq : 0 ≤ q) : ((q.num.toNat : ℕ) : ℚ) / q.den = q := by
  have hnum : ((q.num.toNat : ℕ) : ℤ) = q.num := Int.toNat_of_nonneg (Rat.num_nonneg.mpr hq)
  have hcast : ((q.num.toNat : ℕ) : ℚ) = (q.num : ℚ) := by exact_mod_cast congrArg (Int.cast) hnum
  rw [hcast, Rat.num_div_den]

theorem roundEven_le {q : ℚ} (hq : 0 ≤ q) {n : ℕ} (h : q ≤ n) : roundEven q ≤ n := by
  have hden : 0 < q.den := q.den_pos
  have hnum : q.num.toNat ≤ n * q.den := by
    rw [← num_toNat_div_den hq, div_le_iff₀ (by exact_mod_cast hden)] at h
    exact_mod_cast h
  have hdiv := Nat.div_add_mod q.num.toNat q.den
  have hmod := Nat.mod_lt q.num.toNat hden
  have hle : q.num.toNat / q.den ≤ n := by
    calc q.num.toNat / q.den ≤ n * q.den / q.den := Nat.div_le_div_right hnum
      _ = n := Nat.mul_div_cancel n hden
  rcases hle.lt_or_eq with hlt | heq
  · rw [roundEven]
    split_ifs <;> omega
  · have hr : q.num.toNat % q.den = 0 := by
      rw [heq, Nat.mul_comm q.den n] at hdiv
      omega
    rw [roundEven, hr, if_pos (by omega), heq]

theorem le_roundEven {q : ℚ} (hq : 0 ≤ q) {n : ℕ} (h : (n : ℚ) ≤ q) : n ≤ roundEven q := by
  have hden : 0 < q.den := q.den_pos
  have hnum : n * q.den ≤ q.num.toNat := by
    rw [← num_toNat_div_den hq, le_div_iff₀ (by exact_mod_cast hden)] at h
    exact_mod_cast h
  have hle : n ≤ q.num.toNat / q.den := (Nat.le_div_iff_mul_le hden).mpr hnum
  rw [roundEven]
  split_ifs <;> omega

theorem ilog2_spec {q : ℚ} (hq : 0 < q) : (2 : ℚ) ^ ilog2 q ≤ q ∧ q < 2 ^ (ilog2 q + 1) := by
  have hnum : q.num.toNat ≠ 0 := by
    have := Rat.num_pos.mpr hq
    omega
  have hden : q.den ≠ 0 := q.den_nz
  have hqeq := num_toNat_div_den hq.le
  have hdpos : (0 : ℚ) < q.den := by exact_mod_cast q.den_pos
  have hnlo : (2 : ℚ) ^ (q.num.toNat.log2 : ℤ) ≤ q.num.toNat := by
    exact_mod_cast Nat.log2_self_le hnum
  have hnhi : (q.num.toNat : ℚ) < 2 ^ ((q.num.toNat.log2 : ℤ) + 1) := by
    exact_mod_cast Nat.lt_log2_self
  have hdlo : (2 : ℚ) ^ (q.den.log2 : ℤ) ≤ q.den := by exact_mod_cast Nat.log2_self_le hden
  have hdhi : (q.den : ℚ) < 2 ^ ((q.den.log2 : ℤ) + 1) := by exact_mod_cast Nat.lt_log2_self
  set a : ℤ := (q.num.toNat.log2 : ℤ)
  set b : ℤ := (q.den.log2 : ℤ)
  have hupper : q < 2 ^ (a - b + 1) := by
    rw [← hqeq, div_lt_iff₀ hdpos]
    calc (q.num.toNat : ℚ) < 2 ^ (a + 1) := hnhi
      _ = 2 ^ (a - b + 1) * 2 ^ b := by rw [← zpow_add₀ two_ne_zero]; ring_nf
      _ ≤ 2 ^ (a - b + 1) * q.den := by gcongr
  have hlower : (2 : ℚ) ^ (a - b - 1) ≤ q := by
    rw [← hqeq, le_div_iff₀ hdpos]
    calc (2 : ℚ) ^ (a - b - 1) * q.den ≤ 2 ^ (a - b - 1) * 2 ^ (b + 1) := by gcongr
      _ = 2 ^ a := by rw [← zpow_add₀ two_ne_zero]; ring_nf
      _ ≤ q.num.toNat := hnlo
  rw [ilog2]
  split_ifs with h
  · exact ⟨hlower, by rwa [sub_add_cancel]⟩
  · exact ⟨not_lt.mp h, hupper⟩

/-- **The rounded value** of a positive rational below the overflow threshold. -/
theorem toRat_ofRat {q : ℚ} (hq : 0 < q) (hhi : q < 2 ^ (126 : ℤ)) :
    (ofRat q).isFinite = true ∧
      (ofRat q).toRat = roundEven (q / 2 ^ scale q) * 2 ^ scale q := by
  obtain ⟨hlo, hlt⟩ := ilog2_spec hq
  have hlog : ilog2 q < 126 := by
    by_contra hcon
    have : (2 : ℚ) ^ (126 : ℤ) ≤ 2 ^ ilog2 q :=
      zpow_le_zpow_right₀ (by norm_num) (not_lt.mp hcon)
    exact absurd (this.trans hlo) (not_le.mpr hhi)
  have hpos : (0 : ℚ) < 2 ^ scale q := by positivity
  have hscale : -149 ≤ scale q := le_max_right _ _
  have hnonneg : 0 ≤ q / 2 ^ scale q := (div_pos hq hpos).le
  have hm : roundEven (q / 2 ^ scale q) ≤ 2 ^ 24 := by
    apply roundEven_le hnonneg
    rw [div_le_iff₀ hpos]
    calc q ≤ 2 ^ (ilog2 q + 1) := hlt.le
      _ ≤ 2 ^ (24 + scale q) := zpow_le_zpow_right₀ (by norm_num) (by rw [scale]; omega)
      _ = ((2 ^ 24 : ℕ) : ℚ) * 2 ^ scale q := by rw [zpow_add₀ two_ne_zero]; norm_num
  have hnormal : scale q = -149 ∨ 2 ^ 23 ≤ roundEven (q / 2 ^ scale q) := by
    rcases le_or_gt (ilog2 q - 23) (-149) with h | h
    · exact Or.inl (max_eq_right h)
    · right
      have hs : scale q = ilog2 q - 23 := max_eq_left h.le
      apply le_roundEven hnonneg
      rw [le_div_iff₀ hpos, hs]
      calc ((2 ^ 23 : ℕ) : ℚ) * 2 ^ (ilog2 q - 23) = 2 ^ ilog2 q := by
            rw [zpow_sub₀ two_ne_zero]
            norm_num
            ring
        _ ≤ q := hlo
  have h := toRat_pack hscale (by rw [scale]; omega) hm hnormal
  have hofRat : ofRat q = ⟨UInt32.ofNat (pack (roundEven (q / 2 ^ scale q)) (scale q))⟩ := by
    simp only [ofRat, if_neg hq.ne', abs_of_pos hq, if_neg hq.not_gt]
  rwa [hofRat]

private theorem toRat_ofRat_le {q : ℚ} (hq : 0 < q) {k : ℤ} (hk : q ≤ 2 ^ k) (hlo : -125 ≤ k)
    (hhi : k < 126) : (ofRat q).toRat ≤ 2 ^ k := by
  obtain ⟨-, heq⟩ := toRat_ofRat hq (hk.trans_lt (zpow_lt_zpow_right₀ (by norm_num) hhi))
  have hpos : (0 : ℚ) < 2 ^ scale q := by positivity
  have hscale : scale q ≤ k := by
    have hlog : ilog2 q ≤ k := by
      have h := (ilog2_spec hq).1.trans hk
      exact (zpow_le_zpow_iff_right₀ (by norm_num)).mp h
    rw [scale]
    omega
  have hexp : (2 : ℚ) ^ k = ((2 ^ (k - scale q).toNat : ℕ) : ℚ) * 2 ^ scale q := by
    have hcast : ((2 ^ (k - scale q).toNat : ℕ) : ℚ) = 2 ^ (k - scale q) := by
      rw [Nat.cast_pow, Nat.cast_ofNat, ← zpow_natCast, Int.toNat_of_nonneg (by omega)]
    rw [hcast, ← zpow_add₀ two_ne_zero, sub_add_cancel]
  rw [heq, hexp]
  gcongr
  apply roundEven_le (div_pos hq hpos).le
  rw [div_le_iff₀ hpos, ← hexp]
  exact hk

theorem toRat_ofRat_nonneg {q : ℚ} (hq : 0 < q) (hhi : q < 2 ^ (126 : ℤ)) :
    0 ≤ (ofRat q).toRat := by
  rw [(toRat_ofRat hq hhi).2]
  positivity

/-- **The unit interval** is closed under rounding. -/
theorem ofRat_mem_unit {q : ℚ} (h0 : 0 ≤ q) (h1 : q ≤ 1) :
    (ofRat q).isFinite = true ∧ 0 ≤ (ofRat q).toRat ∧ (ofRat q).toRat ≤ 1 := by
  rcases h0.eq_or_lt with rfl | hpos
  · decide +kernel
  · have hhi : q < 2 ^ (126 : ℤ) := h1.trans_lt (by norm_num)
    have hle : (ofRat q).toRat ≤ 2 ^ (0 : ℤ) :=
      toRat_ofRat_le hpos (by simpa using h1) (by norm_num) (by norm_num)
    exact ⟨(toRat_ofRat hpos hhi).1, toRat_ofRat_nonneg hpos hhi, by simpa using hle⟩

end Binary32
