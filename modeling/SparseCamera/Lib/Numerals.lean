import Mathlib.Data.Nat.Digits.Defs
import SparseCamera.Lib.CString
import SparseCamera.Lib.ExtRat
import SparseCamera.Lib.Rounding

/-!
# Numbers in text

`strtoul` and `strtod` read the longest number a text begins with and say where it ends. Neither is
strict: both skip blanks, both take a sign, `strtoul` negates in its unsigned type, and `strtod`
knows hexadecimal numbers, infinities and NaNs besides the decimal ones.

A number that is out of range is reported beside the value. `strtod` rounds to the nearest double,
ties to even, and reports a value that is too large, and one that is inexact and so small that it
lost bits.
-/

namespace CString

/-- What a text begins with, whether it was out of range, and what follows it. -/
structure Converted (α : Type) where
  value : α
  erange : Bool
  rest : List UInt8
deriving DecidableEq

/-- `tolower`. -/
def tolower (b : UInt8) : UInt8 := if chr 'A' ≤ b ∧ b ≤ chr 'Z' then b + 32 else b

/-- `strcasecmp` finds no difference. -/
def sameText (s t : List UInt8) : Bool := s.map tolower = t.map tolower

/-! ## Digits -/

/-- The value of a digit in a base up to 16. -/
def digit (base : ℕ) (b : UInt8) : Option ℕ :=
  let value :=
    if chr '0' ≤ b ∧ b ≤ chr '9' then some (b - chr '0').toNat
    else if chr 'a' ≤ tolower b ∧ tolower b ≤ chr 'f' then
      some (10 + (tolower b - chr 'a').toNat)
    else none
  value.filter (· < base)

/-- The digits a text begins with, and what follows them. -/
def digits (base : ℕ) : List UInt8 → List ℕ × List UInt8
  | [] => ([], [])
  | b :: s =>
    match digit base b with
    | none => ([], b :: s)
    | some d => (d :: (digits base s).1, (digits base s).2)

/-- The number with these digits. -/
def number (base : ℕ) (ds : List ℕ) : ℕ := Nat.ofDigits base ds.reverse

/-- A sign, if there is one; `true` is minus. -/
def sign : List UInt8 → Bool × List UInt8
  | [] => (false, [])
  | b :: s => if b = chr '-' then (true, s) else if b = chr '+' then (false, s) else (false, b :: s)

/-! ## Integers -/

/-- `strtoul` in base 10; `none` if there are no digits. -/
def strtoul (s : List UInt8) : Option (Converted UInt64) :=
  let (negative, s) := sign (s.dropWhile isspace)
  match digits 10 s with
  | ([], _) => none
  | (ds, rest) =>
    let n := number 10 ds
    if 2 ^ 64 ≤ n then some ⟨0xffffffffffffffff, true, rest⟩
    else some ⟨if negative then -UInt64.ofNat n else .ofNat n, false, rest⟩

example : strtoul (ascii " -18446744073709551615 m") = some ⟨1, false, ascii " m"⟩ := by
  decide +kernel

/-! ## Floating point

The value is computed as an exact rational and rounded once at the end. The text of a number has a
mantissa, a point somewhere in it and an exponent, in one of two bases. -/

/-- The double next to a rational that is not negative, and whether it is out of range. -/
def toDouble (q : ℚ) : ExtRat × Bool :=
  if q = 0 then (.fin 0, false)
  else
    let e := max (Binary32.ilog2 q - 52) (-1074)
    let v : ℚ := Binary32.roundEven (q / 2 ^ e) * 2 ^ e
    if 2 ^ 1024 ≤ v then (.posInf, true)
    else (.fin v, v ≠ q && Binary32.roundBits 53 q < 2 ^ (-1022 : ℤ))

/-- Digits with at most one point among them: the number without the point, how many digits stand
behind it, and what follows. -/
def mantissa (base : ℕ) (s : List UInt8) : Option (ℕ × ℕ × List UInt8) :=
  let (whole, rest) := digits base s
  let (fraction, rest) :=
    match rest with
    | [] => ([], [])
    | b :: rest => if b = chr '.' then digits base rest else ([], b :: rest)
  if whole = [] ∧ fraction = [] then none
  else some (number base (whole ++ fraction), fraction.length, rest)

/-- An exponent behind its mark; 0 if there is none. -/
def exponent (mark : Char) (s : List UInt8) : ℤ × List UInt8 :=
  match s with
  | [] => (0, [])
  | b :: rest =>
    if tolower b = chr mark then
      let (negative, rest) := sign rest
      match digits 10 rest with
      | ([], _) => (0, s)
      | (ds, rest) => (if negative then -(number 10 ds : ℤ) else number 10 ds, rest)
    else (0, s)

/-- A decimal number without a sign. -/
def decimal (s : List UInt8) : Option (ℚ × List UInt8) :=
  (mantissa 10 s).map fun (m, k, rest) ↦
    let (e, rest) := exponent 'e' rest
    (m * 10 ^ (e - k), rest)

/-- A hexadecimal number without a sign, its exponent a power of two. -/
def hexadecimal : List UInt8 → Option (ℚ × List UInt8)
  | zero :: x :: s =>
    if zero = chr '0' ∧ tolower x = chr 'x' then
      (mantissa 16 s).map fun (m, k, rest) ↦
        let (e, rest) := exponent 'p' rest
        (m * 2 ^ (e - 4 * k), rest)
    else none
  | _ => none

/-- What follows a word, in whatever case it is written. -/
def afterWord (word s : List UInt8) : Option (List UInt8) :=
  if sameText word (s.take word.length) then some (s.drop word.length) else none

/-- What follows a NaN: it may carry letters, digits and underscores in parentheses. -/
def afterNan (s : List UInt8) : List UInt8 :=
  let isPayload (b : UInt8) : Bool :=
    b = chr '_' || (chr '0' ≤ b && b ≤ chr '9') || (chr 'a' ≤ tolower b && tolower b ≤ chr 'z')
  match s with
  | [] => []
  | b :: rest =>
    if b = chr '(' then
      match rest.dropWhile isPayload with
      | c :: rest => if c = chr ')' then rest else s
      | [] => s
    else s

/-- `strtod`; `none` if the text begins with no number. -/
def strtod (s : List UInt8) : Option (Converted ExtRat) :=
  let (negative, s) := sign (s.dropWhile isspace)
  let signed (v : ExtRat) := if negative then v.neg else v
  match afterWord (ascii "infinity") s <|> afterWord (ascii "inf") s with
  | some rest => some ⟨signed .posInf, false, rest⟩
  | none =>
    match afterWord (ascii "nan") s with
    | some rest => some ⟨.nan, false, afterNan rest⟩
    | none => (hexadecimal s <|> decimal s).map fun (q, rest) ↦
        let (v, erange) := toDouble q
        ⟨signed v, erange, rest⟩

example : strtod (ascii "-12.5e1x") = some ⟨.fin (-125), false, ascii "x"⟩ := by decide +kernel

end CString
