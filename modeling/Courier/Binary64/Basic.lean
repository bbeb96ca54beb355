/-! Floating-point numbers of 64 bits as exact values, and the one nearest to a
decimal number. Everything is whole-number arithmetic; a number half way between
two neighbours goes to the even one. -/
namespace Courier

inductive Binary64 where
  /-- `mantissa * 2 ^ exponent`, or its negative. -/
  | finite (negative : Bool) (mantissa : Nat) (exponent : Int)
  | infinite (negative : Bool)
  | nan
  deriving DecidableEq

namespace Binary64

def minExponent : Int := -1074

def maxExponent : Int := 971

/-- The least mantissa of 53 binary digits. -/
def leastMantissa : Nat := 4503599627370496

def zero (negative : Bool) : Binary64 := .finite negative 0 minExponent

/-- The whole number nearest to a quotient, a half going to the even neighbour. -/
def roundQuotient (num den : Nat) : Nat :=
  let q := num / den
  let r := num % den
  if den < 2 * r ∨ (2 * r = den ∧ q % 2 = 1) then q + 1 else q

/-- Numerator and denominator of a quotient divided by `2 ^ e`. -/
def scale (num den : Nat) (e : Int) : Nat × Nat :=
  if 0 ≤ e then (num, den <<< e.toNat) else (num <<< (-e).toNat, den)

/-- The exponent that leaves 53 binary digits in front of the point, or the
smallest one. -/
def exponentFor (num den : Nat) : Int :=
  let guess : Int := num.log2 - den.log2 - 52
  let (n, d) := scale num den guess
  max (if n / d < leastMantissa then guess - 1 else guess) minExponent

/-- The number nearest to a quotient; past the largest one it is infinite. -/
def ofQuotient (negative : Bool) (num den : Nat) : Binary64 :=
  if num = 0 then zero negative
  else
    let e := exponentFor num den
    let (n, d) := scale num den e
    let m := roundQuotient n d
    let (m, e) := if m = 2 * leastMantissa then (leastMantissa, e + 1) else (m, e)
    if maxExponent < e then .infinite negative else .finite negative m e

/-- The number nearest to `digits * 10 ^ exponent`. Far beyond the largest and
below the smallest number no power of ten is needed to tell. -/
def ofDecimal (negative : Bool) (digits : Nat) (exponent : Int) : Binary64 :=
  let size := (toString digits).length + exponent
  if digits = 0 ∨ size < -330 then zero negative
  else if 310 < size then .infinite negative
  else if 0 ≤ exponent then ofQuotient negative (digits * Nat.pow 10 exponent.toNat) 1
  else ofQuotient negative digits (Nat.pow 10 (-exponent).toNat)

/-- The nearest whole number, a half going away from zero, held between zero and
the largest number of 64 bits. What is no number counts as zero. -/
def toWord : Binary64 → Nat
  | finite true _ _ => 0
  | finite false m e =>
    let rounded :=
      if 0 ≤ e then m <<< e.toNat
      else (m + 1 <<< ((-e).toNat - 1)) >>> (-e).toNat
    min rounded 18446744073709551615
  | infinite true => 0
  | infinite false => 18446744073709551615
  | nan => 0

end Binary64

end Courier
