import Courier.Binary64.Basic
import Courier.Text.Decimal

/-! Decimal text of floating-point numbers: the fewest digits that read back as
the same number, the nearest of those, always without an exponent. -/
namespace Courier.Binary64

/-- The numbers that round to one floating-point number, between two ends with a
common denominator; the ends themselves may belong to it. -/
structure Interval where
  low : Nat
  value : Nat
  high : Nat
  den : Nat
  closed : Bool

/-- The neighbour below is only half as far away where the exponent changes. The
ends round to the number itself when its mantissa is even. -/
def interval (m : Nat) (e : Int) : Interval :=
  let below := if m = leastMantissa ∧ minExponent < e then 1 else 2
  let shift := (e - 2).toNat
  { low := (4 * m - below) <<< shift
    value := (4 * m) <<< shift
    high := (4 * m + 2) <<< shift
    den := 1 <<< (2 - e).toNat
    closed := m % 2 = 0 }

/-- Zeros between the point and the first digit of a quotient below one. -/
def zerosAfterPoint : (limit : Nat) → (num den : Nat) → Nat
  | 0, _, _ => 0
  | limit + 1, num, den =>
    if den ≤ num * 10 then 0 else zerosAfterPoint limit (num * 10) den + 1

/-- The place of the first digit: `10 ^ (p - 1) ≤ num / den < 10 ^ p`. -/
def firstPlace (num den : Nat) : Int :=
  if den ≤ num then (toString (num / den)).length else -(zerosAfterPoint 400 num den : Int)

namespace Interval

/-- The interval in units of `10 ^ place`. -/
def onGrid (i : Interval) (place : Int) : Interval :=
  let up := Nat.pow 10 (-place).toNat
  { i with
    low := i.low * up
    value := i.value * up
    high := i.high * up
    den := i.den * Nat.pow 10 place.toNat }

def contains (i : Interval) (n : Nat) : Bool :=
  if i.closed then i.low ≤ n * i.den && n * i.den ≤ i.high
  else i.low < n * i.den && n * i.den < i.high

/-- The whole number of the interval nearest to its value, if it holds any; the
upper one of two that are equally near. -/
def nearest? (i : Interval) : Option Nat :=
  let down := i.value / i.den
  let up := down + 1
  match i.contains down, i.contains up with
  | false, false => none
  | true, false => some down
  | false, true => some up
  | true, true => some (if up * i.den - i.value ≤ i.value - down * i.den then up else down)

end Interval

/-- Searches the grids of `n`, `n + 1`, … significant digits. -/
def shortestFrom (i : Interval) (first : Int) : (grids : Nat) → (n : Nat) → Nat × Int
  | 0, n =>
    let place := first - n
    let grid := i.onGrid place
    (roundQuotient grid.value grid.den, place)
  | grids + 1, n =>
    let place := first - n
    match (i.onGrid place).nearest? with
    | some digits => (digits, place)
    | none => shortestFrom i first grids (n + 1)

/-- The shortest decimal `digits * 10 ^ place` that reads back as `m * 2 ^ e`. -/
def shortest (m : Nat) (e : Int) : Nat × Int :=
  let i := interval m e
  shortestFrom i (firstPlace i.value i.den) 17 1

def text : Binary64 → String
  | nan => "NaN"
  | infinite negative => if negative then "-inf" else "inf"
  | finite negative m e =>
    let (digits, place) := if m = 0 then (0, 0) else shortest m e
    let magnitude := Text.decimal (digits * Nat.pow 10 place.toNat) (-place).toNat
    if negative then "-" ++ magnitude else magnitude

end Courier.Binary64
