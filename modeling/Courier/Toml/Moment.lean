import Courier.Text.Decimal

/-! Dates and times of a TOML document. They are read for their validity and
kept as text in a normal form: a capital T between date and time, no more than
nine decimal places of a second and no trailing zeros behind the first. -/
namespace Courier.Toml

namespace Moment

/-- The number that exactly these digits stand for. -/
def number? (digits : List Char) : Option Nat :=
  if digits.all Char.isDigit then some (Text.ofDigits digits) else none

def isLeap (year : Nat) : Bool := year % 4 = 0 && (year % 100 ≠ 0 || year % 400 = 0)

def daysIn (year month : Nat) : Nat :=
  if month = 2 then if isLeap year then 29 else 28
  else if month = 4 ∨ month = 6 ∨ month = 9 ∨ month = 11 then 30
  else 31

/-- A date at the start, in its normal form, and what follows. -/
def date? : List Char → Option (List Char × List Char)
  | a :: b :: c :: d :: '-' :: e :: f :: '-' :: g :: h :: rest => do
    let year ← number? [a, b, c, d]
    let month ← number? [e, f]
    let day ← number? [g, h]
    guard (1 ≤ month ∧ month ≤ 12 ∧ 1 ≤ day ∧ day ≤ daysIn year month)
    return ([a, b, c, d, '-', e, f, '-', g, h], rest)
  | _ => none

/-- Decimal places of a second in their normal form. -/
def fraction (digits : List Char) : List Char :=
  let places := Text.withoutTrailingZeros (digits.take 9)
  '.' :: if places.isEmpty then ['0'] else places

/-- Seconds of a minute at the start, behind their colon, and what follows. -/
def seconds? : List Char → Option (List Char × List Char)
  | a :: b :: rest => do
    guard ((← number? [a, b]) ≤ 60)
    match rest with
    | '.' :: more =>
      let digits := more.takeWhile Char.isDigit
      guard (!digits.isEmpty)
      return (a :: b :: fraction digits, more.dropWhile Char.isDigit)
    | _ => return ([a, b], rest)
  | _ => none

/-- A time at the start, in its normal form, and what follows. It may stop at the
minutes. -/
def time? : List Char → Option (List Char × List Char)
  | a :: b :: ':' :: c :: d :: rest => do
    let hour ← number? [a, b]
    let minute ← number? [c, d]
    guard (hour ≤ 23 ∧ minute ≤ 59)
    let start := [a, b, ':', c, d]
    match rest with
    | ':' :: more =>
      let (seconds, rest) ← seconds? more
      return (start ++ ':' :: seconds, rest)
    | _ => return (start, rest)
  | _ => none

/-- The distance from universal time, in its normal form; nothing may follow. -/
def offset? : List Char → Option (List Char)
  | [] => some []
  | ['Z'] | ['z'] => some ['Z']
  | [sign, a, b, ':', c, d] => do
    guard (sign = '+' ∨ sign = '-')
    let hour ← number? [a, b]
    let minute ← number? [c, d]
    guard (hour ≤ 23 ∧ minute ≤ 59)
    return [if hour = 0 ∧ minute = 0 then '+' else sign, a, b, ':', c, d]
  | _ => none

/-- A time with an optional distance, behind a date. -/
def timeOfDay? (chars : List Char) : Option (List Char) := do
  let (time, rest) ← time? chars
  return time ++ (← offset? rest)

/-- A date, a time, or both with a letter between them. -/
def read? (chars : List Char) : Option String :=
  match date? chars with
  | some (date, []) => some (String.ofList date)
  | some (date, mark :: rest) => do
    guard (mark = 'T' ∨ mark = 't')
    return String.ofList (date ++ 'T' :: (← timeOfDay? rest))
  | none => do
    let (time, rest) ← time? chars
    guard rest.isEmpty
    return String.ofList time

end Moment

end Courier.Toml
