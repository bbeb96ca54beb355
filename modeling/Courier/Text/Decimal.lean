/-! Decimal notation of whole numbers and of numbers with a fixed count of
decimal places. -/
namespace Courier.Text

/-- The number that decimal digits stand for. -/
def ofDigits (digits : List Char) : Nat :=
  digits.foldl (fun n c => 10 * n + (c.toNat - '0'.toNat)) 0

/-- A sign, if there is one, and whether it is a minus. -/
def splitSign : List Char → Bool × List Char
  | '-' :: rest => (true, rest)
  | '+' :: rest => (false, rest)
  | rest => (false, rest)

/-- An integer that fits in 64 bits with a sign. -/
def integer64? (n : Int) : Option Int :=
  if -9223372036854775808 ≤ n ∧ n < 9223372036854775808 then some n else none

/-- The decimal digits of a number, filled up with zeros to a width. -/
def padded (width n : Nat) : List Char :=
  let digits := (toString n).toList
  List.replicate (width - digits.length) '0' ++ digits

def withoutTrailingZeros (digits : List Char) : List Char :=
  (digits.reverse.dropWhile (· = '0')).reverse

/-- The number `n / 10 ^ places`, with as many decimal places as it needs. -/
def decimal (n places : Nat) : String :=
  let unit := Nat.pow 10 places
  let whole := toString (n / unit)
  let fraction := withoutTrailingZeros (padded places (n % unit))
  if fraction.isEmpty then whole else whole ++ "." ++ String.ofList fraction

end Courier.Text
