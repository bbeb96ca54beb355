import Courier.Binary64.Basic
import Courier.Text.Decimal

/-! Reading floating-point numbers: digits with an optional point among or around
them and an optional exponent, or the words for infinity and for no number, in
either case. -/
namespace Courier.Binary64

/-- The number with the given digits before and after the point, times a power of ten. -/
def ofParts (negative : Bool) (whole fraction : List Char) (exponent : Int) : Binary64 :=
  ofDecimal negative (Text.ofDigits (whole ++ fraction)) (exponent - fraction.length)

/-- An exponent: a mark, an optional sign and digits; nothing stands for zero. -/
def readExponent? : List Char → Option Int
  | [] => some 0
  | mark :: rest =>
    let (negative, digits) := Text.splitSign rest
    if (mark = 'e' ∨ mark = 'E') ∧ !digits.isEmpty ∧ digits.all Char.isDigit then
      let n : Int := Text.ofDigits digits
      some (if negative then -n else n)
    else none

def readNumber? (negative : Bool) (chars : List Char) : Option Binary64 :=
  let whole := chars.takeWhile Char.isDigit
  let rest := chars.dropWhile Char.isDigit
  let (fraction, rest) :=
    match rest with
    | '.' :: more => (more.takeWhile Char.isDigit, more.dropWhile Char.isDigit)
    | _ => ([], rest)
  if whole.isEmpty && fraction.isEmpty then none
  else (readExponent? rest).map (ofParts negative whole fraction)

def read? (chars : List Char) : Option Binary64 :=
  let (negative, body) := Text.splitSign chars
  match String.ofList (body.map Char.toLower) with
  | "nan" => some .nan
  | "inf" | "infinity" => some (.infinite negative)
  | _ => readNumber? negative body

end Courier.Binary64
