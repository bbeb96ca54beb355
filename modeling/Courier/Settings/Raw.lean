import Courier.Binary64.Reader
import Courier.Binary64.Text

/-! Settings before they have a type: what a file or the environment says about
one of them, and which numbers and texts that may stand for. -/
namespace Courier

inductive Raw where
  | boolean (b : Bool)
  | integer (n : Int)
  | float (x : Binary64)
  | text (s : String)
  | array
  | table (isEmpty : Bool)
  deriving DecidableEq

namespace Raw

/-- Tables and arrays. -/
def isCompound : Raw → Bool
  | array => true
  | table _ => true
  | _ => false

/-- Lower case, as far as it can give a letter without an accent: that of the 26
letters, and of the Kelvin sign. -/
def lower (c : Char) : Char := if c = '\u212a' then 'k' else c.toLower

def lowered (s : String) : String := String.ofList (s.toList.map lower)

/-- An integer of 64 bits with an optional sign. -/
def readInteger? (chars : List Char) : Option Int :=
  let (negative, digits) := Text.splitSign chars
  let n : Int := Text.ofDigits digits
  if !digits.isEmpty ∧ digits.all Char.isDigit then Text.integer64? (if negative then -n else n)
  else none

/-- What a text looks like: a truth value, else an integer, else a floating-point
number, else a text. -/
def guess (s : String) : Raw :=
  if lowered s = "true" then .boolean true
  else if lowered s = "false" then .boolean false
  else
    match readInteger? s.toList, Binary64.read? s.toList with
    | some n, _ => .integer n
    | none, some x => .float x
    | none, none => .text s

/-- A number of 64 bits without a sign; a plus may stand in front. -/
def readWord? (chars : List Char) : Option Nat :=
  let digits :=
    match chars with
    | '+' :: rest => rest
    | _ => chars
  let n := Text.ofDigits digits
  if !digits.isEmpty ∧ digits.all Char.isDigit ∧ n < 18446744073709551616 then some n
  else none

def truthWord? (s : String) : Option Nat :=
  match lowered s with
  | "true" | "on" | "yes" => some 1
  | "false" | "off" | "no" => some 0
  | _ => none

/-- The count a setting stands for. -/
def toCount? : Raw → Option Nat
  | boolean b => some (if b then 1 else 0)
  | integer n => if 0 ≤ n then some n.toNat else none
  | float x => some x.toWord
  | text s => (truthWord? s).or (readWord? s.toList)
  | array => none
  | table _ => none

/-- The text a setting stands for. -/
def toText? : Raw → Option String
  | boolean b => some (if b then "true" else "false")
  | integer n => some (toString n)
  | float x => some x.text
  | text s => some s
  | array => none
  | table _ => none

end Raw

end Courier
