import Courier.Text.GraphemeExtend
import Courier.Text.Hex
import Courier.Text.Unprintable

/-! Texts and bytes in double quotes, with escapes for all that would not show:
controls by a letter where there is one, other characters by their number. -/
namespace Courier.Text

/-- A number in lower-case hexadecimal digits. -/
def hexNumber (n : Nat) : List Char := Nat.toDigits 16 n

def escape (c : Char) : List Char :=
  if c = '\x00' then ['\\', '0']
  else if c = '\t' then ['\\', 't']
  else if c = '\r' then ['\\', 'r']
  else if c = '\n' then ['\\', 'n']
  else if c = '"' then ['\\', '"']
  else if c = '\\' then ['\\', '\\']
  else if isUnprintable c || isGraphemeExtend c then
    '\\' :: 'u' :: '\x7b' :: hexNumber c.toNat ++ ['\x7d']
  else [c]

def quote (s : String) : String :=
  "\"" ++ String.ofList (s.toList.flatMap escape) ++ "\""

/-- A byte in its letter, or by two hexadecimal digits. -/
def escapeByte (b : UInt8) : String :=
  let c := Char.ofNat b.toNat
  if c = '\x00' then "\\0"
  else if c = '\t' then "\\t"
  else if c = '\r' then "\\r"
  else if c = '\n' then "\\n"
  else if c = '"' then "\\\""
  else if c = '\\' then "\\\\"
  else if 0x20 ≤ b ∧ b ≤ 0x7e then c.toString
  else "\\x" ++ hexByte b

def quoteBytes (bytes : Bytes) : String := "b\"" ++ String.join (bytes.map escapeByte) ++ "\""

/-- A value that may be missing. -/
def optional {α : Type} (write : α → String) : Option α → String
  | none => "None"
  | some a => "Some(" ++ write a ++ ")"

def list {α : Type} (write : α → String) (l : List α) : String :=
  "[" ++ ", ".intercalate (l.map write) ++ "]"

def boolean (b : Bool) : String := if b then "true" else "false"

/-- A name and named fields in braces. -/
def record (name : String) (fields : List (String × String)) : String :=
  name ++ " \x7b " ++ ", ".intercalate (fields.map fun (field, text) => field ++ ": " ++ text) ++
    " \x7d"

end Courier.Text
