import Courier.Binary64.Reader
import Courier.Text.Hex
import Courier.Toml.Moment
import Courier.Toml.Value

/-! Strings, numbers and the other undivided values of a TOML document. Every
reader takes the characters that are left and gives back those behind the value. -/
namespace Courier.Toml

def isBlank (c : Char) : Bool := c = ' ' || c = '\t'

/-- Characters other than control characters, and the tab. -/
def isPlain (c : Char) : Bool := c = '\t' || (0x20 ≤ c.toNat && c.toNat ≠ 0x7f)

/-- What stands behind the end of a line, if one is here. -/
def newline? : List Char → Option (List Char)
  | '\n' :: rest => some rest
  | '\r' :: '\n' :: rest => some rest
  | _ => none

namespace Quoted

/-- The character with a number, unless the number is that of none. -/
def charOf? (digits : List Char) : Option Char := do
  let values ← digits.mapM Text.hexValue?
  let n := values.foldl (fun n d => 16 * n + d) 0
  if n < 0xd800 ∨ (0xdfff < n ∧ n < 0x110000) then some (Char.ofNat n) else none

def escape? : Char → Option Char
  | 'b' => some '\x08'
  | 'e' => some '\x1b'
  | 't' => some '\t'
  | 'n' => some '\n'
  | 'f' => some '\x0c'
  | 'r' => some '\r'
  | '"' => some '"'
  | '\\' => some '\\'
  | _ => none

/-- The character an escape stands for, behind its backslash. -/
def escaped? : List Char → Option (Char × List Char)
  | 'x' :: a :: b :: rest => (charOf? [a, b]).map (·, rest)
  | 'u' :: a :: b :: c :: d :: rest => (charOf? [a, b, c, d]).map (·, rest)
  | 'U' :: a :: b :: c :: d :: e :: f :: g :: h :: rest =>
    (charOf? [a, b, c, d, e, f, g, h]).map (·, rest)
  | c :: rest => (escape? c).map (·, rest)
  | [] => none

/-- The rest of a string in double quotes on one line. -/
def basic : (limit : Nat) → List Char → Option (List Char × List Char)
  | 0, _ => none
  | _, [] => none
  | _, '"' :: rest => some ([], rest)
  | limit + 1, '\\' :: rest => do
    let (c, rest) ← escaped? rest
    let (s, rest) ← basic limit rest
    return (c :: s, rest)
  | limit + 1, c :: rest => do
    guard (isPlain c)
    let (s, rest) ← basic limit rest
    return (c :: s, rest)

/-- The rest of a string in single quotes on one line, which has no escapes. -/
def literal : List Char → Option (List Char × List Char)
  | [] => none
  | '\'' :: rest => some ([], rest)
  | c :: rest => do
    guard (isPlain c)
    let (s, rest) ← literal rest
    return (c :: s, rest)

/-- Up to five quotes at the end of a string of several lines: three close it,
the others belong to it. -/
def closing? (quote : Char) (chars : List Char) : Option (List Char × List Char) :=
  let run := (chars.takeWhile (· = quote)).length
  if run < 3 then none
  else
    let kept := min (run - 3) 2
    some (List.replicate kept quote, chars.drop (kept + 3))

/-- Blanks and line ends. -/
def isSpace (c : Char) : Bool := isBlank c || c = '\n'

/-- Skips blanks and line ends. -/
def skipSpace : List Char → List Char
  | [] => []
  | '\r' :: '\n' :: rest => skipSpace rest
  | c :: rest => if isSpace c then skipSpace rest else c :: rest

/-- One character or line end of a string of several lines, as it stands. -/
def verbatim? : List Char → Option (List Char × List Char)
  | [] => none
  | '\n' :: rest => some (['\n'], rest)
  | '\r' :: '\n' :: rest => some (['\r', '\n'], rest)
  | c :: rest => if isPlain c then some ([c], rest) else none

/-- The rest of a string of several lines in double quotes. A backslash at the
end of a line swallows all space up to the next character. -/
def multiBasic : (limit : Nat) → List Char → Option (List Char × List Char)
  | 0, _ => none
  | limit + 1, chars =>
    match closing? '"' chars with
    | some ending => some ending
    | none =>
      match chars with
      | '\\' :: rest =>
        if (newline? (rest.dropWhile isBlank)).isSome then multiBasic limit (skipSpace rest)
        else do
          let (c, rest) ← escaped? rest
          let (s, rest) ← multiBasic limit rest
          return (c :: s, rest)
      | _ => do
        let (piece, rest) ← verbatim? chars
        let (s, rest) ← multiBasic limit rest
        return (piece ++ s, rest)

/-- The rest of a string of several lines in single quotes. -/
def multiLiteral : (limit : Nat) → List Char → Option (List Char × List Char)
  | 0, _ => none
  | limit + 1, chars =>
    match closing? '\'' chars with
    | some ending => some ending
    | none => do
      let (piece, rest) ← verbatim? chars
      let (s, rest) ← multiLiteral limit rest
      return (piece ++ s, rest)

/-- A line end right behind the opening quotes does not count. -/
def skipFirstNewline (chars : List Char) : List Char := (newline? chars).getD chars

/-- A string of any of the four kinds, if one begins here. -/
def read? : List Char → Option (List Char × List Char)
  | '"' :: '"' :: '"' :: rest =>
    let body := skipFirstNewline rest
    multiBasic (body.length + 1) body
  | '\'' :: '\'' :: '\'' :: rest =>
    let body := skipFirstNewline rest
    multiLiteral (body.length + 1) body
  | '"' :: rest => basic (rest.length + 1) rest
  | '\'' :: rest => literal rest
  | _ => none

end Quoted

namespace Number

/-- Digits with single underscores between them. -/
def digits? (isDigit : Char → Bool) (chars : List Char) : Option (List Char) :=
  let rec go : (behindDigit : Bool) → List Char → Option (List Char)
    | behindDigit, [] => if behindDigit then some [] else none
    | behindDigit, c :: rest =>
      if isDigit c then (go true rest).map (c :: ·)
      else if c = '_' ∧ behindDigit then go false rest
      else none
  go false chars

/-- Decimal digits without a zero in front. Behind a sign an underscore may come
first, and any digits after it. -/
def whole? (signed : Bool) : List Char → Option (List Char)
  | '_' :: rest => if signed then digits? Char.isDigit rest else none
  | chars => do
    let digits ← digits? Char.isDigit chars
    guard (digits.length ≤ 1 ∨ digits.head? ≠ some '0')
    return digits

def isSigned (chars : List Char) : Bool := chars.head?.any fun c => c = '+' || c = '-'

def isOctal (c : Char) : Bool := '0' ≤ c && c ≤ '7'

def isBinary (c : Char) : Bool := c = '0' || c = '1'

/-- The number that digits to a base stand for. -/
def ofBase? (base : Nat) (isDigit : Char → Bool) (chars : List Char) : Option Int := do
  let values ← (← digits? isDigit chars).mapM Text.hexValue?
  Text.integer64? (values.foldl (fun n d => base * n + d) 0 : Nat)

def integer? : List Char → Option Int
  | '0' :: 'x' :: rest => ofBase? 16 (fun c => (Text.hexValue? c).isSome) rest
  | '0' :: 'o' :: rest => ofBase? 8 isOctal rest
  | '0' :: 'b' :: rest => ofBase? 2 isBinary rest
  | chars => do
    let (negative, body) := Text.splitSign chars
    let n : Int := Text.ofDigits (← whole? (isSigned chars) body)
    Text.integer64? (if negative then -n else n)

def isMark (c : Char) : Bool := c = 'e' || c = 'E'

/-- An exponent behind its mark; nothing stands for zero. -/
def power? : List Char → Option Int
  | [] => some 0
  | _ :: rest => do
    let (negative, body) := Text.splitSign rest
    let n : Int := Text.ofDigits (← digits? Char.isDigit body)
    return if negative then -n else n

/-- A number with decimal places, an exponent or both. -/
def decimal? (chars : List Char) : Option Binary64 := do
  let (negative, body) := Text.splitSign chars
  let mantissa := body.takeWhile (!isMark ·)
  let power := body.dropWhile (!isMark ·)
  let whole ← whole? (isSigned chars) (mantissa.takeWhile (· ≠ '.'))
  let fraction ←
    match mantissa.dropWhile (· ≠ '.') with
    | [] => some []
    | _ :: places => digits? Char.isDigit places
  guard (!fraction.isEmpty || !power.isEmpty)
  match Binary64.ofParts negative whole fraction (← power? power) with
  | .infinite _ => none
  | x => some x

/-- A floating-point number; one that is too large is refused, unless it is
written as infinity. -/
def float? (chars : List Char) : Option Binary64 :=
  let (negative, body) := Text.splitSign chars
  if body = ['i', 'n', 'f'] then some (.infinite negative)
  else if body = ['n', 'a', 'n'] then some .nan
  else decimal? chars

end Number

/-- Characters of the values that are not in quotes or brackets. -/
def isScalarChar (c : Char) : Bool :=
  c.isAlphanum || c = '+' || c = '-' || c = '_' || c = '.' || c = ':'

/-- A value written in one word. -/
def word? (chars : List Char) : Option Value :=
  if chars = ['t', 'r', 'u', 'e'] then some (.boolean true)
  else if chars = ['f', 'a', 'l', 's', 'e'] then some (.boolean false)
  else
    match Number.integer? chars, Number.float? chars, Moment.read? chars with
    | some n, _, _ => some (.integer n)
    | _, some x, _ => some (.float x)
    | _, _, some m => some (.moment m)
    | _, _, _ => none

/-- A date and a time with a single space between them. -/
def spacedMoment? (chars : List Char) : Option (Value × List Char) := do
  let (date, rest) ← Moment.date? chars
  match rest with
  | ' ' :: more =>
    let time ← Moment.timeOfDay? (more.takeWhile isScalarChar)
    return (.moment (String.ofList (date ++ 'T' :: time)), more.dropWhile isScalarChar)
  | _ => none

/-- A value that is no array and no table. -/
def scalar? (chars : List Char) : Option (Value × List Char) :=
  match chars with
  | '"' :: _ | '\'' :: _ =>
    (Quoted.read? chars).map fun (s, rest) => (.text (String.ofList s), rest)
  | _ =>
    match spacedMoment? chars with
    | some found => some found
    | none => (word? (chars.takeWhile isScalarChar)).map (·, chars.dropWhile isScalarChar)

end Courier.Toml
