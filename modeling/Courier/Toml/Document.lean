import Courier.Toml.Scalar

/-! Whole TOML documents: keys, arrays, tables written as values, and lines of
settings under headers. A document that breaks a rule anywhere is refused as a
whole. -/
namespace Courier.Toml

/-- Behind a comment, which runs to the end of the line, or right here. -/
def skipComment (chars : List Char) : List Char :=
  match chars with
  | '#' :: rest => rest.dropWhile isPlain
  | _ => chars

/-- Nothing but a comment may follow up to the end of the line. -/
def lineEnd? (chars : List Char) : Option (List Char) :=
  match skipComment (chars.dropWhile isBlank) with
  | [] => some []
  | rest => newline? rest

/-- Skips the blanks, line ends and comments of at most so many lines. -/
def skipLines : (limit : Nat) → List Char → List Char
  | 0, chars => chars
  | limit + 1, chars =>
    let rest := skipComment (chars.dropWhile isBlank)
    match newline? rest with
    | some rest => skipLines limit rest
    | none => rest

/-- Skips all that says nothing, as it may stand between brackets and between braces. -/
def skipVoid (chars : List Char) : List Char := skipLines (chars.length + 1) chars

def isBareKeyChar (c : Char) : Bool := c.isAlphanum || c = '-' || c = '_'

/-- One part of a key: in quotes, or bare. -/
def keyPart? (chars : List Char) : Option (String × List Char) :=
  match chars with
  | '"' :: rest =>
    (Quoted.basic (rest.length + 1) rest).map fun (s, rest) => (String.ofList s, rest)
  | '\'' :: rest => (Quoted.literal rest).map fun (s, rest) => (String.ofList s, rest)
  | _ =>
    let bare := chars.takeWhile isBareKeyChar
    if bare.isEmpty then none else some (String.ofList bare, chars.dropWhile isBareKeyChar)

/-- How deep values nest, and how many parts a key has, at most. -/
def nestingLimit : Nat := 80

/-- At most so many parts with points between them, and the characters behind. -/
def parts? : (limit : Nat) → List Char → Option (List String × List Char)
  | 0, _ => none
  | limit + 1, chars => do
    let (part, rest) ← keyPart? (chars.dropWhile isBlank)
    match rest.dropWhile isBlank with
    | '.' :: more =>
      let (parts, rest) ← parts? limit more
      return (part :: parts, rest)
    | rest => return ([part], rest)

def key? (chars : List Char) : Option (List String × List Char) := parts? nestingLimit chars

/-- A key, the equals sign and a value, with what may be skipped around the sign. -/
def setting? (skip : List Char → List Char) (value : List Char → Option (Value × List Char))
    (chars : List Char) : Option ((List String × Value) × List Char) := do
  let (key, rest) ← key? chars
  match skip rest with
  | '=' :: rest =>
    let (v, rest) ← value (skip rest)
    return ((key, v), rest)
  | _ => none

/-- The items of an array up to its closing bracket; a comma may stand last. -/
def items? (value : List Char → Option (Value × List Char)) :
    (limit : Nat) → List Char → Option (List Value × List Char)
  | 0, _ => none
  | limit + 1, chars =>
    match skipVoid chars with
    | ']' :: rest => some ([], rest)
    | chars => do
      let (v, rest) ← value chars
      match skipVoid rest with
      | ',' :: rest => do
        let (vs, rest) ← items? value limit rest
        return (v :: vs, rest)
      | ']' :: rest => some ([v], rest)
      | _ => none

/-- The settings of a table up to its closing brace; a comma may stand last. -/
def pairs? (value : List Char → Option (Value × List Char)) :
    (limit : Nat) → Entries → List Char → Option (Entries × List Char)
  | 0, _, _ => none
  | limit + 1, entries, chars =>
    match skipVoid chars with
    | '}' :: rest => some (entries, rest)
    | chars => do
      let ((key, v), rest) ← setting? skipVoid value chars
      let entries ← Entries.define v key entries
      match skipVoid rest with
      | ',' :: rest => pairs? value limit entries rest
      | '}' :: rest => some (entries, rest)
      | _ => none

/-- A value, with arrays and tables nested in it up to a depth. -/
def value? : (depth : Nat) → List Char → Option (Value × List Char)
  | depth + 1, '[' :: rest => do
    let (items, rest) ← items? (value? depth) (rest.length + 1) rest
    return (.array items, rest)
  | depth + 1, '{' :: rest => do
    let (entries, rest) ← pairs? (value? depth) (rest.length + 1) [] rest
    return (.table .inline entries, rest)
  | _, chars => scalar? chars

/-- A document as far as it is read: its tables and the one that is open. -/
structure Reading where
  root : Entries := []
  path : List String := []

/-- A header, up to its closing brackets. -/
def header? (r : Reading) (chars : List Char) : Option (Reading × List Char) :=
  match chars with
  | '[' :: '[' :: rest => do
    match ← key? rest with
    | (path, ']' :: ']' :: rest) =>
      let root ← r.root.openElement path.dropLast (← path.getLast?)
      return ({ root, path }, rest)
    | _ => none
  | '[' :: rest => do
    match ← key? rest with
    | (path, ']' :: rest) =>
      let root ← r.root.openTable path.dropLast (← path.getLast?)
      return ({ root, path }, rest)
    | _ => none
  | _ => none

/-- A setting of the open table. -/
def settingOf? (r : Reading) (chars : List Char) : Option (Reading × List Char) := do
  let ((key, v), rest) ← setting? (·.dropWhile isBlank) (value? nestingLimit) chars
  let root ← r.root.descend (Entries.define v key) r.path
  return ({ r with root }, rest)

/-- One line without its end: nothing, a header or a setting. -/
def line? (r : Reading) (chars : List Char) : Option (Reading × List Char) :=
  match chars with
  | [] | '#' :: _ | '\n' :: _ | '\r' :: _ => some (r, chars)
  | '[' :: _ => header? r chars
  | _ => settingOf? r chars

def lines? : (limit : Nat) → Reading → List Char → Option Entries
  | 0, _, _ => none
  | _, r, [] => some r.root
  | limit + 1, r, chars => do
    let (r, rest) ← line? r (chars.dropWhile isBlank)
    lines? limit r (← lineEnd? rest)

/-- What stands behind a byte order mark, if there is one. -/
def withoutMark : List Char → List Char
  | '\ufeff' :: rest => rest
  | chars => chars

/-- The top-level entries of a document. A byte order mark in front is skipped. -/
def read? (chars : List Char) : Option Entries :=
  let body := withoutMark chars
  lines? (body.length + 1) {} body

end Courier.Toml
