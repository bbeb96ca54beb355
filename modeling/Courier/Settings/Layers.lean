import Courier.Settings.Raw
import Courier.Table
import Courier.Toml.Document

/-! Settings from several sources laid over each other, the later ones on top. A
name may be a path, with points before the keys of a table and brackets around
the places of an array; it then says that the setting it starts with is a table
or an array. A name that is no path stands for itself. -/
namespace Courier

/-- Untyped settings by name. -/
abbrev Layers := Table String Raw

namespace Layers

/-- How a path goes on behind the name it starts with. -/
inductive Step where
  | key
  | index
  deriving DecidableEq

def isNameChar (c : Char) : Bool := c.isAlphanum || c = '_' || c = '-'

/-- The steps that the rest of a path consists of. -/
def steps? : (limit : Nat) → List Char → Option (List Step)
  | 0, _ => none
  | _, [] => some []
  | limit + 1, '.' :: rest => do
    guard (!(rest.takeWhile isNameChar).isEmpty)
    return .key :: (← steps? limit (rest.dropWhile isNameChar))
  | limit + 1, '[' :: rest => do
    let inside := (rest.dropWhile Toml.isBlank).takeWhile fun c => c.isDigit || c = '-'
    guard (inside.head? ≠ some '+' ∧ (Raw.readInteger? inside).isSome)
    let behind := (rest.dropWhile Toml.isBlank).dropWhile fun c => c.isDigit || c = '-'
    match behind.dropWhile Toml.isBlank with
    | ']' :: rest => return .index :: (← steps? limit rest)
    | _ => none
  | _, _ => none

/-- The setting a name is about, and the first step behind it if it is a path. -/
def place (name : String) : String × Option Step :=
  let start := name.toList.takeWhile isNameChar
  let rest := name.toList.dropWhile isNameChar
  match steps? (rest.length + 1) rest with
  | none => (name, none)
  | some steps => if start.isEmpty then (name, none) else (String.ofList start, steps.head?)

/-- The setting at the start of a path that goes on behind it. -/
def pathInto? (name : String) : Option String :=
  match place name with
  | (_, none) => none
  | (root, some _) => some root

/-- What a setting is after another value is laid over it: a table adds to what is
there, anything else takes its place. -/
def laidOver (below : Option Raw) : Raw → Raw
  | .table isEmpty =>
    match below with
    | none => .table isEmpty
    | some (.table wasEmpty) => .table (wasEmpty && isEmpty)
    | some other => if isEmpty then other else .table false
  | value => value

/-- Lays one value over the settings. -/
def set (l : Layers) (name : String) (value : Raw) : Layers :=
  match place name with
  | (root, none) => l.insert root (laidOver (l.get? root) value)
  | (root, some .key) => l.insert root (.table false)
  | (root, some .index) => l.insert root .array

def setEach (l : Layers) (settings : List (String × Raw)) : Layers :=
  settings.foldl (fun l setting => l.set setting.1 setting.2) l

/-- What a value of a file says. Dates and times are texts. -/
def ofToml : Toml.Value → Raw
  | .text s => .text s
  | .integer n => .integer n
  | .float x => .float x
  | .boolean b => .boolean b
  | .moment s => .text s
  | .array _ => .array
  | .table _ entries => .table entries.isEmpty
  | .tables _ => .array

/-- The entries of a document. -/
def ofDocument (entries : List (String × Toml.Value)) : Layers :=
  entries.foldl (fun l entry => l.insert entry.1 (ofToml entry.2)) ∅

/-- The setting that a variable of the environment is about behind a start and an
underscore, in any case of letters. -/
def nameUnder? (start name : String) : Option String :=
  let start := start.toList.map Raw.lower ++ ['_']
  let name := name.toList.map Raw.lower
  if start.isPrefixOf name then some (String.ofList (name.drop start.length)) else none

/-- The settings among the variables of the environment, as what they look like or
as texts; the last one of a name counts. -/
def ofVariables (start : String) (guessing : Bool) (environment : List (String × String)) :
    Layers :=
  environment.foldl (fun l v =>
    match nameUnder? start v.1 with
    | none => l
    | some name => l.insert name (if guessing then Raw.guess v.2 else .text v.2)) ∅

/-- Sources laid over each other, the first one at the bottom. -/
def laid (sources : List Layers) : Layers :=
  sources.foldl (fun l source => l.setEach source.entries) ∅

end Layers

end Courier
