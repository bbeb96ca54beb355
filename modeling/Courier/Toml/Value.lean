import Courier.Binary64.Basic

/-! Values of a TOML document, and the rules by which keys and headers build its
tables. A table remembers how it came about, because that decides how it may be
added to: a header opens a table once, a dotted key adds only to tables that no
header opened, which no header can open from then on, and a table or array written
as a value is complete. -/
namespace Courier.Toml

inductive Origin where
  /-- Written as a value, between braces. -/
  | inline
  /-- Named on the way to a deeper header. -/
  | implied
  /-- Opened by its own header. -/
  | header
  /-- Made by a dotted key, or added to by one. -/
  | dotted
  deriving DecidableEq

inductive Value where
  | text (s : String)
  | integer (n : Int)
  | float (x : Binary64)
  | boolean (b : Bool)
  /-- A date, a time or both, in its normal form. -/
  | moment (s : String)
  | array (items : List Value)
  | table (origin : Origin) (entries : List (String × Value))
  /-- An array of tables that headers open. -/
  | tables (items : List (List (String × Value)))

abbrev Entries := List (String × Value)

namespace Entries

/-- Changes what is under a key; a new key goes last. -/
def alter (key : String) (f : Option Value → Option Value) : Entries → Option Entries
  | [] => (f none).map fun v => [(key, v)]
  | (k, v) :: rest =>
    if k = key then (f (some v)).map fun v => (k, v) :: rest
    else (alter key f rest).map ((k, v) :: ·)

/-- Changes the last element of an array of tables. -/
def alterLast (f : Entries → Option Entries) (items : List Entries) : Option Value := do
  let last ← f (← items.getLast?)
  return .tables (items.dropLast ++ [last])

/-- Sets a dotted key that has no value yet. Its way leads through tables that no
header opened and through the last elements of arrays of tables; the table it ends
in must be one that no header opened. -/
def define (v : Value) : List String → Entries → Option Entries
  | [], _ => none
  | [key], entries => alter key (fun | none => some v | some _ => none) entries
  | key :: next :: rest, entries =>
    alter key (fun
      | none => (define v (next :: rest) []).map (.table .dotted)
      | some (.table .implied inner) =>
        (define v (next :: rest) inner).map (.table (if rest.isEmpty then .dotted else .implied))
      | some (.table .dotted inner) => (define v (next :: rest) inner).map (.table .dotted)
      | some (.tables items) =>
        if rest.isEmpty then none else alterLast (define v (next :: rest)) items
      | some _ => none) entries

/-- Goes down a path of table names, the last element of an array of tables
standing for it, and changes the table there. Names that are missing on the way
become implied tables. -/
def descend (f : Entries → Option Entries) : List String → Entries → Option Entries
  | [], entries => f entries
  | key :: rest, entries =>
    alter key (fun
      | none => (descend f rest []).map (.table .implied)
      | some (.table .inline _) => none
      | some (.table origin inner) => (descend f rest inner).map (.table origin)
      | some (.tables items) => alterLast (descend f rest) items
      | some _ => none) entries

/-- Opens a table by its header: a new one, or one that was only implied. -/
def openTable (path : List String) (key : String) (entries : Entries) : Option Entries :=
  descend (alter key fun
    | none => some (.table .header [])
    | some (.table .implied inner) => some (.table .header inner)
    | some _ => none) path entries

/-- Opens one more table of an array of tables. -/
def openElement (path : List String) (key : String) (entries : Entries) : Option Entries :=
  descend (alter key fun
    | none => some (.tables [[]])
    | some (.tables items) => some (.tables (items ++ [[]]))
    | some _ => none) path entries

end Entries

end Courier.Toml
