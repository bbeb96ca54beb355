import Courier.Settings.Loader

/-! The rules that loaders go by. They say which variables of the environment are a source of
values, that the source on top decides, what a name that is a path makes of the one it starts with,
what texts look like and what values stand for. Where several names of a source speak of one value
they leave open which of them counts. -/
namespace Courier

def isSimple (name : String) : Bool := name.toList.all fun c => c.isAlpha || c = '_'

/-- A name without the signs that paths are written with. -/
def IsPlain (name : String) : Prop := '.' ∉ name.toList ∧ '[' ∉ name.toList

instance (name : String) : Decidable (IsPlain name) := inferInstanceAs (Decidable (_ ∧ _))

namespace Raw

def IsTruth (s : String) : Prop := lowered s = "true" ∨ lowered s = "false"

instance (s : String) : Decidable (IsTruth s) := inferInstanceAs (Decidable (_ ∨ _))

def IsText (s : String) : Prop :=
  ¬IsTruth s ∧ readInteger? s.toList = none ∧ Binary64.read? s.toList = none

end Raw

namespace Loader

variable (loader : Loader)

/-- Some name of a source is a path that starts with another name and goes on behind it. -/
def LeadsInto (source : Table String Raw) (name : String) : Prop :=
  ∃ other, source.contains other ∧ loader.pathInto? other = some name

/-- How the environment is a source of values. -/
structure Names : Prop where
  /-- Behind the start and an underscore stands the name, in capitals or not. -/
  simple : ∀ start name, isSimple start → isSimple name →
    loader.nameUnder? start (start ++ "_" ++ name) = some (Raw.lowered name)
  /-- Variables that start otherwise are no part of the source. -/
  started : ∀ start name, isSimple start → (loader.nameUnder? start name).isSome →
    (start ++ "_").toList.map Raw.lower <+: name.toList.map Raw.lower
  /-- The only variable of a name gives what its text looks like. -/
  given : ∀ start environment name, ∀ v ∈ environment, loader.nameUnder? start v.1 = some name →
    (∀ w ∈ environment, loader.nameUnder? start w.1 = some name → w = v) →
    (loader.fromEnvironment start true environment).get? name = some (loader.guess v.2)
  /-- There is nothing else in the source. -/
  absent : ∀ start guessing environment name,
    (∀ v ∈ environment, loader.nameUnder? start v.1 ≠ some name) →
    (loader.fromEnvironment start guessing environment).get? name = none

/-- How sources are laid over each other. -/
structure Lays : Prop where
  /-- The signs of paths are a point and a bracket. -/
  plain : ∀ name, IsPlain name → loader.pathInto? name = none
  bare : ∀ name, loader.lookup [] name = none
  /-- A source that does not speak of a name leaves it what it has. -/
  passed : ∀ sources source name, source.get? name = none → ¬loader.LeadsInto source name →
    loader.lookup (sources ++ [source]) name = loader.lookup sources name
  /-- A value takes the place of what is below. Only tables and arrays may add to that. -/
  placed : ∀ sources source name raw, loader.pathInto? name = none →
    source.get? name = some raw → ¬loader.LeadsInto source name →
    loader.lookup sources name = none ∨ raw.isCompound = false →
    loader.lookup (sources ++ [source]) name = some raw
  /-- A path makes a table or an array of what it starts with, unless that has a value of its own
  in the same source. -/
  led : ∀ sources source name, loader.pathInto? name = none → loader.LeadsInto source name →
    ∃ raw, loader.lookup (sources ++ [source]) name = some raw ∧
      (raw.isCompound = true ∨ source.get? name = some raw)

/-- What texts look like: a truth value in any case of letters, else an integer of 64 bits, else a
floating-point number, else a text. -/
structure Guesses : Prop where
  truth : ∀ s b, Raw.lowered s = (if b then "true" else "false") → loader.guess s = .boolean b
  integer : ∀ s n, ¬Raw.IsTruth s → Raw.readInteger? s.toList = some n →
    loader.guess s = .integer n
  float : ∀ s x, ¬Raw.IsTruth s → Raw.readInteger? s.toList = none →
    Binary64.read? s.toList = some x → loader.guess s = .float x
  text : ∀ s, Raw.IsText s → loader.guess s = .text s

/-- What values stand for. Tables and arrays stand for nothing a setting can be. -/
structure Converts : Prop where
  boolean : ∀ b, loader.toText? (.boolean b) = some (if b then "true" else "false")
  integer : ∀ n, loader.toText? (.integer n) = some (toString n)
  float : ∀ x, loader.toText? (.float x) = some x.text
  text : ∀ s, loader.toText? (.text s) = some s
  compound : ∀ raw : Raw, raw.isCompound = true →
    loader.toText? raw = none ∧ loader.toCount? raw = none

/-- All that is relied on of a loader. -/
structure Documented : Prop where
  names : loader.Names
  lays : loader.Lays
  guesses : loader.Guesses
  converts : loader.Converts

variable {loader}

/-- The four things that a text can look like. -/
theorem Guesses.cases (guesses : loader.Guesses) (s : String) :
    (∃ b, Raw.lowered s = (if b then "true" else "false") ∧ loader.guess s = .boolean b) ∨
      (∃ n, Raw.readInteger? s.toList = some n ∧ loader.guess s = .integer n) ∨
        (∃ x, Binary64.read? s.toList = some x ∧ loader.guess s = .float x) ∨
          Raw.IsText s ∧ loader.guess s = .text s := by
  by_cases truth : Raw.IsTruth s
  · rcases truth with yes | no
    · exact .inl ⟨true, yes, guesses.truth s true yes⟩
    · exact .inl ⟨false, no, guesses.truth s false no⟩
  cases whole : Raw.readInteger? s.toList with
  | some n => exact .inr (.inl ⟨n, rfl, guesses.integer s n truth whole⟩)
  | none =>
    cases read : Binary64.read? s.toList with
    | some x => exact .inr (.inr (.inl ⟨x, rfl, guesses.float s x truth whole read⟩))
    | none =>
      have text : Raw.IsText s := ⟨truth, whole, read⟩
      exact .inr (.inr (.inr ⟨text, guesses.text s text⟩))

/-- A text never looks like a table or an array. -/
theorem Guesses.isCompound_guess (guesses : loader.Guesses) (s : String) :
    (loader.guess s).isCompound = false := by
  obtain ⟨b, _, said⟩ | ⟨n, _, said⟩ | ⟨x, _, said⟩ | ⟨_, said⟩ := guesses.cases s
  all_goals
    rw [said]
    rfl

end Loader

end Courier
