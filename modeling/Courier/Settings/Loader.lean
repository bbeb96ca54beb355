import Courier.Options.Basic
import Courier.Settings.Raw
import Courier.Table

/-! The client's settings from a file and from the environment, which goes above
the file. Reading files, laying sources over each other and converting values is
the business of a loader, whichever it is. -/
namespace Courier

/-- What settings are loaded with. -/
structure Loader where
  /-- The values at the top of a file, if it is well formed. -/
  read? : String → Option (Table String Raw)
  /-- The name a variable of the environment has behind a start, if it starts so. -/
  nameUnder? : (start name : String) → Option String
  /-- The value that a text looks like. -/
  guess : String → Raw
  /-- The variables with a start as a source of values, of texts or of what these look like. -/
  fromEnvironment : (start : String) → (guessing : Bool) → (environment : List (String × String)) →
    Table String Raw
  /-- The name at the start of a path, if a name is a path that goes on behind it. -/
  pathInto? : String → Option String
  /-- What a name has in sources laid over each other, the later ones on top. -/
  lookup : (sources : List (Table String Raw)) → (name : String) → Option Raw
  /-- The count a value stands for. -/
  toCount? : Raw → Option Nat
  /-- The text a value stands for. -/
  toText? : Raw → Option String

structure Settings where
  capacity : Nat := 256
  inFlightLimit : Nat := 20
  sessionExpirySecs : Nat := 600
  keepAliveSecs : Nat := 60
  clientId : Option String := none
  deriving DecidableEq

/-- The file that settings are asked from. -/
inductive SettingsFile where
  | none
  /-- One is asked for, but there is no such file. -/
  | missing
  | holding (text : String)

inductive SettingsFault where
  | fileMissing
  | fileMalformed
  | unsuitable (setting : String)
  deriving DecidableEq

namespace Settings

/-- The value of a setting, or its default when nothing is said about it. -/
def field {α : Type} (said : String → Option Raw) (name : String) (default : α)
    (convert : Raw → Option α) : Except SettingsFault α :=
  match said name with
  | none => .ok default
  | some raw =>
    match convert raw with
    | none => .error (.unsuitable name)
    | some value => .ok value

/-- Settings of what is said under their names. -/
def ofValues (loader : Loader) (said : String → Option Raw) : Except SettingsFault Settings := do
  let base : Settings := {}
  return {
    capacity := ← field said "message_capacity" base.capacity loader.toCount?
    inFlightLimit := ← field said "parallel_publish_capacity" base.inFlightLimit loader.toCount?
    sessionExpirySecs := ← field said "session_expiry_secs" base.sessionExpirySecs loader.toCount?
    keepAliveSecs := ← field said "keep_alive_secs" base.keepAliveSecs loader.toCount?
    clientId := ← field said "client_id" base.clientId fun raw => (loader.toText? raw).map some }

end Settings

namespace Loader

/-- A file as a source of values, if one is asked for. -/
def source? (loader : Loader) : SettingsFile → Except SettingsFault (Option (Table String Raw))
  | .none => .ok none
  | .missing => .error .fileMissing
  | .holding text =>
    match loader.read? text with
    | none => .error .fileMalformed
    | some source => .ok (some source)

/-- The settings that a file and the variables of the environment give. -/
def load (loader : Loader) (file : SettingsFile) (environment : List (String × String)) :
    Except SettingsFault Settings := do
  let below ← loader.source? file
  let sources := below.toList ++ [loader.fromEnvironment "HERALD" true environment]
  Settings.ofValues loader (loader.lookup sources)

end Loader

/-- The options that settings ask for; a client id they do not give is made up. -/
def Options.ofSettings (s : Settings) (token : Bytes) : Options where
  clientId := s.clientId.getD (Options.generatedId token)
  capacity := s.capacity
  inFlightLimit := s.inFlightLimit
  sessionExpiry := .ofSecs s.sessionExpirySecs
  keepAlive := .ofSecs s.keepAliveSecs

end Courier
