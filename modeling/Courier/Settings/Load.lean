import Courier.Settings.Layers
import Courier.Settings.Loader

/-! The loader that runs: documents in TOML, and layers in which names may be paths. -/
namespace Courier

/-- The file may begin with a byte order mark, and the document in it with another. -/
def Loader.standard : Loader where
  read? text := (Toml.read? (Toml.withoutMark text.toList)).map Layers.ofDocument
  nameUnder? := Layers.nameUnder?
  guess := Raw.guess
  fromEnvironment := Layers.ofVariables
  pathInto? := Layers.pathInto?
  lookup sources name := (Layers.laid sources).get? name
  toCount? := Raw.toCount?
  toText? := Raw.toText?

/-- The settings that a file and the variables of the environment give. -/
def Settings.load (file : SettingsFile) (environment : List (String × String)) :
    Except SettingsFault Settings :=
  Loader.standard.load file environment

end Courier
