import SqlDialect.Settings.Basic
import SqlDialect.Settings.World

/-!
This module contains the places where settings are looked for.
-/

namespace SqlDialect
namespace Settings

def ofFile (w : World) (path : String) : Except SettingsError Settings :=
  match w.file path with
  | .missing => .error (.fileNotFound path)
  | .unreadable reason => .error (.unreadable reason)
  | .text s => read s

def configVariable : String := "QUARRY_CONFIG"

def localConfig : String := "quarry.toml"

/--
Settings from the first place where there are any: the file that a variable names, the working
directory, and the directory of the user.
-/
def load (w : World) : Except SettingsError Settings :=
  match w.environment.lookup? configVariable with
  | some path => ofFile w path
  | none =>
    match (localConfig :: w.userConfig.toList).find? (w.file · ≠ .missing) with
    | some path => ofFile w path
    | none => .ok {}

end Settings
end SqlDialect
