import SqlDialect.Command.Basic
import SqlDialect.Profile.Serialized
import SqlDialect.Schema.ColumnType
import SqlDialect.Server.Variables
import SqlDialect.Settings.Load

/-!
This module contains what commands do: what they print, and how they end.
-/

namespace SqlDialect

structure Outcome where
  exitCode : Nat := 0
  output : String := ""
  /-- What is printed beside the output when something goes wrong. -/
  errors : String := ""
  deriving DecidableEq, Repr

namespace Outcome

def print (s : String) : Outcome := { output := s ++ "\n" }

def fail (s : String) : Outcome := { exitCode := 1, errors := s ++ "\n" }

end Outcome

namespace Command

def programVersion : String := "quarry 0.1.0"

def usage : String :=
  "Usage: quarry profile [<vendor>] [--config <file>]\n"
    ++ "       quarry detect [<product>] [--version <version>] [--url <url>]\n"
    ++ "       quarry type-name <vendor> <code> [--size <n>] [--decimals <n>]\n"

def showProfile (p : Except SettingsError Profile) : Outcome :=
  match p with
  | .ok p => .print (p.toJson.pretty 0)
  | .error e => .fail s!"Configuration error: {e.message}"

def showServer (r : Except ServerVariableError ServerReport) : Outcome :=
  match r with
  | .ok r => .print s!"{r.vendor.name} ({r.profile.platform})"
  | .error e => .fail s!"Error: {e.message}"

def run (w : World) : Command → Outcome
  | .profile (some vendor) _ => showProfile (.ok vendor.profile)
  | .profile none config => showProfile do
    let settings ←
      match config with
      | some path => Settings.ofFile w path
      | none => Settings.load w
    settings.profile w.environment
  | .detect (some product) version url =>
    showServer (.ok { product, version := version.getD "", url := url.getD "" })
  | .detect none _ _ => showServer (ServerReport.ofEnvironment w.environment)
  | .typeName vendor code size decimals => .print (vendor.profile.typeName code size decimals)

def execute (w : World) (args : List String) : Outcome :=
  match read args with
  | .ok command => command.run w
  | .error .usage => { exitCode := 2, errors := usage }
  | .error .help => { output := usage }
  | .error .version => .print programVersion

end Command

end SqlDialect
