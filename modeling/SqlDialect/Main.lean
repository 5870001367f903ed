import SqlDialect.Command.Run

/-!
This module contains the program. It looks at the variables and files that its command needs, runs
the command, and prints the outcome.
-/

namespace SqlDialect

def readVariables (names : List String) : IO (List (String × String)) := do
  let found ← names.mapM fun name => return (name, ← IO.getEnv name)
  return found.filterMap fun (name, value) => value.map (name, ·)

def readFileState (path : String) : IO FileState := do
  try
    return .text (← IO.FS.readFile path)
  catch
    | .noFileOrDirectory .. | .inappropriateType .. => return .missing
    | e => return .unreadable (toString e)

def findUserConfig : IO (Option String) := do
  match ← IO.getEnv "XDG_CONFIG_HOME", ← IO.getEnv "HOME" with
  | some dir, home =>
    if dir.startsWith "/" then
      return some s!"{dir}/quarry/config.toml"
    else
      return home.map fun home => s!"{home}/.config/quarry/config.toml"
  | none, home => return home.map fun home => s!"{home}/.config/quarry/config.toml"

def observe (command : Command) : IO World := do
  let set ← readVariables
    [Settings.configVariable, ServerReport.productVariable, ServerReport.versionVariable,
      ServerReport.urlVariable]
  let userConfig ← findUserConfig
  let config :=
    match command with
    | .profile none (some path) => [path]
    | _ => []
  let paths := config ++ (set.lookup Settings.configVariable).toList
    ++ [Settings.localConfig] ++ userConfig.toList
  let files ← paths.mapM fun path => return (path, ← readFileState path)
  let referenced := files.flatMap fun (_, state) =>
    match state with
    | .text s => (Settings.read s).toOption.elim [] (·.dialect.references)
    | _ => []
  return {
    environment := ⟨(set ++ (← readVariables referenced)).map .ofTexts⟩
    file := fun path => (files.lookup path).getD .missing
    userConfig }

end SqlDialect

open SqlDialect

def main (args : List String) : IO UInt32 := do
  let world ←
    match Command.read args with
    | .ok command => observe command
    | .error _ => pure {}
  let outcome := Command.execute world args
  IO.print outcome.output
  IO.eprint outcome.errors
  return outcome.exitCode.toUInt32
