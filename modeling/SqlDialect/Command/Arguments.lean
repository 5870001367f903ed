/-!
This module contains the arguments of a command: options by name, and values by position. An option
takes a value, which follows it or is attached to it, and is given at most once.
-/

namespace SqlDialect

inductive Stop where
  | usage
  /-- Help is asked for. -/
  | help
  /-- The version is asked for. -/
  | version
  deriving DecidableEq, Repr

structure OptionSpec where
  name : String
  short : Option Char := none
  accepts : String → Bool := fun _ => true

structure CommandSpec where
  options : List OptionSpec := []
  /-- What the values may be, one after the other. -/
  values : List (String → Bool) := []

structure Arguments where
  options : List (String × String) := []
  values : List String := []
  deriving DecidableEq, Repr

namespace Arguments

def option? (a : Arguments) (name : String) : Option String := a.options.lookup name

def value? (a : Arguments) (place : Nat) : Option String := a.values[place]?

def addOption (a : Arguments) (o : OptionSpec) (value : String) : Except Stop Arguments :=
  if (a.option? o.name).isNone && o.accepts value then
    .ok { a with options := a.options ++ [(o.name, value)] }
  else
    .error .usage

def addValue (spec : CommandSpec) (a : Arguments) (value : String) : Except Stop Arguments :=
  match spec.values[a.values.length]? with
  | some accepts =>
    if accepts value then .ok { a with values := a.values ++ [value] } else .error .usage
  | none => .error .usage

end Arguments

inductive ArgumentForm where
  /-- `--`, after which all arguments are values. -/
  | separator
  /-- `--name` or `--name=value` -/
  | long (name : String) (value : Option String)
  /-- `-abc` -/
  | short (letters : List Char)
  | value
  deriving DecidableEq, Repr

def ArgumentForm.of (arg : String) : ArgumentForm :=
  match arg.toList with
  | ['-', '-'] => .separator
  | '-' :: '-' :: cs =>
    match cs.span (· ≠ '=') with
    | (name, []) => .long (String.ofList name) none
    | (name, _ :: rest) => .long (String.ofList name) (some (String.ofList rest))
  | '-' :: c :: cs => .short (c :: cs)
  | _ => .value

/--
Letters of short options: either all of them have been dealt with, or the last one is an option,
with the value attached to it if there is one.
-/
inductive LettersRead where
  | done
  | option (o : OptionSpec) (value : Option String)

def readLetters (spec : CommandSpec) : List Char → Except Stop LettersRead
  | [] => .ok .done
  | 'v' :: cs => readLetters spec cs
  | 'h' :: _ => .error .help
  | c :: cs =>
    match spec.options.find? (·.short == some c), cs with
    | none, _ => .error .usage
    | some o, [] => .ok (.option o none)
    | some o, '=' :: cs => .ok (.option o (some (String.ofList cs)))
    | some o, cs => .ok (.option o (some (String.ofList cs)))

namespace Arguments

def read (spec : CommandSpec) (a : Arguments) : List String → Except Stop Arguments
  | [] => .ok a
  | arg :: args => do
    -- the value of an option may be the next argument
    let addOption (o : OptionSpec) (value : Option String) : Except Stop Arguments :=
      match value, args with
      | some value, args => do read spec (← a.addOption o value) args
      | none, value :: args =>
        if ArgumentForm.of value = .value then do
          read spec (← a.addOption o value) args
        else
          .error .usage
      | none, [] => .error .usage
    match ArgumentForm.of arg with
    | .separator => args.foldlM (addValue spec) a
    | .value => read spec (← addValue spec a arg) args
    | .long "verbose" none => read spec a args
    | .long "help" none => .error .help
    | .long name value =>
      match spec.options.find? (·.name == name) with
      | some o => addOption o value
      | none => .error .usage
    | .short letters =>
      match ← readLetters spec letters with
      | .done => read spec a args
      | .option o value => addOption o value
termination_by args => args.length

end Arguments

end SqlDialect
