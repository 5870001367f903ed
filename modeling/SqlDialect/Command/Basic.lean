import SqlDialect.Command.Arguments
import SqlDialect.Text.Numeral
import SqlDialect.TypeCode
import SqlDialect.Vendor

/-!
This module contains the commands and how they are called.
-/

namespace SqlDialect

inductive Command where
  /-- Print the profile of a vendor, or the one that settings ask for. -/
  | profile (vendor : Option Vendor) (config : Option String)
  /-- Print the vendor of a server, or of the one that the environment describes. -/
  | detect (product version url : Option String)
  /-- Print the name of a column type. -/
  | typeName (vendor : Vendor) (code : TypeCode) (size decimals : Nat)
  deriving DecidableEq

namespace Command

def readCount? (s : String) : Option Nat :=
  match s.toList with
  | '-' :: cs => if cs.head? = some '+' then none else Text.readNumeral? 1 cs
  | cs => Text.readNumeral? Text.bound32 cs

def profileSpec : CommandSpec :=
  { options := [{ name := "config", short := some 'c', accepts := (!·.isEmpty) }]
    values := [fun s => (Vendor.read s).toOption.isSome] }

def detectSpec : CommandSpec :=
  { options := [{ name := "version" }, { name := "url" }]
    values := [fun _ => true] }

def typeNameSpec : CommandSpec :=
  { options := [
      { name := "size", accepts := fun s => (readCount? s).isSome },
      { name := "decimals", accepts := fun s => (readCount? s).isSome }]
    values := [
      fun s => (Vendor.read s).toOption.isSome,
      fun s => (TypeCode.read s).toOption.isSome] }

def readProfile (args : List String) : Except Stop Command := do
  let a ← Arguments.read profileSpec {} args
  return .profile ((a.value? 0).bind fun s => (Vendor.read s).toOption) (a.option? "config")

def readDetect (args : List String) : Except Stop Command := do
  let a ← Arguments.read detectSpec {} args
  return .detect (a.value? 0) (a.option? "version") (a.option? "url")

def readTypeName (args : List String) : Except Stop Command := do
  let a ← Arguments.read typeNameSpec {} args
  let vendor? := (a.value? 0).bind fun s => (Vendor.read s).toOption
  let code? := (a.value? 1).bind fun s => (TypeCode.read s).toOption
  match vendor?, code? with
  | some vendor, some code =>
    return .typeName vendor code (((a.option? "size").bind readCount?).getD 0)
      (((a.option? "decimals").bind readCount?).getD 0)
  | _, _ => throw .usage

def readGlobalLetters : List Char → Except Stop Unit
  | [] => .ok ()
  | 'v' :: cs => readGlobalLetters cs
  | 'h' :: _ => .error .help
  | 'V' :: _ => .error .version
  | _ => .error .usage

def isHelpTopic : List String → Bool
  | [] => true
  | [name] => ["profile", "detect", "type-name", "help"].contains name
  | _ => false

def read : List String → Except Stop Command
  | [] => .error .usage
  | arg :: args => do
    match ArgumentForm.of arg with
    | .separator => .error .usage
    | .long "verbose" none => read args
    | .long "help" none => .error .help
    | .long "version" none => .error .version
    | .long _ _ => .error .usage
    | .short letters =>
      readGlobalLetters letters
      read args
    | .value =>
      match arg with
      | "profile" => readProfile args
      | "detect" => readDetect args
      | "type-name" => readTypeName args
      | "help" => .error (if isHelpTopic args then .help else .usage)
      | _ => .error .usage

end Command

end SqlDialect
