import SqlDialect.Environment
import SqlDialect.Profile.Overrides
import SqlDialect.Server.Report
import SqlDialect.Toml.Decode
import SqlDialect.Toml.Document

/-!
This module contains settings: which dialect is wanted and how its profile is adjusted. Settings are
written in TOML.
-/

namespace SqlDialect

structure DialectSettings where
  vendor : Option Vendor := none
  /-- What a server calls itself. If it is given the profile is that of the server. -/
  product : Option String := none
  version : Option String := none
  url : Option String := none
  overrides : Overrides := {}

structure Settings where
  dialect : DialectSettings := {}

inductive SettingsError where
  | fileNotFound (path : String)
  | unreadable (reason : String)
  | malformed
  | unset (variable_ : UnsetVariable)
  | invalid (cause : OverrideError)
  deriving DecidableEq

def SettingsError.message : SettingsError → String
  | .fileNotFound path => s!"Config file not found: {path}"
  | .unreadable reason => s!"Failed to read config file: {reason}"
  | .malformed => "Failed to parse config file"
  | .unset v => s!"Missing environment variable: {v.name}"
  | .invalid cause => s!"Invalid configuration: {cause.message}"

open Toml.Value

namespace Overrides

def fieldNames : List String := [
  "join_syntax", "range_position", "enable", "disable", "max_table_name_length",
  "max_column_name_length", "max_constraint_name_length", "max_index_name_length",
  "max_sequence_name_length", "max_auto_assign_name_length", "reserved_words", "type_names",
  "for_update_clause", "delimit_identifiers", "quote_style", "constraint_name_mode",
  "use_triggers_for_auto_assign"]

def ofToml? (v : Toml.Value) : Option Overrides := do
  let get ← v.record? fieldNames
  return {
    joinSyntax := ← field? get "join_syntax" keyed?
    rangePosition := ← field? get "range_position" keyed?
    enable := (← field? get "enable" (list? keyed?)).getD []
    disable := (← field? get "disable" (list? keyed?)).getD []
    maxTableNameLength := ← field? get "max_table_name_length" nat?
    maxColumnNameLength := ← field? get "max_column_name_length" nat?
    maxConstraintNameLength := ← field? get "max_constraint_name_length" nat?
    maxIndexNameLength := ← field? get "max_index_name_length" nat?
    maxSequenceNameLength := ← field? get "max_sequence_name_length" nat?
    maxAutoAssignNameLength := ← field? get "max_auto_assign_name_length" nat?
    reservedWords := (← field? get "reserved_words" (list? string?)).getD []
    typeNames := (← field? get "type_names" textMap?).getD []
    forUpdateClause := ← field? get "for_update_clause" string?
    delimitIdentifiers := ← field? get "delimit_identifiers" bool?
    quoteStyle := ← field? get "quote_style" keyed?
    constraintNaming := ← field? get "constraint_name_mode" keyed?
    triggersForAutoAssign := ← field? get "use_triggers_for_auto_assign" bool? }

end Overrides

namespace DialectSettings

def fieldNames : List String := ["vendor", "product", "version", "url", "overrides"]

def ofToml? (v : Toml.Value) : Option DialectSettings := do
  let get ← v.record? fieldNames
  return {
    vendor := ← field? get "vendor" keyed?
    product := ← field? get "product" string?
    version := ← field? get "version" string?
    url := ← field? get "url" string?
    overrides := (← field? get "overrides" Overrides.ofToml?).getD {} }

def server? (d : DialectSettings) (env : Environment) :
    Except UnsetVariable (Option ServerReport) := do
  match d.product with
  | none => return none
  | some product =>
    return some {
      product := ← Reference.expand env product
      version := ← Reference.expand env (d.version.getD "")
      url := ← Reference.expand env (d.url.getD "") }

def references (d : DialectSettings) : List String :=
  [d.product, d.version, d.url].flatMap fun s => Reference.names (s.getD "")

def base (d : DialectSettings) (env : Environment) : Except UnsetVariable Profile := do
  match ← d.server? env with
  | some server => return server.profile
  | none => return (d.vendor.getD .generic).profile

end DialectSettings

namespace Settings

def read (s : String) : Except SettingsError Settings :=
  let settings? : Option Settings := do
    let get ← (← Toml.read? s).record? ["dialect"]
    return { dialect := (← field? get "dialect" DialectSettings.ofToml?).getD {} }
  match settings? with
  | some settings => .ok settings
  | none => .error .malformed

def profile (s : Settings) (env : Environment) : Except SettingsError Profile := do
  let base ← (s.dialect.base env).mapError .unset
  if s.dialect.overrides.isEmpty then
    return base
  (s.dialect.overrides.apply base).mapError .invalid

end Settings

end SqlDialect
