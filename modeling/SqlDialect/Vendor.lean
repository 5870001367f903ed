import SqlDialect.Keyed
import SqlDialect.Text.Lowercase
import SqlDialect.UnknownName

/-!
This module contains the families of databases that have a profile of their own.
-/

namespace SqlDialect

inductive Vendor where
  | generic
  | postgres
  | oracle
  | db2
  | mySql
  | sqlServer
  deriving DecidableEq, Repr

namespace Vendor

def all : List Vendor := [.generic, .postgres, .oracle, .db2, .mySql, .sqlServer]

def name : Vendor → String
  | .generic => "Generic"
  | .postgres => "PostgreSQL"
  | .oracle => "Oracle"
  | .db2 => "DB2"
  | .mySql => "MySQL"
  | .sqlServer => "SQLServer"

def key : Vendor → String
  | .generic => "generic"
  | .postgres => "postgres"
  | .oracle => "oracle"
  | .db2 => "db2"
  | .mySql => "mysql"
  | .sqlServer => "sqlserver"

instance : Keyed Vendor := ⟨all, key⟩

def aliases : Vendor → List String
  | .generic => ["generic", "ansi", "sql92"]
  | .postgres => ["postgres", "postgresql", "pg"]
  | .oracle => ["oracle"]
  | .db2 => ["db2", "as400"]
  | .mySql => ["mysql", "mariadb"]
  | .sqlServer => ["sqlserver", "mssql", "tsql"]

def read (s : String) : Except UnknownName Vendor :=
  let wanted := Text.lower s
  match all.find? (·.aliases.contains wanted) with
  | some v => .ok v
  | none => .error (.vendor wanted)

end Vendor

end SqlDialect
