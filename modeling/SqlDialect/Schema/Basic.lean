import SqlDialect.Expr.Literal
import SqlDialect.Text.Ascii
import SqlDialect.TypeCode

/-!
This module contains the objects of a schema: tables with their columns, keys and indexes, and
sequences.
-/

namespace SqlDialect

structure Column where
  name : String
  typeCode : TypeCode := .bigInt
  /-- The name of the type, if it is not to be derived from the type code. -/
  typeName : Option String := none
  size : Nat := 0
  decimals : Nat := 0
  notNull : Bool := false
  /-- The database gives a new row its value. -/
  autoAssigned : Bool := false
  /-- A value written in SQL. -/
  default : Option String := none
  deriving DecidableEq

structure PrimaryKey where
  columns : List String
  name : Option String := none
  deriving DecidableEq

inductive ReferentialAction where
  /-- Nothing is said. A key that says nothing about deletion is not known to the database. -/
  | unspecified
  | restrict
  | cascade
  | setNull
  | setDefault
  deriving DecidableEq, Repr

structure ForeignKey where
  columns : List String
  referencedTable : String
  primaryKeyColumns : List String
  name : Option String := none
  constantColumns : List (String × Literal) := []
  constantPrimaryKeyColumns : List (String × Literal) := []
  deleteAction : ReferentialAction := .restrict
  updateAction : ReferentialAction := .unspecified
  deferred : Bool := false
  deriving DecidableEq

def ForeignKey.hasConstants (fk : ForeignKey) : Bool :=
  !fk.constantColumns.isEmpty || !fk.constantPrimaryKeyColumns.isEmpty

structure Unique where
  columns : List String
  name : Option String := none
  deferred : Bool := false
  deriving DecidableEq

structure Index where
  name : String
  columns : List String
  unique : Bool := false
  deriving DecidableEq

def qualifiedName (schema : Option String) (name : String) : String :=
  match schema with
  | some schema => s!"{schema}.{name}"
  | none => name

structure Sequence where
  name : String
  schema : Option String := none
  start : Option Int := none
  increment : Int := 1
  /-- How many values are taken from the sequence at a time. -/
  allocate : Int := 1
  deriving DecidableEq

def Sequence.fullName (s : Sequence) : String := qualifiedName s.schema s.name

structure Table where
  name : String
  schema : Option String := none
  columns : List Column := []
  primaryKey : Option PrimaryKey := none
  foreignKeys : List ForeignKey := []
  uniques : List Unique := []
  indexes : List Index := []
  deriving DecidableEq

namespace Table

def fullName (t : Table) : String := qualifiedName t.schema t.name

def column? (t : Table) (name : String) : Option Column :=
  t.columns.find? (Text.eqIgnoringCase ·.name name)

def primaryKeyColumns (t : Table) : List String :=
  match t.primaryKey with
  | some pk => pk.columns
  | none => []

def autoAssignedColumns (t : Table) : List Column := t.columns.filter (·.autoAssigned)

end Table

end SqlDialect
