import SqlDialect.Schema.Basic
import SqlDialect.Text.Template
import SqlDialect.Token

/-!
This module contains the statements that create, change and drop the objects of a schema, and their
text in a dialect.
-/

namespace SqlDialect

structure ObjectName where
  schema : Option String
  name : String
  deriving DecidableEq, Repr

namespace ObjectName

def tokens (n : ObjectName) : List Token := Token.qualified n.schema n.name

end ObjectName

def Table.objectName (t : Table) : ObjectName := ⟨t.schema, t.name⟩

def Sequence.objectName (s : Sequence) : ObjectName := ⟨s.schema, s.name⟩

structure ColumnDeclaration where
  name : String
  typeName : String
  default : Option String := none
  notNull : Bool := false
  /-- The clause by which the database gives new rows their values. -/
  autoAssign : Option String := none
  deriving DecidableEq, Repr

inductive ConstraintRule where
  | primaryKey (columns : List String)
  | unique (columns : List String) (deferred : Bool)
  | foreignKey (columns : List String) (referencedTable : String) (referencedColumns : List String)
      (deleteAction updateAction : ReferentialAction) (deferred : Bool)
  deriving DecidableEq, Repr

structure Constraint where
  name : Option String
  rule : ConstraintRule
  deriving DecidableEq, Repr

inductive DdlStatement where
  | createTable (table : ObjectName) (columns : List ColumnDeclaration)
      (constraints : List Constraint)
  | dropTable (table : ObjectName)
  | addColumn (table : ObjectName) (column : ColumnDeclaration)
  | dropColumn (table : ObjectName) (column : String)
  | addConstraint (table : ObjectName) (constraint : Constraint)
  | dropConstraint (table : ObjectName) (name : String)
  | createIndex (index table : ObjectName) (columns : List String) (unique : Bool)
  | dropIndex (index : ObjectName)
  | createSequence (sequence : ObjectName) (start increment : Option Int)
  | dropSequence (sequence : ObjectName)
  /-- The sequence that an auto-assigned column is filled from. -/
  | createAssignSequence (sequence : String)
  /-- The trigger that fills an auto-assigned column. -/
  | createAssignTrigger (trigger sequence : String) (table : ObjectName) (column : String)
  deriving DecidableEq, Repr

/--
The text of an action. What databases do anyway is not written.
-/
def ReferentialAction.text? : ReferentialAction → Option String
  | .cascade => some "CASCADE"
  | .setNull => some "SET NULL"
  | .setDefault => some "SET DEFAULT"
  | .unspecified | .restrict => none

def columnTokens (columns : List String) : List Token :=
  Token.parens (Token.commaSep (columns.map fun c => [.ident c]))

namespace ColumnDeclaration

def tokens (c : ColumnDeclaration) : List Token :=
  [.ident c.name, .space, .raw c.typeName]
    ++ c.default.elim [] (fun d => [.space, .keyword .default_, .space, .raw d])
    ++ (if c.notNull then [.space, .keyword .notNull] else [])
    ++ c.autoAssign.elim [] fun clause => [.space, .raw clause]

end ColumnDeclaration

namespace ConstraintRule

def keyword : ConstraintRule → Keyword
  | .primaryKey _ => .primaryKey
  | .unique .. => .unique
  | .foreignKey .. => .foreignKey

def deferralTokens (p : Profile) (deferred : Bool) : List Token :=
  (if deferred then [.space, .keyword .initiallyDeferred] else [])
    ++ if p.supports .deferredConstraints then [.space, .keyword .deferrable] else []

def actionTokens (event : Keyword) (action : ReferentialAction) : List Token :=
  action.text?.elim [] fun text => [.space, .keyword .on, .space, .keyword event, .space, .raw text]

def tokens (p : Profile) : ConstraintRule → List Token
  | .primaryKey columns => columnTokens columns
  | .unique columns deferred => columnTokens columns ++ deferralTokens p deferred
  | .foreignKey columns table referenced deleteAction updateAction deferred =>
    columnTokens columns ++ [.space, .keyword .references, .space, .ident table, .space]
      ++ columnTokens referenced ++ actionTokens .delete deleteAction
      ++ actionTokens .update updateAction ++ deferralTokens p deferred

end ConstraintRule

namespace Constraint

def tokens (p : Profile) (c : Constraint) : List Token :=
  let at_ (place : ConstraintNaming) (ts : String → List Token) : List Token :=
    if p.naming.constraintNaming = place then c.name.elim [] ts else []
  at_ .before (fun name => [.keyword .constraint, .space, .ident name, .space])
    ++ [.keyword c.rule.keyword, .space]
    ++ at_ .mid (fun name => [.ident name, .space])
    ++ c.rule.tokens p
    ++ at_ .after fun name => [.space, .keyword .constraint, .space, .ident name]

end Constraint

namespace DdlStatement

def alterTokens (table : ObjectName) : List Token :=
  [.keyword .alter, .space, .keyword .table, .space] ++ table.tokens ++ [.space]

def indexTokens (index table : ObjectName) (columns : List String) (unique : Bool) : List Token :=
  [.keyword .create, .space] ++ (if unique then [.keyword .unique, .space] else [])
    ++ [.keyword .index, .space] ++ index.tokens ++ [.space, .keyword .on, .space]
    ++ table.tokens ++ [.space] ++ columnTokens columns

def sequenceTokens (sequence : ObjectName) (start increment : Option Int) : List Token :=
  [.keyword .create, .space, .keyword .sequence, .space] ++ sequence.tokens
    ++ start.elim [] (fun n => [.space, .keyword .startWith, .space, .int n])
    ++ increment.elim [] fun n => [.space, .keyword .incrementBy, .space, .int n]

def tokens (p : Profile) : DdlStatement → List Token
  | .createTable table columns constraints =>
    let parts := columns.map (·.tokens) ++ constraints.map (·.tokens p)
    [.keyword .create, .space, .keyword .table, .space] ++ table.tokens ++ [.space]
      ++ Token.parens (Token.commaSep parts)
  | .dropTable table | .createAssignTrigger _ _ table _ => table.tokens
  | .addColumn table column => alterTokens table ++ [.keyword .add, .space] ++ column.tokens
  | .dropColumn table column =>
    alterTokens table ++ [.keyword .drop, .space, .keyword .column, .space, .ident column]
  | .addConstraint table constraint =>
    alterTokens table ++ [.keyword .add, .space] ++ constraint.tokens p
  | .dropConstraint table name =>
    alterTokens table ++ [.keyword .drop, .space, .keyword .constraint, .space, .ident name]
  | .createIndex index table columns unique => indexTokens index table columns unique
  | .dropIndex index => [.keyword .drop, .space, .keyword .index, .space] ++ index.tokens
  | .createSequence sequence start increment => sequenceTokens sequence start increment
  | .dropSequence sequence =>
    [.keyword .drop, .space, .keyword .sequence, .space] ++ sequence.tokens
  | .createAssignSequence _ => []

def layout (p : Profile) (written : String) : DdlStatement → String
  | .dropTable _ => Template.fill p.clauses.dropTable [written]
  | .createAssignSequence sequence => s!"CREATE SEQUENCE {sequence} START WITH 1"
  | .createAssignTrigger trigger sequence _ column =>
    let column := p.quoteIdentifier column
    s!"CREATE OR REPLACE TRIGGER {trigger} BEFORE INSERT ON {written} FOR EACH ROW "
      ++ s!"BEGIN SELECT {sequence}.nextval INTO :new.{column} FROM DUAL; END {trigger};"
  | _ => written

def serialize (p : Profile) (d : DdlStatement) : Compile String :=
  return d.layout p (← Token.serializeAll p (d.tokens p))

def text (p : Profile) (d : DdlStatement) : String := (d.serialize p).toOption.getD ""

end DdlStatement

end SqlDialect
