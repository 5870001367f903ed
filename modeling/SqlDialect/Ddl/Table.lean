import SqlDialect.Ddl.Sequence
import SqlDialect.Schema.ColumnType

/-!
This module contains the statements for tables, with their columns, constraints and indexes.
-/

namespace SqlDialect

namespace ReferentialAction

def deleteCapability? : ReferentialAction → Option Capability
  | .unspecified => none
  | .restrict => some .restrictDeleteAction
  | .cascade => some .cascadeDeleteAction
  | .setNull => some .nullDeleteAction
  | .setDefault => some .defaultDeleteAction

def updateCapability? : ReferentialAction → Option Capability
  | .unspecified => none
  | .restrict => some .restrictUpdateAction
  | .cascade => some .cascadeUpdateAction
  | .setNull => some .nullUpdateAction
  | .setDefault => some .defaultUpdateAction

end ReferentialAction

namespace Unique

def isSupported (u : Unique) (p : Profile) : Bool :=
  p.supports .uniqueConstraints && (!u.deferred || p.supports .deferredConstraints)

def constraint (u : Unique) (p : Profile) : Compile Constraint := do
  u.name.forM (p.checkNameLength · .constraint)
  return ⟨u.name, .unique u.columns u.deferred⟩

end Unique

namespace Table

def isUniqueColumn (t : Table) (c : Column) : Bool :=
  t.uniques.any (·.columns.any (Text.eqIgnoringCase · c.name))

/--
The declaration of a column. A column that is added to a table gets no default, and may be null,
because the table may hold rows already.
-/
def declareColumn (t : Table) (p : Profile) (c : Column) (added : Bool) :
    Compile ColumnDeclaration := do
  p.checkNameLength c.name .column
  return {
    name := c.name
    typeName := p.columnType c
    default := if added || c.autoAssigned then none else c.default
    notNull :=
      !added && (c.notNull || !p.supports .nullUniqueColumn && t.isUniqueColumn c)
    autoAssign :=
      if c.autoAssigned && p.supports .autoAssign then p.clauses.autoAssign else none }

/--
The primary key, if the dialect creates it. A reserved word cannot be its name.
-/
def primaryKeyConstraint? (t : Table) (p : Profile) : Option Constraint :=
  if p.requirements.createPrimaryKeys then
    t.primaryKey.map fun pk => ⟨pk.name.filter (!p.isReserved ·), .primaryKey pk.columns⟩
  else
    none

def createAutoAssign (t : Table) (p : Profile) : Compile (List DdlStatement) := do
  if p.requirements.triggersForAutoAssign then
    let statements ← t.autoAssignedColumns.mapM fun c => do
      return (← AutoAssignNames.ofColumn p t c).create t c
    return statements.flatten
  else
    return []

def create (t : Table) (p : Profile) : Compile (List DdlStatement) := do
  p.checkNameLength t.name .table
  let uniques ← (t.uniques.filter (·.isSupported p)).mapM (·.constraint p)
  let columns ← t.columns.mapM (t.declareColumn p · false)
  let constraints := (t.primaryKeyConstraint? p).toList ++ uniques
  return .createTable t.objectName columns constraints :: (← t.createAutoAssign p)

def drop (t : Table) : List DdlStatement := [.dropTable t.objectName]

def addColumn (t : Table) (p : Profile) (c : Column) : Compile (List DdlStatement) := do
  p.require .alterTableAddColumn
  return [.addColumn t.objectName (← t.declareColumn p c true)]

def dropColumn (t : Table) (p : Profile) (column : String) : Compile (List DdlStatement) := do
  p.require .alterTableDropColumn
  return [.dropColumn t.objectName column]

def addPrimaryKey (t : Table) (p : Profile) : List DdlStatement :=
  (t.primaryKeyConstraint? p).toList.map (.addConstraint t.objectName)

/--
What happens to the rows of a table when a row they refer to is deleted. A column that is never null
is not set to null.
-/
def effectiveDeleteAction (t : Table) (fk : ForeignKey) : ReferentialAction :=
  if fk.deleteAction = .setNull ∧ fk.columns.any fun c => (t.column? c).any (·.notNull) then
    .unspecified
  else
    fk.deleteAction

def foreignKeyConstraint? (t : Table) (p : Profile) (fk : ForeignKey) :
    Compile (Option Constraint) := do
  p.require .foreignKeys
  if fk.deleteAction = .unspecified then
    return none
  if fk.deferred then
    p.require .deferredConstraints
  fk.deleteAction.deleteCapability?.forM p.require
  fk.updateAction.updateCapability?.forM p.require
  fk.name.forM (p.checkNameLength · .constraint)
  return some ⟨fk.name,
    .foreignKey fk.columns fk.referencedTable fk.primaryKeyColumns (t.effectiveDeleteAction fk)
      fk.updateAction fk.deferred⟩

def addForeignKey (t : Table) (p : Profile) (fk : ForeignKey) : Compile (List DdlStatement) := do
  return (← t.foreignKeyConstraint? p fk).toList.map (.addConstraint t.objectName)

def addForeignKeys (t : Table) (p : Profile) : Compile (List DdlStatement) :=
  return (← t.foreignKeys.mapM (t.addForeignKey p)).flatten

def addUnique (t : Table) (p : Profile) (u : Unique) : Compile (List DdlStatement) := do
  p.require .uniqueConstraints
  if u.deferred then
    p.require .deferredConstraints
  return [.addConstraint t.objectName (← u.constraint p)]

def dropConstraint (t : Table) (name : String) : List DdlStatement :=
  [.dropConstraint t.objectName name]

def indexName (t : Table) (i : Index) : ObjectName := ⟨t.schema, i.name⟩

def createIndex (t : Table) (p : Profile) (i : Index) : Compile (List DdlStatement) := do
  p.checkNameLength i.name .index
  return [.createIndex (t.indexName i) t.objectName i.columns i.unique]

def createIndexes (t : Table) (p : Profile) : Compile (List DdlStatement) :=
  return (← t.indexes.mapM (t.createIndex p)).flatten

def dropIndex (t : Table) (i : Index) : List DdlStatement := [.dropIndex (t.indexName i)]

end Table

end SqlDialect
