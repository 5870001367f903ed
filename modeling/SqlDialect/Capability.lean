import SqlDialect.Keyed

/-!
This module contains the features that a dialect may or may not be able to express, and sets of
them.
-/

namespace SqlDialect

inductive Capability where
  | subselect
  | correlatedSubselect
  | having
  | selectForUpdate
  | lockingWithDistinct
  | lockingWithMultipleTables
  | lockingWithOrderBy
  | lockingWithOuterJoin
  | lockingWithInnerJoin
  | lockingWithSelectRange
  | selectStartIndex
  | selectEndIndex
  | modOperator
  | nativeOuterJoin
  | foreignKeys
  | uniqueConstraints
  | deferredConstraints
  | restrictDeleteAction
  | cascadeDeleteAction
  | nullDeleteAction
  | defaultDeleteAction
  | restrictUpdateAction
  | cascadeUpdateAction
  | nullUpdateAction
  | defaultUpdateAction
  | alterTableAddColumn
  | alterTableDropColumn
  | autoAssign
  | nullUniqueColumn
  deriving DecidableEq, Repr

namespace Capability

def all : List Capability := [
    .subselect, .correlatedSubselect, .having, .selectForUpdate, .lockingWithDistinct,
    .lockingWithMultipleTables, .lockingWithOrderBy, .lockingWithOuterJoin,
    .lockingWithInnerJoin, .lockingWithSelectRange, .selectStartIndex, .selectEndIndex,
    .modOperator, .nativeOuterJoin, .foreignKeys, .uniqueConstraints, .deferredConstraints,
    .restrictDeleteAction, .cascadeDeleteAction, .nullDeleteAction, .defaultDeleteAction,
    .restrictUpdateAction, .cascadeUpdateAction, .nullUpdateAction, .defaultUpdateAction,
    .alterTableAddColumn, .alterTableDropColumn, .autoAssign, .nullUniqueColumn]

theorem mem_all (c : Capability) : c ∈ all := by
  cases c <;> decide

def name : Capability → String
  | .subselect => "Subselect"
  | .correlatedSubselect => "CorrelatedSubselect"
  | .having => "Having"
  | .selectForUpdate => "SelectForUpdate"
  | .lockingWithDistinct => "LockingWithDistinct"
  | .lockingWithMultipleTables => "LockingWithMultipleTables"
  | .lockingWithOrderBy => "LockingWithOrderBy"
  | .lockingWithOuterJoin => "LockingWithOuterJoin"
  | .lockingWithInnerJoin => "LockingWithInnerJoin"
  | .lockingWithSelectRange => "LockingWithSelectRange"
  | .selectStartIndex => "SelectStartIndex"
  | .selectEndIndex => "SelectEndIndex"
  | .modOperator => "ModOperator"
  | .nativeOuterJoin => "NativeOuterJoin"
  | .foreignKeys => "ForeignKeys"
  | .uniqueConstraints => "UniqueConstraints"
  | .deferredConstraints => "DeferredConstraints"
  | .restrictDeleteAction => "RestrictDeleteAction"
  | .cascadeDeleteAction => "CascadeDeleteAction"
  | .nullDeleteAction => "NullDeleteAction"
  | .defaultDeleteAction => "DefaultDeleteAction"
  | .restrictUpdateAction => "RestrictUpdateAction"
  | .cascadeUpdateAction => "CascadeUpdateAction"
  | .nullUpdateAction => "NullUpdateAction"
  | .defaultUpdateAction => "DefaultUpdateAction"
  | .alterTableAddColumn => "AlterTableAddColumn"
  | .alterTableDropColumn => "AlterTableDropColumn"
  | .autoAssign => "AutoAssign"
  | .nullUniqueColumn => "NullUniqueColumn"

def description : Capability → String
  | .subselect => "subselects"
  | .correlatedSubselect => "correlated subselects"
  | .having => "HAVING clauses"
  | .selectForUpdate => "SELECT ... FOR UPDATE"
  | .lockingWithDistinct => "locking with DISTINCT"
  | .lockingWithMultipleTables => "locking across multiple tables"
  | .lockingWithOrderBy => "locking with ORDER BY"
  | .lockingWithOuterJoin => "locking with outer joins"
  | .lockingWithInnerJoin => "locking with inner joins"
  | .lockingWithSelectRange => "locking with a row range"
  | .selectStartIndex => "row offsets"
  | .selectEndIndex => "row limits"
  | .modOperator => "the % operator"
  | .nativeOuterJoin => "native outer joins"
  | .foreignKeys => "foreign keys"
  | .uniqueConstraints => "unique constraints"
  | .deferredConstraints => "deferred constraints"
  | .restrictDeleteAction => "ON DELETE RESTRICT"
  | .cascadeDeleteAction => "ON DELETE CASCADE"
  | .nullDeleteAction => "ON DELETE SET NULL"
  | .defaultDeleteAction => "ON DELETE SET DEFAULT"
  | .restrictUpdateAction => "ON UPDATE RESTRICT"
  | .cascadeUpdateAction => "ON UPDATE CASCADE"
  | .nullUpdateAction => "ON UPDATE SET NULL"
  | .defaultUpdateAction => "ON UPDATE SET DEFAULT"
  | .alterTableAddColumn => "ALTER TABLE ... ADD"
  | .alterTableDropColumn => "ALTER TABLE ... DROP COLUMN"
  | .autoAssign => "auto-assigned columns"
  | .nullUniqueColumn => "nullable unique columns"

def key : Capability → String
  | .subselect => "subselect"
  | .correlatedSubselect => "correlated_subselect"
  | .having => "having"
  | .selectForUpdate => "select_for_update"
  | .lockingWithDistinct => "locking_with_distinct"
  | .lockingWithMultipleTables => "locking_with_multiple_tables"
  | .lockingWithOrderBy => "locking_with_order_by"
  | .lockingWithOuterJoin => "locking_with_outer_join"
  | .lockingWithInnerJoin => "locking_with_inner_join"
  | .lockingWithSelectRange => "locking_with_select_range"
  | .selectStartIndex => "select_start_index"
  | .selectEndIndex => "select_end_index"
  | .modOperator => "mod_operator"
  | .nativeOuterJoin => "native_outer_join"
  | .foreignKeys => "foreign_keys"
  | .uniqueConstraints => "unique_constraints"
  | .deferredConstraints => "deferred_constraints"
  | .restrictDeleteAction => "restrict_delete_action"
  | .cascadeDeleteAction => "cascade_delete_action"
  | .nullDeleteAction => "null_delete_action"
  | .defaultDeleteAction => "default_delete_action"
  | .restrictUpdateAction => "restrict_update_action"
  | .cascadeUpdateAction => "cascade_update_action"
  | .nullUpdateAction => "null_update_action"
  | .defaultUpdateAction => "default_update_action"
  | .alterTableAddColumn => "alter_table_add_column"
  | .alterTableDropColumn => "alter_table_drop_column"
  | .autoAssign => "auto_assign"
  | .nullUniqueColumn => "null_unique_column"

instance : Keyed Capability := ⟨all, key⟩

end Capability

def CapabilitySet := Capability → Bool

namespace CapabilitySet

instance : Membership Capability CapabilitySet where
  mem s c := s c = true

instance (c : Capability) (s : CapabilitySet) : Decidable (c ∈ s) :=
  inferInstanceAs (Decidable (s c = true))

def ofList (cs : List Capability) : CapabilitySet := fun c => cs.contains c

def toList (s : CapabilitySet) : List Capability := Capability.all.filter (· ∈ s)

def insert (s : CapabilitySet) (c : Capability) : CapabilitySet := fun d => d == c || s d

def erase (s : CapabilitySet) (c : Capability) : CapabilitySet := fun d => d != c && s d

def insertMany (s : CapabilitySet) (cs : List Capability) : CapabilitySet := cs.foldl insert s

def eraseMany (s : CapabilitySet) (cs : List Capability) : CapabilitySet := cs.foldl erase s

@[ext]
theorem ext {s t : CapabilitySet} (h : ∀ c, c ∈ s ↔ c ∈ t) : s = t :=
  funext fun c => Bool.eq_iff_iff.2 (h c)

@[simp]
theorem mem_ofList {cs : List Capability} {c : Capability} : c ∈ ofList cs ↔ c ∈ cs := by
  change cs.contains c = true ↔ _
  simp

@[simp]
theorem mem_toList {s : CapabilitySet} {c : Capability} : c ∈ s.toList ↔ c ∈ s := by
  simp [toList, Capability.mem_all]

@[simp]
theorem mem_insert {s : CapabilitySet} {c d : Capability} : d ∈ s.insert c ↔ d = c ∨ d ∈ s := by
  change (d == c || s d) = true ↔ d = c ∨ s d = true
  simp

@[simp]
theorem mem_erase {s : CapabilitySet} {c d : Capability} : d ∈ s.erase c ↔ d ≠ c ∧ d ∈ s := by
  change (d != c && s d) = true ↔ d ≠ c ∧ s d = true
  simp

@[simp]
theorem mem_insertMany {s : CapabilitySet} {cs : List Capability} {d : Capability} :
    d ∈ s.insertMany cs ↔ d ∈ cs ∨ d ∈ s := by
  induction cs generalizing s with
  | nil => simp [insertMany]
  | cons c cs ih =>
    have : s.insertMany (c :: cs) = (s.insert c).insertMany cs := rfl
    rw [this, ih, mem_insert, List.mem_cons]
    grind

@[simp]
theorem mem_eraseMany {s : CapabilitySet} {cs : List Capability} {d : Capability} :
    d ∈ s.eraseMany cs ↔ d ∉ cs ∧ d ∈ s := by
  induction cs generalizing s with
  | nil => simp [eraseMany]
  | cons c cs ih =>
    have : s.eraseMany (c :: cs) = (s.erase c).eraseMany cs := rfl
    rw [this, ih, mem_erase, List.mem_cons]
    grind

end CapabilitySet

end SqlDialect
