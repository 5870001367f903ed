import SqlDialect.Ddl.Statement
import SqlDialect.Identifier.Repair

/-!
This module contains the statements for sequences, and for the sequences and triggers by which
columns are filled where the database does not do so itself.
-/

namespace SqlDialect

namespace Sequence

/--
Each value that is taken from the database stands for a block of values. The product wraps around in
64 bits.
-/
def step? (s : Sequence) : Option Int :=
  if 1 ≤ s.increment ∨ 1 ≤ s.allocate then
    some (Int64.ofInt s.increment * Int64.ofInt s.allocate).toInt
  else
    none

def create (s : Sequence) (p : Profile) : Compile (List DdlStatement) := do
  p.checkNameLength s.name .sequence
  return [.createSequence s.objectName (s.start.filter (· ≠ 0)) s.step?]

def drop (s : Sequence) : List DdlStatement := [.dropSequence s.objectName]

end Sequence

structure AutoAssignNames where
  sequence : String
  trigger : String
  deriving DecidableEq, Repr

namespace AutoAssignNames

/--
The names for a column of a table. They differ in their last three characters.
-/
def ofColumn (p : Profile) (t : Table) (c : Column) : Compile AutoAssignNames := do
  let sequence ← p.repairName s!"{t.name}_{c.name}_SEQ" .autoAssign .empty false
  let cs := sequence.toList
  return ⟨sequence, String.ofList (cs.take (cs.length - 3) ++ "TRG".toList)⟩

def create (names : AutoAssignNames) (t : Table) (c : Column) : List DdlStatement :=
  [.createAssignSequence names.sequence,
    .createAssignTrigger names.trigger names.sequence t.objectName c.name]

end AutoAssignNames

end SqlDialect
