import SqlDialect.Proofs.Ddl.AutoAssign
import SqlDialect.Proofs.Ddl.TableNames

/-!
This module contains the lengths of the names that statements introduce. A request for new objects
of a schema fails if one of the names it brings along is too long for its kind, except that nobody
looks at the names of primary keys.
-/

namespace SqlDialect

open Text (Occurs)

/-! ## Names that are introduced -/

inductive NameRole where
  | table
  | column
  | primaryKey
  | foreignKey
  | unique
  | index
  | sequence
  /-- The sequence or the trigger for an auto-assigned column. -/
  | autoAssign
  deriving DecidableEq

namespace NameRole

def kind : NameRole → NameKind
  | .table => .table
  | .column => .column
  | .primaryKey | .foreignKey | .unique => .constraint
  | .index => .index
  | .sequence => .sequence
  | .autoAssign => .autoAssign

end NameRole

structure NewName where
  role : NameRole
  text : String
  deriving DecidableEq

namespace NewName

def fits (n : NewName) (p : Profile) : Bool := n.text.length ≤ p.maxNameLength n.role.kind

/--
The name as it stands in a statement. Names for auto-assigned columns are never delimited.
-/
def written (n : NewName) (p : Profile) : String :=
  if n.role = .autoAssign then n.text else p.quoteIdentifier n.text

end NewName

def ConstraintRule.role : ConstraintRule → NameRole
  | .primaryKey _ => .primaryKey
  | .unique .. => .unique
  | .foreignKey .. => .foreignKey

def Constraint.newNames (c : Constraint) : List NewName := c.name.toList.map (⟨c.rule.role, ·⟩)

def Unique.newNames (u : Unique) : List NewName := u.name.toList.map (⟨.unique, ·⟩)

-- A key that says nothing about deletion is not written.
def ForeignKey.newNames (fk : ForeignKey) : List NewName :=
  if fk.deleteAction = .unspecified then [] else fk.name.toList.map (⟨.foreignKey, ·⟩)

def DdlStatement.newNames : DdlStatement → List NewName
  | .createTable table columns constraints =>
    ⟨.table, table.name⟩ :: columns.map (⟨.column, ·.name⟩) ++ constraints.flatMap (·.newNames)
  | .addColumn _ column => [⟨.column, column.name⟩]
  | .addConstraint _ constraint => constraint.newNames
  | .createIndex index .. => [⟨.index, index.name⟩]
  | .createSequence sequence .. => [⟨.sequence, sequence.name⟩]
  | .createAssignSequence sequence => [⟨.autoAssign, sequence⟩]
  | .createAssignTrigger trigger .. => [⟨.autoAssign, trigger⟩]
  | .dropTable _ | .dropColumn .. | .dropConstraint .. | .dropIndex _ | .dropSequence _ => []

/-! ## Requests -/

def Unique.required (u : Unique) : List Capability :=
  .uniqueConstraints :: if u.deferred then [.deferredConstraints] else []

def ForeignKey.required (fk : ForeignKey) : List Capability :=
  .foreignKeys ::
    if fk.deleteAction = .unspecified then
      []
    else
      (if fk.deferred then [.deferredConstraints] else [])
        ++ (fk.deleteAction.deleteCapability?.toList ++ fk.updateAction.updateCapability?.toList)

def Table.keyName? (t : Table) (p : Profile) : Option String :=
  if p.requirements.createPrimaryKeys then
    (t.primaryKey.bind (·.name)).filter (!p.isReserved ·)
  else
    none

/--
A request for new objects of a schema.
-/
inductive Creation where
  | table (t : Table)
  | column (t : Table) (c : Column)
  | primaryKey (t : Table)
  | foreignKey (t : Table) (fk : ForeignKey)
  | unique (t : Table) (u : Unique)
  | index (t : Table) (i : Index)
  | sequence (s : Sequence)

namespace Creation

def statements (p : Profile) : Creation → Compile (List DdlStatement)
  | .table t => t.create p
  | .column t c => t.addColumn p c
  | .primaryKey t => .ok (t.addPrimaryKey p)
  | .foreignKey t fk => t.addForeignKey p fk
  | .unique t u => t.addUnique p u
  | .index t i => t.createIndex p i
  | .sequence s => s.create p

def required : Creation → List Capability
  | .column .. => [.alterTableAddColumn]
  | .foreignKey _ fk => fk.required
  | .unique _ u => u.required
  | .table _ | .primaryKey _ | .index .. | .sequence _ => []

def measured (p : Profile) : Creation → List NewName
  | .table t =>
    ⟨.table, t.name⟩ :: (t.uniques.filter (·.isSupported p)).flatMap (·.newNames)
      ++ t.columns.map (⟨.column, ·.name⟩)
  | .column _ c => [⟨.column, c.name⟩]
  | .primaryKey _ => []
  | .foreignKey _ fk => fk.newNames
  | .unique _ u => u.newNames
  | .index _ i => [⟨.index, i.name⟩]
  | .sequence s => [⟨.sequence, s.name⟩]

def keyName? (p : Profile) : Creation → Option String
  | .table t | .primaryKey t => t.keyName? p
  | _ => none

end Creation

/-! ## Why requests fail -/

namespace Profile

def unsupported? (p : Profile) (capabilities : List Capability) : Option CompileError :=
  (capabilities.find? (!p.supports ·)).map (.unsupported · p.platform)

def tooLong? (p : Profile) (names : List NewName) : Option CompileError :=
  (names.find? (!·.fits p)).map fun n =>
    .nameTooLong n.text n.text.length (p.maxNameLength n.role.kind)

variable {p : Profile}

theorem unsupported?_cons (c : Capability) (capabilities : List Capability)
    : p.unsupported? (c :: capabilities)
        =
      if p.supports c then p.unsupported? capabilities else some (.unsupported c p.platform) := by
  unfold unsupported?
  cases h : p.supports c with
  | true => simp [h]
  | false => simp [h]

theorem tooLong?_append (names names' : List NewName)
    : p.tooLong? (names ++ names') = (p.tooLong? names).or (p.tooLong? names') := by
  rw [tooLong?, List.find?_append, Option.map_or]
  rfl

theorem tooLong?_eq_none_iff {names : List NewName}
    : p.tooLong? names = none ↔ ∀ n ∈ names, n.fits p = true := by
  simp [tooLong?]

end Profile

namespace Compile

variable {α β : Type} {p : Profile} {x : Compile α} {f : α → Compile β}
  {capabilities : List Capability} {names names' : List NewName}

/--
A computation fails exactly if a capability is missing or a name is too long, and tells the first of
them, capabilities before names.
-/
def Checks (p : Profile) (capabilities : List Capability) (names : List NewName) (x : Compile α) :
    Prop :=
  failure? x = (p.unsupported? capabilities).or (p.tooLong? names)

namespace Checks

theorem ok (a : α) : Checks p [] [] (.ok a) := rfl

theorem bind (hx : Checks p [] names x) (hf : ∀ a, Checks p [] names' (f a))
    : Checks p [] (names ++ names') (x >>= f) := by
  unfold Checks at hx ⊢
  rw [Profile.tooLong?_append]
  cases x with
  | ok a =>
    rw [← show _ = p.tooLong? names from hx]
    exact hf a
  | error e =>
    rw [← show _ = p.tooLong? names from hx]
    rfl

theorem map (hx : Checks p capabilities names x) (g : α → β)
    : Checks p capabilities names (x >>= fun a => .ok (g a)) := by
  unfold Checks at hx ⊢
  rw [← hx]
  cases x with
  | ok a => rfl
  | error e => rfl

theorem mapM {as : List α} {names : α → List NewName} (hf : ∀ a, Checks p [] (names a) (f a))
    : Checks p [] (as.flatMap names) (as.mapM f) := by
  induction as with
  | nil => exact ok []
  | cons a as ih =>
    rw [List.mapM_cons, List.flatMap_cons]
    exact (hf a).bind fun b => ih.map (b :: ·)

theorem checkNameLength (p : Profile) (n : NewName)
    : Checks p [] [n] (p.checkNameLength n.text n.role.kind) := by
  unfold Checks Profile.checkNameLength Profile.tooLong?
  by_cases h : n.text.length ≤ p.maxNameLength n.role.kind
  · simp [h, NewName.fits, failure?, Profile.unsupported?]
  · simp [h, NewName.fits, failure?, Profile.unsupported?]

theorem require (c : Capability) (hx : Checks p capabilities names x)
    : Checks p (c :: capabilities) names (p.require c >>= fun _ => x) := by
  unfold Checks Profile.require
  rw [Profile.unsupported?_cons]
  cases p.supports c with
  | true => exact hx
  | false => rfl

theorem require_if {b : Bool} (c : Capability) (hx : Checks p capabilities names x)
    : Checks p ((if b then [c] else []) ++ capabilities) names
        (if b then p.require c >>= fun _ => x else x) := by
  cases b with
  | true => exact hx.require c
  | false => exact hx

theorem require_option (c? : Option Capability) (hx : Checks p capabilities names x)
    : Checks p (c?.toList ++ capabilities) names (c?.forM p.require >>= fun _ => x) := by
  cases c? with
  | some c => exact hx.require c
  | none => exact hx

theorem checkNameLength_option (p : Profile) (role : NameRole) (name? : Option String)
    : Checks p [] (name?.toList.map (⟨role, ·⟩)) (name?.forM (p.checkNameLength · role.kind)) := by
  cases name? with
  | some name => exact checkNameLength p ⟨role, name⟩
  | none => exact ok ()

end Checks
end Compile

open Compile (Checks)

variable {p : Profile}

theorem Unique.checks_constraint (u : Unique) : Checks p [] u.newNames (u.constraint p) :=
  (Checks.checkNameLength_option p .unique u.name).map _

namespace Table

theorem checks_declareColumn (t : Table) (c : Column) (added : Bool)
    : Checks p [] [⟨.column, c.name⟩] (t.declareColumn p c added) :=
  (Checks.checkNameLength p ⟨.column, c.name⟩).map _

theorem checks_createAutoAssign (t : Table) : Checks p [] [] (t.createAutoAssign p) := by
  rw [createAutoAssign_eq]
  exact .ok _

theorem checks_create (t : Table) : Checks p [] (Creation.measured p (.table t)) (t.create p) := by
  have hcolumns : Checks p [] (t.columns.map (⟨.column, ·.name⟩))
      (t.columns.mapM (t.declareColumn p · false)) := by
    rw [List.map_eq_flatMap]
    exact Checks.mapM fun c => t.checks_declareColumn c false
  apply Checks.bind (Checks.checkNameLength p ⟨.table, t.name⟩)
  intro _
  apply Checks.bind (Checks.mapM fun u => u.checks_constraint)
  intro uniques
  rw [← List.append_nil (t.columns.map _)]
  apply hcolumns.bind
  intro columns
  exact t.checks_createAutoAssign.map _

theorem checks_foreignKeyConstraint? (t : Table) (fk : ForeignKey)
    : Checks p fk.required fk.newNames (t.foreignKeyConstraint? p fk) := by
  unfold foreignKeyConstraint? ForeignKey.required ForeignKey.newNames
  apply Checks.require
  by_cases h : fk.deleteAction = .unspecified
  · rw [if_pos h, if_pos h, if_pos h]
    exact .ok none
  · rw [if_neg h, if_neg h, if_neg h]
    apply Checks.require_if
    apply Checks.require_option
    rw [← List.append_nil fk.updateAction.updateCapability?.toList]
    apply Checks.require_option
    exact (Checks.checkNameLength_option p .foreignKey fk.name).map _

theorem checks_addUnique (t : Table) (u : Unique)
    : Checks p u.required u.newNames (t.addUnique p u) := by
  unfold addUnique Unique.required
  apply Checks.require
  rw [← List.append_nil (if u.deferred = true then _ else _)]
  apply Checks.require_if
  exact u.checks_constraint.map _

end Table

namespace Creation

theorem checks_statements (p : Profile) (r : Creation)
    : Checks p r.required (r.measured p) (r.statements p) := by
  cases r with
  | table t => exact t.checks_create
  | column t c => exact ((t.checks_declareColumn c true).map _).require _
  | primaryKey t => exact .ok _
  | foreignKey t fk => exact (t.checks_foreignKeyConstraint? fk).map _
  | unique t u => exact t.checks_addUnique u
  | index t i => exact (Checks.checkNameLength p ⟨.index, i.name⟩).map _
  | sequence s => exact (Checks.checkNameLength p ⟨.sequence, s.name⟩).map _

end Creation

/-! ## Names in texts -/

namespace Token

theorem occurs_ident (p : Profile) {name : String} {ts : List Token} (h : .ident name ∈ ts)
    : Occurs (p.quoteIdentifier name) (writeAll p ts) :=
  (Occurs.refl _).join (List.mem_map_of_mem h)

theorem mem_commaSep {token : Token} {ts : List Token} {tss : List (List Token)} (hts : ts ∈ tss)
    (h : token ∈ ts) : token ∈ commaSep tss := by
  unfold commaSep
  induction tss with
  | nil => cases hts
  | cons us tss ih =>
    cases tss with
    | nil =>
      obtain rfl : ts = us := List.mem_singleton.mp hts
      simpa using h
    | cons vs tss =>
      rw [List.intercalate_cons_cons]
      obtain rfl | hts := List.mem_cons.mp hts
      · exact List.mem_append_left _ (List.mem_append_left _ h)
      · exact List.mem_append_right _ (ih hts)

end Token

theorem ObjectName.ident_mem_tokens (n : ObjectName) : .ident n.name ∈ n.tokens := by
  unfold tokens Token.qualified
  cases n.schema with
  | none => simp
  | some schema => simp

-- The name is written before, in or after the constraint, in each dialect at one place.
theorem Constraint.ident_mem_tokens {c : Constraint} {n : NewName} (p : Profile)
    (h : n ∈ c.newNames) : .ident n.text ∈ c.tokens p := by
  obtain ⟨name, hname, rfl⟩ := List.mem_map.mp h
  replace h : c.name = some name := Option.mem_toList.mp hname
  unfold tokens
  cases p.naming.constraintNaming with
  | before => simp [h]
  | mid => simp [h]
  | after => simp [h]

theorem Constraint.written_newName {c : Constraint} {n : NewName} (p : Profile) (h : n ∈ c.newNames)
    : n.written p = p.quoteIdentifier n.text := by
  obtain ⟨name, _, rfl⟩ := List.mem_map.mp h
  unfold NewName.written ConstraintRule.role
  cases c.rule with
  | primaryKey => rfl
  | unique => rfl
  | foreignKey => rfl

namespace DdlStatement

theorem occurs_newName (s : DdlStatement) {n : NewName} (p : Profile) (h : n ∈ s.newNames)
    : Occurs (n.written p) (s.text p) := by
  rw [text_eq]
  cases s with
  | createTable table columns constraints =>
    rw [newNames, List.mem_append, List.mem_cons] at h
    rcases h with (rfl | h) | h
    · apply Token.occurs_ident
      simp [tokens, table.ident_mem_tokens]
    · obtain ⟨column, hcolumn, rfl⟩ := List.mem_map.mp h
      apply Token.occurs_ident
      have hpart : .ident column.name ∈ Token.commaSep
          (columns.map (·.tokens) ++ constraints.map (·.tokens p)) :=
        Token.mem_commaSep (List.mem_append_left _ (List.mem_map_of_mem hcolumn))
          (by simp [ColumnDeclaration.tokens])
      simp [tokens, Token.parens, hpart]
    · obtain ⟨constraint, hconstraint, h⟩ := List.mem_flatMap.mp h
      rw [Constraint.written_newName p h]
      apply Token.occurs_ident
      have hpart : .ident n.text ∈ Token.commaSep
          (columns.map (·.tokens) ++ constraints.map (·.tokens p)) :=
        Token.mem_commaSep (List.mem_append_right _ (List.mem_map_of_mem hconstraint))
          (constraint.ident_mem_tokens p h)
      simp [tokens, Token.parens, hpart]
  | addColumn table column =>
    obtain rfl := List.mem_singleton.mp h
    apply Token.occurs_ident
    simp [tokens, ColumnDeclaration.tokens]
  | addConstraint table constraint =>
    rw [Constraint.written_newName p h]
    apply Token.occurs_ident
    simp [tokens, constraint.ident_mem_tokens p h]
  | createIndex index table columns unique =>
    obtain rfl := List.mem_singleton.mp h
    apply Token.occurs_ident
    simp [tokens, indexTokens, index.ident_mem_tokens]
  | createSequence sequence start increment =>
    obtain rfl := List.mem_singleton.mp h
    apply Token.occurs_ident
    simp [tokens, sequenceTokens, sequence.ident_mem_tokens]
  | createAssignSequence sequence =>
    obtain rfl := List.mem_singleton.mp h
    exact ((Occurs.refl sequence).append_left _).append_right _
  | createAssignTrigger trigger sequence table column =>
    obtain rfl := List.mem_singleton.mp h
    have hname := (Occurs.refl trigger).append_left "CREATE OR REPLACE TRIGGER "
    exact (((hname.append_right _).append_right _).append_right _).append_right _
  | _ => cases h

end DdlStatement

/-! ## Names of a request -/

theorem Compile.flatMap_of_mapM {α β γ : Type} {f : α → Compile β} {g : β → List γ}
    {g' : α → List γ} (hf : ∀ a b, f a = .ok b → g b = g' a) {as : List α} {bs : List β}
    (h : as.mapM f = .ok bs) : bs.flatMap g = as.flatMap g' := by
  rw [mapM_eq_ok_iff] at h
  induction h with
  | nil => rfl
  | cons head tail ih => rw [List.flatMap_cons, List.flatMap_cons, hf _ _ head, ih]

theorem Unique.newNames_constraint {u : Unique} {c : Constraint} (h : u.constraint p = .ok c)
    : c.newNames = u.newNames := by
  obtain ⟨_, _, h⟩ := Compile.bind_eq_ok_iff.mp h
  cases h
  rfl

namespace Table

variable {t : Table} {statements : List DdlStatement}

theorem name_declareColumn {c : Column} {added : Bool} {d : ColumnDeclaration}
    (h : t.declareColumn p c added = .ok d) : d.name = c.name := by
  obtain ⟨_, _, h⟩ := Compile.bind_eq_ok_iff.mp h
  cases h
  rfl

theorem newNames_primaryKeyConstraint? (t : Table)
    : (t.primaryKeyConstraint? p).toList.flatMap (·.newNames)
        =
      (t.keyName? p).toList.map (⟨.primaryKey, ·⟩) := by
  unfold primaryKeyConstraint? keyName?
  cases p.requirements.createPrimaryKeys with
  | false => rfl
  | true =>
    cases t.primaryKey with
    | none => rfl
    | some pk => simp [Constraint.newNames, ConstraintRule.role]

def assignedNames (t : Table) (p : Profile) : List NewName :=
  if p.requirements.triggersForAutoAssign then
    (t.autoAssignedColumns.map (AutoAssignNames.fitted p t)).flatMap fun names =>
      [⟨.autoAssign, names.sequence⟩, ⟨.autoAssign, names.trigger⟩]
  else
    []

def keyConstraint (t : Table) (fk : ForeignKey) : Constraint :=
  ⟨fk.name, .foreignKey fk.columns fk.referencedTable fk.primaryKeyColumns
    (t.effectiveDeleteAction fk) fk.updateAction fk.deferred⟩

theorem foreignKeyConstraint?_eq_ok {fk : ForeignKey} {constraint? : Option Constraint}
    (h : t.foreignKeyConstraint? p fk = .ok constraint?)
    : constraint?
        =
      if fk.deleteAction = .unspecified then none else some (t.keyConstraint fk) := by
  obtain ⟨_, _, h⟩ := Compile.bind_eq_ok_iff.mp h
  split at h
  · next hunspecified =>
    cases h
    rw [if_pos hunspecified]
  · next hspecified =>
    have hrest : ∀ {x : Compile Unit}, (x >>= fun _ => do
        fk.updateAction.updateCapability?.forM p.require
        fk.name.forM (p.checkNameLength · .constraint)
        return some (t.keyConstraint fk)) = .ok constraint? →
        constraint? = some (t.keyConstraint fk) := by
      intro x hx
      obtain ⟨_, _, hx⟩ := Compile.bind_eq_ok_iff.mp hx
      obtain ⟨_, _, hx⟩ := Compile.bind_eq_ok_iff.mp hx
      obtain ⟨_, _, hx⟩ := Compile.bind_eq_ok_iff.mp hx
      cases hx
      rfl
    rw [if_neg hspecified]
    split at h
    · obtain ⟨_, _, h⟩ := Compile.bind_eq_ok_iff.mp h
      exact hrest h
    · exact hrest h

theorem addForeignKey_eq_ok {fk : ForeignKey} (h : t.addForeignKey p fk = .ok statements)
    : statements
        =
      if fk.deleteAction = .unspecified then []
      else [.addConstraint t.objectName (t.keyConstraint fk)] := by
  obtain ⟨constraint?, hconstraint, h⟩ := Compile.bind_eq_ok_iff.mp h
  cases h
  rw [foreignKeyConstraint?_eq_ok hconstraint]
  split
  · rfl
  · rfl

theorem newNames_addForeignKey {fk : ForeignKey} (h : t.addForeignKey p fk = .ok statements)
    : statements.flatMap (·.newNames) = fk.newNames := by
  rw [addForeignKey_eq_ok h]
  unfold ForeignKey.newNames
  split
  · rfl
  · simp [DdlStatement.newNames, keyConstraint, Constraint.newNames, ConstraintRule.role]

theorem newNames_createAutoAssign (h : t.createAutoAssign p = .ok statements)
    : statements.flatMap (·.newNames) = t.assignedNames p := by
  rw [createAutoAssign_eq] at h
  cases h
  unfold assignedNames
  split
  · rw [List.flatMap_assoc, List.flatMap_map]
    rfl
  · rfl

theorem fits_of_mem_assignedNames {n : NewName} (h : n ∈ t.assignedNames p)
    : n.role = .autoAssign ∧ (3 ≤ p.maxNameLength .autoAssign → n.fits p = true) := by
  unfold assignedNames at h
  split at h
  · obtain ⟨names, hnames, h⟩ := List.mem_flatMap.mp h
    obtain ⟨c, _, rfl⟩ := List.mem_map.mp hnames
    have hfits : 3 ≤ p.maxNameLength .autoAssign →
        (AutoAssignNames.fitted p t c).sequence.length ≤ p.maxNameLength .autoAssign := by
      intro hlimit
      exact p.length_fit_le _ (by omega)
    simp only [List.mem_cons, List.not_mem_nil, or_false] at h
    rcases h with rfl | rfl
    · exact ⟨rfl, fun hlimit => decide_eq_true (hfits hlimit)⟩
    · refine ⟨rfl, fun hlimit => decide_eq_true ?_⟩
      change (AutoAssignNames.fitted p t c).trigger.length ≤ _
      rw [AutoAssignNames.length_fitted hlimit]
      exact hfits hlimit
  · cases h

theorem addUnique_eq_ok {u : Unique} (h : t.addUnique p u = .ok statements)
    : ∃ constraint, u.constraint p = .ok constraint
        ∧ statements = [.addConstraint t.objectName constraint] := by
  obtain ⟨_, _, h⟩ := Compile.bind_eq_ok_iff.mp h
  split at h
  · obtain ⟨_, _, h⟩ := Compile.bind_eq_ok_iff.mp h
    obtain ⟨constraint, hconstraint, h⟩ := Compile.bind_eq_ok_iff.mp h
    cases h
    exact ⟨constraint, hconstraint, rfl⟩
  · obtain ⟨constraint, hconstraint, h⟩ := Compile.bind_eq_ok_iff.mp h
    cases h
    exact ⟨constraint, hconstraint, rfl⟩

theorem newNames_create (h : t.create p = .ok statements)
    : (statements.flatMap (·.newNames)).Perm
        (Creation.measured p (.table t)
          ++ (t.keyName? p).toList.map (⟨.primaryKey, ·⟩) ++ t.assignedNames p) := by
  obtain ⟨uniques, columns, rest, huniques, hcolumns, hrest, rfl⟩ := exists_of_create h
  have hnames : columns.map (fun d => (⟨.column, d.name⟩ : NewName))
      = t.columns.map (⟨.column, ·.name⟩) := by
    rw [List.map_eq_flatMap, List.map_eq_flatMap]
    apply Compile.flatMap_of_mapM _ hcolumns
    intro c d hd
    rw [name_declareColumn hd]
  have huniqueNames : uniques.flatMap (·.newNames)
      = (t.uniques.filter (·.isSupported p)).flatMap (·.newNames) :=
    Compile.flatMap_of_mapM (fun _ _ => Unique.newNames_constraint) huniques
  rw [List.flatMap_cons, newNames_createAutoAssign hrest]
  apply List.Perm.append_right
  rw [DdlStatement.newNames, hnames, List.flatMap_append, newNames_primaryKeyConstraint?,
    huniqueNames]
  unfold Creation.measured
  simp only [List.cons_append, List.append_assoc]
  apply List.Perm.cons
  rw [← List.append_assoc]
  exact List.perm_append_comm

end Table

namespace Creation

variable {r : Creation} {statements : List DdlStatement}

def assigned (p : Profile) : Creation → List NewName
  | .table t => t.assignedNames p
  | _ => []

theorem fits_of_mem_assigned {n : NewName} (h : n ∈ r.assigned p)
    : n.role = .autoAssign ∧ (3 ≤ p.maxNameLength .autoAssign → n.fits p = true) := by
  cases r with
  | table t => exact Table.fits_of_mem_assignedNames h
  | _ => cases h

theorem newNames_statements (h : r.statements p = .ok statements)
    : (statements.flatMap (·.newNames)).Perm
        (r.measured p ++ (r.keyName? p).toList.map (⟨.primaryKey, ·⟩) ++ r.assigned p) := by
  cases r with
  | table t => exact Table.newNames_create h
  | column t c =>
    obtain ⟨_, _, h⟩ := Compile.bind_eq_ok_iff.mp h
    obtain ⟨d, hd, h⟩ := Compile.bind_eq_ok_iff.mp h
    cases h
    simp [DdlStatement.newNames, Table.name_declareColumn hd, measured, keyName?, assigned]
  | primaryKey t =>
    cases h
    have hkey : (t.addPrimaryKey p).flatMap (·.newNames)
        = (t.keyName? p).toList.map (⟨.primaryKey, ·⟩) := by
      rw [Table.addPrimaryKey, List.flatMap_map]
      exact t.newNames_primaryKeyConstraint?
    simp [hkey, measured, keyName?, assigned]
  | foreignKey t fk =>
    rw [Table.newNames_addForeignKey h]
    simp [measured, keyName?, assigned]
  | unique t u =>
    obtain ⟨constraint, hconstraint, rfl⟩ := Table.addUnique_eq_ok h
    simp [DdlStatement.newNames, Unique.newNames_constraint hconstraint, measured, keyName?,
      assigned]
  | index t i =>
    obtain ⟨_, _, h⟩ := Compile.bind_eq_ok_iff.mp h
    cases h
    exact .refl _
  | sequence s =>
    obtain ⟨_, _, h⟩ := Compile.bind_eq_ok_iff.mp h
    cases h
    exact .refl _

theorem fits_of_statements (h : r.statements p = .ok statements)
    : ∀ n ∈ r.measured p, n.fits p = true := by
  have hchecks := checks_statements p r
  rw [h] at hchecks
  rw [← Profile.tooLong?_eq_none_iff]
  exact (Option.or_eq_none_iff.mp hchecks.symm).2

/--
A request fails exactly if the dialect lacks something that is required, or else if one of the
measured names is too long for its kind, and says so of the first of them. The names that the
statements introduce are those that were measured, those for auto-assigned columns, which are made
to fit, and the name of the primary key, however long it is.
-/
theorem newNames_fit (p : Profile) (r : Creation)
    : (r.statements p).failure? = (p.unsupported? r.required).or (p.tooLong? (r.measured p))
      ∧ ∀ statements, r.statements p = .ok statements →
        (∃ assigned : List NewName, (∀ n ∈ assigned, n.role = .autoAssign)
          ∧ (statements.flatMap (·.newNames)).Perm
            (r.measured p ++ (r.keyName? p).toList.map (⟨.primaryKey, ·⟩) ++ assigned))
        ∧ ∀ s ∈ statements, ∀ n ∈ s.newNames, Occurs (n.written p) (s.text p)
          ∧ (n.role ≠ .primaryKey →
            (n.role = .autoAssign → 3 ≤ p.maxNameLength .autoAssign) → n.fits p = true) := by
  refine ⟨checks_statements p r, fun statements h => ?_⟩
  have hperm := newNames_statements h
  refine ⟨⟨r.assigned p, fun n hn => (fits_of_mem_assigned hn).1, hperm⟩, ?_⟩
  intro s hs n hn
  refine ⟨s.occurs_newName p hn, ?_⟩
  intro hrole hlimit
  have hmem := hperm.subset (List.mem_flatMap.mpr ⟨s, hs, hn⟩)
  rcases List.mem_append.mp hmem with hmem | hmem
  · rcases List.mem_append.mp hmem with hmem | hmem
    · exact fits_of_statements h n hmem
    · obtain ⟨name, _, rfl⟩ := List.mem_map.mp hmem
      exact absurd rfl hrole
  · obtain ⟨hauto, hfits⟩ := fits_of_mem_assigned hmem
    exact hfits (hlimit hauto)

-- The limit is reached, and passed by one character.
theorem newNames_fit_unique
    : let p := { Vendor.generic.profile with
        naming := Vendor.generic.profile.naming.withMaxLengths 9 }
      let r := Creation.unique { name := "ORDERS" } { columns := ["id"], name := "ORDERS_UK" }
      let r' := Creation.unique { name := "ORDERS" } { columns := ["id"], name := "ORDERS_UNQ" }
      let n : NewName := ⟨.unique, "ORDERS_UK"⟩
      (∃ s, r.statements p = .ok [s] ∧ n ∈ s.newNames ∧ Occurs (n.written p) (s.text p)
        ∧ n.fits p = true)
        ∧ r'.statements p = .error (.nameTooLong "ORDERS_UNQ" 10 9) := by
  intro p r r' n
  have hstatements : r.statements p = .ok [.addConstraint ⟨none, "ORDERS"⟩
      ⟨some "ORDERS_UK", .unique ["id"] false⟩] := by decide +kernel
  obtain ⟨_, h⟩ := newNames_fit p r
  obtain ⟨hoccurs, hfits⟩ := (h _ hstatements).2 _ List.mem_cons_self n (by decide)
  refine ⟨⟨_, hstatements, by decide, hoccurs, hfits (by decide) (by decide)⟩, ?_⟩
  obtain ⟨hfailure, _⟩ := newNames_fit p r'
  rw [← Compile.failure?_eq_some_iff, hfailure]
  decide +kernel

-- The other constraints of the dialect have to be shorter than the primary key that it creates.
theorem newNames_fit_key
    : let p := Vendor.db2.profile
      let t : Table := { name := "ORDERS"
                         columns := [{ name := "id", notNull := true }]
                         primaryKey := some { columns := ["id"], name := "ORDERS_CUSTOMERS_PK" } }
      let key : NewName := ⟨.primaryKey, "ORDERS_CUSTOMERS_PK"⟩
      key.fits p = false
        ∧ (∃ statements, Creation.statements p (.table t) = .ok statements
          ∧ key ∈ statements.flatMap (·.newNames))
        ∧ (∃ statements, Creation.statements p (.primaryKey t) = .ok statements
          ∧ key ∈ statements.flatMap (·.newNames))
        ∧ Creation.statements p (.unique t { columns := ["id"], name := "ORDERS_CUSTOMERS_UK" })
          = .error (.nameTooLong "ORDERS_CUSTOMERS_UK" 19 18) := by
  intro p t key
  have hkey : t.keyName? p = some key.text := by
    have hfree : p.isReserved key.text = false := by
      rw [Bool.eq_false_iff, ne_eq, Vendor.isReserved_iff]
      decide +kernel
    have hcreated : p.requirements.createPrimaryKeys = true := rfl
    have hname : t.primaryKey.bind (·.name) = some key.text := rfl
    rw [Table.keyName?, if_pos hcreated, hname, Option.filter_some, hfree]
    rfl
  have hwritten : ∀ r : Creation, r.keyName? p = some key.text →
      (r.statements p).toOption.map (fun _ => ()) = some () →
      ∃ statements, r.statements p = .ok statements ∧ key ∈ statements.flatMap (·.newNames) := by
    intro r hr hok
    obtain ⟨statements, hstatements, _⟩ := Compile.exists_of_toOption hok
    refine ⟨statements, hstatements, (newNames_statements hstatements).mem_iff.mpr ?_⟩
    rw [hr]
    simp [key]
  exact ⟨by decide, hwritten (.table t) hkey (by decide +kernel), hwritten (.primaryKey t) hkey rfl,
    by decide +kernel⟩

end Creation
end SqlDialect
