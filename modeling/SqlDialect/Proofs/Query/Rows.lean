import Mathlib.Data.List.Dedup
import SqlDialect.Proofs.Query.Statement

/-!
This module contains the rows that a database has for a select.
-/

namespace SqlDialect

/--
What a database has for the texts in a statement. Conditions and expressions are evaluated on rows
of the tables, or on groups of them, and NULL is no value.
-/
structure Database (ρ ν : Type) where
  rows : String → List ρ
  holds : Rendered → ρ → Bool
  value : Rendered → ρ → Option ν
  /-- The expression is computed from many rows at once. -/
  aggregates : Rendered → Bool
  groupHolds : Rendered → List ρ → Bool
  groupValue : Rendered → List ρ → Option ν
  /-- The order in which the rows of a select are returned. -/
  arrange : SelectStatement → List (List (Option ν)) → List (List (Option ν))
  arrange_perm : ∀ s rows, (arrange s rows).Perm rows

variable {ρ ν : Type} (db : Database ρ ν)

def Database.values (rs : List Rendered) (a : ρ) : List (Option ν) := rs.map (db.value · a)

variable {db} in
theorem Database.values_eq_iff {rs : List Rendered} {a b : ρ}
    : db.values rs a = db.values rs b ↔ ∀ r ∈ rs, db.value r a = db.value r b :=
  List.map_inj_left

def SelectBody.matched (b : SelectBody) : List ρ :=
  (db.rows b.tables).filter fun a => b.conditions.all (db.holds · a)

def SelectStatement.row (s : SelectStatement) (a : ρ) : List (Option ν) :=
  db.values (s.items.map (·.value)) a

/--
The items are computed from groups of rows. An aggregate asks for that, wherever it stands.
-/
def SelectStatement.isGrouped (s : SelectStatement) : Bool :=
  s.items.any (db.aggregates ·.value) || s.orderBy.any (db.aggregates ·.value)
    || !s.groupBy.isEmpty || !s.having.isEmpty

variable [DecidableEq ν]

namespace SelectBody

variable (b : SelectBody)

def groups (rows : List ρ) : List (List ρ) :=
  if b.groupBy.isEmpty then
    [rows]
  else
    (rows.map (db.values b.groupBy)).dedup.map fun key =>
      rows.filter (db.values b.groupBy · = key)

def keptGroups (rows : List ρ) : List (List ρ) :=
  (b.groups db rows).filter fun group => b.having.all (db.groupHolds · group)

end SelectBody

namespace SelectStatement

variable (s : SelectStatement)

def plan : SelectPlan ρ (List (Option ν)) where
  source := db.rows s.tables
  condition a := s.conditions.all (db.holds · a)
  project rows :=
    if s.isGrouped db then
      (s.keptGroups db rows).map fun group => s.items.map (db.groupValue ·.value group)
    else
      rows.map (s.row db)
  distinct rows := if s.distinct then rows.dedup else rows
  order := db.arrange s

def rows : List (List (Option ν)) := s.range.rows (s.plan db)

end SelectStatement

/-! ## Groups and rows without a range -/

theorem SelectBody.keptGroups_of_ungrouped {b : SelectBody} (h : b.groupBy = []) (rows : List ρ)
    : b.keptGroups db rows = if b.having.all (db.groupHolds · rows) then [rows] else [] := by
  simp [keptGroups, groups, h, List.filter_singleton]

namespace SelectStatement

variable {s : SelectStatement}

theorem length_rows (h : s.range = {})
    : (s.rows db).length
        =
      ((s.plan db).distinct ((s.plan db).project (s.matched db))).length := by
  unfold rows
  rw [h, RangeReading.rows_inner none, SelectPlan.rows_none]
  exact (db.arrange_perm _ _).length_eq

theorem length_rows_of_isGrouped (h : s.range = {}) (hgrouped : s.isGrouped db = true)
    (hgroupBy : s.groupBy = [])
    : (s.rows db).length = (s.keptGroups db (s.matched db)).length := by
  rw [length_rows db h]
  simp only [plan, hgrouped, if_true, SelectBody.keptGroups_of_ungrouped db hgroupBy]
  -- There is one group at most, so no row is there twice.
  cases s.having.all (db.groupHolds · (s.matched db)) <;> cases s.distinct <;> simp

theorem length_rows_le_one (h : s.range = {}) (hgrouped : s.isGrouped db = true)
    (hgroupBy : s.groupBy = []) : (s.rows db).length ≤ 1 := by
  rw [length_rows_of_isGrouped db h hgrouped hgroupBy,
    SelectBody.keptGroups_of_ungrouped db hgroupBy]
  split <;> simp

theorem map_keptGroups (h : s.range = {}) (hgrouped : s.isGrouped db = true)
    (hgroupBy : s.groupBy = []) {α : Type} (f : List ρ → α)
    : (s.keptGroups db (s.matched db)).map f = (s.rows db).map fun _ => f (s.matched db) := by
  rw [List.map_const', length_rows_of_isGrouped db h hgrouped hgroupBy,
    SelectBody.keptGroups_of_ungrouped db hgroupBy]
  split <;> rfl

theorem keptGroups_of_not_isGrouped (hgrouped : s.isGrouped db = false) (rows : List ρ)
    : s.keptGroups db rows = [rows] := by
  obtain ⟨⟨_, hgroupBy⟩, hhaving⟩ : (_ ∧ s.groupBy = []) ∧ s.having = [] := by
    simpa [isGrouped] using hgrouped
  rw [SelectBody.keptGroups_of_ungrouped db hgroupBy, hhaving]
  rfl

theorem length_rows_of_not_isGrouped (h : s.range = {}) (hgrouped : s.isGrouped db = false)
    : (s.rows db).length
        =
      (if s.distinct then ((s.matched db).map (s.row db)).dedup
        else (s.matched db).map (s.row db)).length := by
  rw [length_rows db h]
  simp [plan, hgrouped]

end SelectStatement

end SqlDialect
