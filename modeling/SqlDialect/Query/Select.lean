import SqlDialect.Expr.Basic
import SqlDialect.RowRange

/-!
This module contains what a select asks for, apart from its tables and joins.
-/

namespace SqlDialect

structure SelectItem where
  expr : Expr
  label : Option String := none
  /-- The item tells selected rows apart. -/
  identifier : Bool := false

structure OrderItem where
  expr : Expr
  descending : Bool := false

def OrderItem.direction (i : OrderItem) : Token :=
  .keyword (if i.descending then .desc else .asc)

structure Select where
  items : List SelectItem := []
  conditions : List Expr := []
  having : List Expr := []
  groupBy : List Expr := []
  orderBy : List OrderItem := []
  range : RowRange := {}
  distinct : Bool := false
  /-- Do not select distinct rows, unless a join to many rows makes it necessary. -/
  notDistinct : Bool := false
  /-- Select distinct rows where joins may repeat them. -/
  autoDistinct : Bool := true
  aggregate : Bool := false

namespace Select

def isAggregate (s : Select) : Bool := s.aggregate || s.items.any (·.expr.containsAggregate)

def isGrouped (s : Select) : Bool := s.isAggregate || !s.groupBy.isEmpty

/--
Whether the order of rows matters. It does not if an aggregate leaves a single row.
-/
def isOrdered (s : Select) : Bool := !s.orderBy.isEmpty && !(s.isAggregate && s.groupBy.isEmpty)

/--
Add an item, and give its position, counted from one. An expression that is selected already stays
where it is.
-/
def addItem (s : Select) (item : SelectItem) : Nat × Select :=
  match s.items.findIdx? (·.expr.equals item.expr) with
  | some i =>
    let mark (old : SelectItem) : SelectItem :=
      { old with identifier := old.identifier || item.identifier }
    (i + 1, { s with items := s.items.modify i mark })
  | none => (s.items.length + 1, { s with items := s.items ++ [item] })

end Select

end SqlDialect
