import SqlDialect.Token

/-!
This module contains row ranges. A dialect expresses a range by a clause, by a condition, or by
wrapping the select in another one, and leaves what it cannot express to the caller.
-/

namespace SqlDialect

/--
The rows from `start` on, and before `stop` if there is one. Rows are counted from zero.
-/
structure RowRange where
  start : Nat := 0
  stop : Option Nat := none
  deriving DecidableEq, Repr

namespace RowRange

def isAll (r : RowRange) : Bool := r.start == 0 && r.stop.isNone

def upper? (r : RowRange) : Option Nat := r.stop.map (max · r.start)

def count? (r : RowRange) : Option Nat := r.upper?.map (· - r.start)

end RowRange

structure SelectShape where
  distinct : Bool := false
  ordered : Bool := false
  /-- Rows are grouped or aggregated. -/
  grouped : Bool := false
  /-- The select is nested in another one. -/
  nested : Bool := false
  deriving DecidableEq, Repr

namespace Paging

def maxCount : Nat := 18446744073709551615

/--
Row numbers are given before rows are ordered, grouped, or made distinct, so a condition on them can
stand in the select itself only if it does none of these and skips no rows.
-/
def isDirect (r : RowRange) (shape : SelectShape) : Bool :=
  r.start == 0 && !shape.distinct && !shape.ordered && !shape.grouped

def clause (paging : Paging) (r : RowRange) (shape : SelectShape) : List Token :=
  match paging with
  | .byCaller | .rowNum => []
  | .limitOffset =>
    let limit :=
      match r.count? with
      | some n => [.space, .keyword .limit, .space, .count n]
      | none => []
    let offset := if 0 < r.start then [.space, .keyword .offset, .space, .count r.start] else []
    limit ++ offset
  | .limitStartCount =>
    if r.isAll then
      []
    else
      let start := if 0 < r.start then [.count r.start, .symbol .comma, .space] else []
      [.space, .keyword .limit, .space] ++ start ++ [.count (r.count?.getD maxCount)]
  | .fetchFirst =>
    match r.upper?, shape.nested with
    | some n, false =>
      [.space, .keyword .fetch, .space, .keyword .first, .space, .count n, .space, .keyword .rows,
        .space, .keyword .only]
    | _, _ => []
  | .top =>
    match r.upper?, shape.nested with
    | some n, false => [.space, .keyword .top, .space, .count n]
    | _, _ => []

def condition? (paging : Paging) (r : RowRange) (shape : SelectShape) : Option String :=
  match paging with
  | .rowNum => if isDirect r shape then r.upper?.map fun n => s!"ROWNUM <= {n}" else none
  | _ => none

def wraps (paging : Paging) (r : RowRange) (shape : SelectShape) : Bool :=
  match paging with
  | .rowNum => !r.isAll && !isDirect r shape
  | _ => false

def wrap (paging : Paging) (inner : String) (r : RowRange) (shape : SelectShape) : String :=
  if paging.wraps r shape then
    if r.start = 0 then
      let limit := r.upper?.getD 0
      s!"SELECT * FROM ({inner}) WHERE ROWNUM <= {limit}"
    else
      let limit :=
        match r.upper? with
        | some n => s!" WHERE ROWNUM <= {n}"
        | none => ""
      s!"SELECT * FROM (SELECT r.*, ROWNUM RNUM FROM ({inner}) r{limit}) WHERE RNUM > {r.start}"
  else
    inner

def skipRows (paging : Paging) (r : RowRange) (shape : SelectShape) : Nat :=
  match paging with
  | .byCaller => r.start
  | .fetchFirst | .top => if shape.nested then 0 else r.start
  | .limitOffset | .limitStartCount | .rowNum => 0

def maxRows? (paging : Paging) (r : RowRange) : Option Nat :=
  match paging with
  | .byCaller => r.count?
  | _ => none

end Paging

end SqlDialect
