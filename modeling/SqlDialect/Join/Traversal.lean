import SqlDialect.Join.Edge

/-!
This module contains the traversal of a join graph. Starting from a table, it follows the joins and
brings in one table after the other, which is the order in which a chain of join clauses has to name
them. Every edge that is met either brings in a new table or closes a cycle.
-/

namespace SqlDialect

structure JoinStep where
  edge : JoinEdge
  /-- The table that the edge brings in, none if both its ends are there already. -/
  joined : Option Alias
  deriving DecidableEq

namespace JoinStep

def follow (a : Alias) : List Alias → List JoinEdge → List JoinStep
  | _, [] => []
  | visited, e :: es =>
    if visited.contains (e.otherEnd a) then
      ⟨e, none⟩ :: follow a visited es
    else
      ⟨e, some (e.otherEnd a)⟩ :: follow a (e.otherEnd a :: visited) es

@[simp]
theorem edge_follow (a : Alias) (visited : List Alias) (es : List JoinEdge) :
    (follow a visited es).map (·.edge) = es := by
  induction es generalizing visited with
  | nil => rfl
  | cons e es ih =>
    rw [follow]
    split <;> simp [ih]

def introduced (steps : List JoinStep) : List Alias := steps.filterMap (·.joined)

theorem length_introduced_follow_le (a : Alias) (visited : List Alias) (es : List JoinEdge) :
    (introduced (follow a visited es)).length ≤ es.length := by
  calc
    _ ≤ (follow a visited es).length := List.length_filterMap_le ..
    _ = ((follow a visited es).map (·.edge)).length := by rw [List.length_map]
    _ = es.length := by rw [edge_follow]

end JoinStep

structure Traversal where
  /-- The edges that have not been met. -/
  remaining : List JoinEdge
  visited : List Alias := []
  deriving DecidableEq

namespace Traversal

def incident (t : Traversal) (a : Alias) : List JoinEdge := t.remaining.filter (·.touches a)

def elsewhere (t : Traversal) (a : Alias) : List JoinEdge := t.remaining.filter (!·.touches a)

theorem length_incident_add_length_elsewhere (t : Traversal) (a : Alias) :
    (t.incident a).length + (t.elsewhere a).length = t.remaining.length := by
  rw [incident, elsewhere]
  induction t.remaining with
  | nil => rfl
  | cons e es ih => cases h : e.touches a <;> simp [h] <;> omega

/--
Follow all edges that can be reached from the tables in `pending`, the last one found first.
-/
def walk (t : Traversal) (pending : List Alias) : List JoinStep × Traversal :=
  match pending with
  | [] => ([], t)
  | a :: pending =>
    let steps := JoinStep.follow a t.visited (t.incident a)
    let found := (JoinStep.introduced steps).reverse
    let (further, t) := walk ⟨t.elsewhere a, found ++ t.visited⟩ (found ++ pending)
    (steps ++ further, t)
termination_by t.remaining.length + pending.length
decreasing_by
  have h₁ := JoinStep.length_introduced_follow_le a t.visited (t.incident a)
  have h₂ := t.length_incident_add_length_elsewhere a
  simp only [List.length_append, List.length_reverse, List.length_cons]
  omega

/--
The chains of a traversal that starts from each table that no earlier one has reached.
-/
def chains (t : Traversal) : List Alias → List (Alias × List JoinStep)
  | [] => []
  | a :: as =>
    if t.visited.contains a then
      chains t as
    else
      let (steps, t) := walk { t with visited := a :: t.visited } [a]
      (a, steps) :: chains t as

end Traversal

end SqlDialect
