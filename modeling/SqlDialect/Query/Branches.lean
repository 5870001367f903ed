import SqlDialect.Query.Basic

/-!
This module contains conditions of which one has to hold, where each may need joins of its own.
-/

namespace SqlDialect

abbrev QueryM (α : Type) := ExceptT CompileError (StateM Query) α

namespace QueryM

def change {α : Type} (f : Query → Compile (α × Query)) : QueryM α :=
  ExceptT.mk fun q =>
    match f q with
    | .ok (a, q) => (.ok a, q)
    | .error e => (.error e, q)

def changeJoins (f : JoinGraph → Compile JoinGraph) : QueryM Unit :=
  change fun q => return ((), { q with graph := ← f q.graph })

end QueryM

namespace Query

def runBranches {α : Type} (id : ScopeId) : List (QueryM α) → QueryM (List α)
  | [] => return []
  | branch :: branches => do
    let first ← branch
    let others ← branches.mapM fun branch => do
      QueryM.changeJoins (·.nextOrBranch id)
      branch
    return first :: others

/--
The OR of the conditions of some branches. Joins that not all branches ask for become outer joins. A
branch may give something else back with its condition. When a branch fails, so does the OR, and it
stays open.
-/
def orJoins {α : Type} (id : ScopeId) (branches : List (QueryM (Expr × α))) :
    QueryM (Expr × List α) := do
  QueryM.changeJoins (·.beginOr id)
  let results ← runBranches id branches
  QueryM.changeJoins (·.endOr id)
  match results with
  | [] => throw (.aliasing .noBranches)
  | (first, _) :: others =>
    return (others.foldl (fun e (f, _) => .binary .or e f) first, results.map (·.2))

end Query

end SqlDialect
