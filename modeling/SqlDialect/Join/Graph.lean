import SqlDialect.Join.Edge

/-!
This module contains join graphs. A join graph holds the aliases and joins of a statement, scope by
scope. Aliases are numbered through the whole statement, so a nested select never uses the alias of
another one for a table of its own. An alias is known by the table and the path that led to it: the
same path always gives the same alias.
-/

namespace SqlDialect

structure AliasEntry where
  path : JoinPath
  table : String
  ref : Alias
  deriving DecidableEq

structure OrBranches where
  earlier : List (List JoinEdge) := []
  current : List JoinEdge := []
  deriving DecidableEq

namespace OrBranches

def all (b : OrBranches) : List (List JoinEdge) := b.earlier ++ [b.current]

def isCommon (b : OrBranches) (e : JoinEdge) : Bool := b.all.all (·.any (·.samePair e))

/--
The joins of all branches, each pair of aliases once. A join that some branch does without becomes
an outer one.
-/
def merge (b : OrBranches) (joinSyntax : JoinSyntax) : List JoinEdge :=
  (b.all.flatten.foldl recordEdge []).map fun e =>
    if b.isCommon e then e else { e with kind := e.promotedKind joinSyntax }

def isDivergent (b : OrBranches) : Bool := b.all.flatten.any (!b.isCommon ·)

end OrBranches

structure Scope where
  /-- The selects around this one, the nearest first. -/
  enclosing : List ScopeId := []
  joinSyntax : JoinSyntax
  entries : List AliasEntry := []
  edges : List JoinEdge := []
  variableNames : List String := []
  /-- While an OR is being built, joins go to its last branch. -/
  openOr : Option OrBranches := none
  /-- The joins may give a row more than once. -/
  implicitDistinct : Bool := false
  toMany : Bool := false
  deriving DecidableEq

namespace Scope

def parent? (s : Scope) : Option ScopeId := s.enclosing.head?

def lookup? (s : Scope) (path : JoinPath) (table : String) : Option Alias :=
  (s.entries.find? fun e => e.path = path ∧ e.table = table).map (·.ref)

def occurrence? (s : Scope) (table : String) : Option Alias :=
  (s.entries.find? (·.table = table)).map (·.ref)

def aliases (s : Scope) : List Alias := s.entries.map (·.ref)

def owns (s : Scope) (a : Alias) : Bool := s.aliases.contains a

def isCorrelated (s : Scope) (a b : Alias) : Bool :=
  s.parent?.isSome && !(s.owns a && s.owns b)

def isLocal (s : Scope) (e : JoinEdge) : Bool := !e.correlated && s.owns e.source && s.owns e.target

def record (s : Scope) (e : JoinEdge) : Scope :=
  match s.openOr with
  | some b => { s with openOr := some { b with current := recordEdge b.current e } }
  | none => { s with edges := recordEdge s.edges e }

def closeOr (s : Scope) (b : OrBranches) : Scope :=
  { s with
    openOr := none
    implicitDistinct := s.implicitDistinct || b.isDivergent
    edges := (b.merge s.joinSyntax).foldl recordEdge s.edges }

end Scope

structure JoinGraph where
  scopes : List Scope
  /-- The table of each alias. -/
  tables : List String := []
  deriving DecidableEq

structure JoinedTable where
  ref : Alias
  path : JoinPath
  deriving DecidableEq

namespace JoinGraph

def new (joinSyntax : JoinSyntax) : JoinGraph := { scopes := [{ joinSyntax }] }

def scope? (g : JoinGraph) (id : ScopeId) : Option Scope := g.scopes[id.index]?

def scope (g : JoinGraph) (id : ScopeId) : Compile Scope :=
  match g.scope? id with
  | some s => .ok s
  | none => .error (.aliasing (.unknownScope id))

def aliasCount (g : JoinGraph) : Nat := g.tables.length

def table? (g : JoinGraph) (a : Alias) : Option String := g.tables[a.index]?

def parent? (g : JoinGraph) (id : ScopeId) : Option ScopeId := (g.scope? id).bind (·.parent?)

def isImplicitlyDistinct (g : JoinGraph) (id : ScopeId) : Bool :=
  (g.scope? id).any (·.implicitDistinct)

def isToMany (g : JoinGraph) (id : ScopeId) : Bool := (g.scope? id).any (·.toMany)

def modifyScope (g : JoinGraph) (id : ScopeId) (f : Scope → Scope) : JoinGraph :=
  { g with scopes := g.scopes.modify id.index f }

def edit (g : JoinGraph) (id : ScopeId) (f : Scope → Scope) : Compile JoinGraph := do
  let _ ← g.scope id
  return g.modifyScope id f

/--
A new select nested in `parent`. Inside it joins are not written as clauses of their own.
-/
def subselect (g : JoinGraph) (parent : ScopeId) : Compile (ScopeId × JoinGraph) := do
  let outer ← g.scope parent
  let joinSyntax :=
    match outer.joinSyntax with
    | .sql92 => .traditional
    | other => other
  let inner : Scope := { enclosing := parent :: outer.enclosing, joinSyntax }
  return (⟨g.scopes.length⟩, { g with scopes := g.scopes ++ [inner] })

def declareVariable (g : JoinGraph) (id : ScopeId) (variableName : String) : Compile JoinGraph :=
  g.edit id fun s => { s with variableNames := variableName :: s.variableNames }

def declaringScope? (g : JoinGraph) (id : ScopeId) (s : Scope) (variableName : String) :
    Option ScopeId :=
  (id :: s.enclosing).find? fun i => (g.scope? i).any (·.variableNames.contains variableName)

def home? (g : JoinGraph) (id : ScopeId) (s : Scope) (path : JoinPath) : Option ScopeId :=
  path.rootVariable?.bind (g.declaringScope? id s)

/--
The alias that is already there for a table at a path, seen from `id`. It is looked for in the scope
itself. The empty path stands for any occurrence of the table in the scope. All other paths are
looked up in the scope they belong to and in the scopes around.
-/
def findAlias? (g : JoinGraph) (id : ScopeId) (s : Scope) (table : String) (path : JoinPath) :
    Option Alias :=
  (s.lookup? path table).or <|
    if path.isRoot then
      s.occurrence? table
    else
      ((g.home? id s path).toList ++ s.enclosing).findSome? fun i =>
        (g.scope? i).bind (·.lookup? path table)

def allocate (g : JoinGraph) (owner : ScopeId) (path : JoinPath) (table : String) :
    Alias × JoinGraph :=
  let a : Alias := ⟨g.tables.length⟩
  let g := { g with tables := g.tables ++ [table] }
  (a, g.modifyScope owner fun s => { s with entries := s.entries ++ [⟨path, table, a⟩] })

/--
The alias for a table at a path, a new one if there is none. A new alias belongs to the scope that
the path belongs to, or else to `id`.
-/
def requireAlias (g : JoinGraph) (id : ScopeId) (table : Table) (path : JoinPath) :
    Compile (Alias × JoinGraph) := do
  let s ← g.scope id
  match g.findAlias? id s table.fullName path with
  | some a => return (a, g)
  | none => return g.allocate ((g.home? id s path).getD id) path table.fullName

def aliasOf? (g : JoinGraph) (id : ScopeId) (table : Table) (path : JoinPath) :
    Compile (Option Alias) := do
  let s ← g.scope id
  return g.findAlias? id s table.fullName path

def aliasOf (g : JoinGraph) (id : ScopeId) (table : Table) (path : JoinPath) : Compile Alias := do
  match ← g.aliasOf? id table path with
  | some a => return a
  | none => throw (.aliasing (.notJoined table.fullName path))

def connect (g : JoinGraph) (id : ScopeId) (e : JoinEdge) : JoinGraph :=
  g.modifyScope id fun s => s.record { e with correlated := s.isCorrelated e.source e.target }

/--
Join along a relation, from the table at `path`. Where joins are written as conditions in WHERE, an
outer join is recorded as an inner one.
-/
def join (g : JoinGraph) (id : ScopeId) (path : JoinPath) (rel : Relation) (kind : JoinKind) :
    Compile (JoinedTable × JoinGraph) := do
  let s ← g.scope id
  let kind := if kind = .outer ∧ s.joinSyntax = .traditional then .inner else kind
  let (source, g) ← g.requireAlias id rel.source path
  let next := path.join rel.name rel.variableName
  let (target, g) ← g.requireAlias id rel.target next
  let g :=
    if rel.toMany then
      g.modifyScope id fun s => { s with toMany := true, implicitDistinct := true }
    else
      g
  let edge : JoinEdge :=
    { sourceTable := rel.source.fullName
      source
      targetTable := rel.target.fullName
      target
      foreignKey := some rel.foreignKey
      inverse := rel.inverse
      kind
      correlated := false }
  return (⟨target, next⟩, g.connect id edge)

def crossJoin (g : JoinGraph) (id : ScopeId) (source : Table) (path : JoinPath) (target : Table)
    (variableName : String) : Compile (JoinedTable × JoinGraph) := do
  let g ← g.edit id fun s => { s with implicitDistinct := true }
  let (a, g) ← g.requireAlias id source path
  let next := JoinPath.ofVariable variableName
  let (b, g) ← g.requireAlias id target next
  let edge : JoinEdge :=
    { sourceTable := source.fullName
      source := a
      targetTable := target.fullName
      target := b
      foreignKey := none
      inverse := false
      kind := .cross
      correlated := false }
  return (⟨b, next⟩, g.connect id edge)

def clearJoins (g : JoinGraph) (id : ScopeId) : Compile JoinGraph :=
  g.edit id fun s => { s with edges := [] }

def beginOr (g : JoinGraph) (id : ScopeId) : Compile JoinGraph :=
  g.edit id fun s => { s with openOr := some {} }

def openBranches (g : JoinGraph) (id : ScopeId) : Compile OrBranches := do
  match (← g.scope id).openOr with
  | some b => return b
  | none => throw (.aliasing (.noOpenOr id))

def nextOrBranch (g : JoinGraph) (id : ScopeId) : Compile JoinGraph := do
  let b ← g.openBranches id
  g.edit id fun s => { s with openOr := some { earlier := b.all, current := [] } }

/--
Close an OR. The joins that all branches share stay as they are, the others become outer joins.
-/
def endOr (g : JoinGraph) (id : ScopeId) : Compile JoinGraph := do
  let b ← g.openBranches id
  g.edit id (·.closeOr b)

end JoinGraph

end SqlDialect
