import SqlDialect.Profile.Default
import SqlDialect.Proofs.Join.Conditions
import SqlDialect.Proofs.Join.Requests
import SqlDialect.Proofs.Join.Stability

/-!
This module contains which select a table belongs to that a nested select joins. A table at a path
that does not start from a variable is looked for in the nested select and then in the selects
around it, the nearest first. Only if none of them has it at that path, the nested select gets a
table of its own. What has been decided stays, whatever the selects around ask for later.
-/

namespace SqlDialect

namespace JoinPath

variable (path : JoinPath) (relation : String) (variableName : Option String)

theorem isRoot_join : (path.join relation variableName).isRoot = false := by
  simp [join, isRoot]

theorem ne_join : path ≠ path.join relation variableName := by
  intro h
  have hlength := congrArg (·.steps.length) h
  simp [join] at hlength

end JoinPath

theorem Scope.mem_aliases_of_lookup? {s : Scope} {path : JoinPath} {table : String} {a : Alias}
    (h : s.lookup? path table = some a) : a ∈ s.aliases := by
  unfold Scope.lookup? at h
  obtain ⟨e, he, rfl⟩ := Option.map_eq_some_iff.mp h
  exact List.mem_map_of_mem (List.mem_of_find?_eq_some he)

namespace JoinGraph

variable {g g' : JoinGraph} {id : ScopeId} {s s' : Scope} {path : JoinPath} {a b : Alias}

/-! ## The scopes around a scope -/

/--
The alias that the scopes around a scope have for a table at a path, that of the nearest one if
there are several.
-/
def outerAlias? (g : JoinGraph) (s : Scope) (path : JoinPath) (table : String) : Option Alias :=
  s.enclosing.findSome? (g.lookupAt? path table)

theorem Nested.lt_of_mem_enclosing (hg : g.Nested) (hs : g.scope? id = some s) {k : ScopeId}
    (hk : k ∈ s.enclosing) : k.index < id.index := by
  generalize henclosing : s.enclosing = scopes at hk
  induction scopes generalizing id s with
  | nil => cases hk
  | cons p ps ih =>
    obtain ⟨hlt, outer, houter, hps⟩ := hg id s p ps hs henclosing
    obtain rfl | hk := List.mem_cons.mp hk
    · exact hlt
    · exact Nat.lt_trans (ih houter hps hk) hlt

theorem WellFormed.not_mem_aliases_of_outerAlias? (hg : g.WellFormed) (hs : g.scope? id = some s)
    {table : String} (h : g.outerAlias? s path table = some a) : a ∉ s.aliases := by
  obtain ⟨k, hk, h⟩ := List.exists_of_findSome?_eq_some h
  obtain ⟨t, ht, h⟩ := Option.bind_eq_some_iff.mp h
  intro ha
  have heq := hg.eq_of_mem_aliases hs ht ha (Scope.mem_aliases_of_lookup? h)
  have hlt := hg.nested.lt_of_mem_enclosing hs hk
  rw [heq] at hlt
  exact Nat.lt_irrefl _ hlt

-- Such a path belongs to no scope.
theorem findAlias?_of_rootVariable? {table : String} (hpath : path.isRoot = false)
    (hvariable : path.rootVariable? = none)
    : g.findAlias? id s table path
        =
      (s.lookup? path table).or (g.outerAlias? s path table) := by
  unfold findAlias? home?
  rw [if_neg (by simp [hpath]), hvariable]
  rfl

theorem WellFormed.mem_aliases_of_requireAlias {table : Table} (hg : g.WellFormed)
    (hpath : path.isRoot = false) (hvariable : path.rootVariable? = none)
    (h : g.requireAlias id table path = .ok (a, g')) (hs : g.scope? id = some s)
    (hs' : g'.scope? id = some s')
    : (a ∈ s'.aliases ↔
          s.lookup? path table.fullName ≠ none ∨ g.outerAlias? s path table.fullName = none)
        ∧ (a ∉ s'.aliases → g.outerAlias? s path table.fullName = some a) := by
  obtain ⟨t, ht, h⟩ := requireAlias_eq_ok_iff.mp h
  obtain rfl := Option.mem_unique hs ht
  rw [findAlias?_of_rootVariable? hpath hvariable] at h
  obtain ⟨hfound, rfl⟩ | ⟨hnew, halloc⟩ := h
  · obtain rfl := Option.mem_unique hs hs'
    obtain hown | ⟨hown, houter⟩ := Option.or_eq_some_iff.mp hfound
    · simp [hown, Scope.mem_aliases_of_lookup? hown]
    · simp [hown, houter, hg.not_mem_aliases_of_outerAlias? hs houter]
  · have hhome : g.home? id s path = none := by simp [home?, hvariable]
    rw [hhome, Option.getD_none] at halloc
    obtain rfl : ⟨g.aliasCount⟩ = a := congrArg Prod.fst halloc
    obtain rfl : _ = g' := congrArg Prod.snd halloc
    rw [scope?_allocate, if_pos rfl, hs] at hs'
    cases hs'
    simp [Scope.aliases, (Option.or_eq_none_iff.mp hnew).2]

-- What is known at one path does not depend on requests for another one.
theorem known_of_requireAlias {table : Table} {path' : JoinPath}
    (h : g.requireAlias id table path = .ok (a, g')) (hne : path ≠ path') (table' : String)
    (hs : g.scope? id = some s) (hs' : g'.scope? id = some s')
    : s'.lookup? path' table' = s.lookup? path' table'
        ∧ g'.outerAlias? s' path' table' = g.outerAlias? s path' table' := by
  obtain ⟨t, ht, ⟨_, rfl⟩ | ⟨_, halloc⟩⟩ := requireAlias_eq_ok_iff.mp h
  · obtain rfl := Option.mem_unique hs hs'
    exact ⟨rfl, rfl⟩
  · obtain rfl : _ = g' := congrArg Prod.snd halloc
    have hlookup : ∀ j, (g.allocate ((g.home? id t path).getD id) path table.fullName).2.lookupAt?
        path' table' j = g.lookupAt? path' table' j :=
      fun j => lookupAt?_allocate_of_ne (.inr fun hkey => hne hkey.1)
    obtain ⟨u, hu, henclosing, _⟩ := (Extends.allocate g _ path table.fullName).scopes id s hs
    obtain rfl := Option.mem_unique hs' hu
    constructor
    · have hhere := hlookup id
      unfold lookupAt? at hhere
      rw [hs, hs'] at hhere
      exact hhere
    · unfold outerAlias?
      rw [henclosing, funext hlookup]

/-! ## Joins -/

theorem exists_requireAlias (hs : g.scope? id = some s) (table : Table) (path : JoinPath)
    : ∃ a g' s', g.requireAlias id table path = .ok (a, g') ∧ g'.scope? id = some s' := by
  have hrequire : ∃ a g', g.requireAlias id table path = .ok (a, g') := by
    cases hfound : g.findAlias? id s table.fullName path with
    | some a => exact ⟨a, g, requireAlias_eq_ok_iff.mpr ⟨s, hs, .inl ⟨hfound, rfl⟩⟩⟩
    | none => exact ⟨_, _, requireAlias_eq_ok_iff.mpr ⟨s, hs, .inr ⟨hfound, rfl⟩⟩⟩
  obtain ⟨a, g', h⟩ := hrequire
  obtain ⟨s', hs'⟩ := exists_scope?_of_requireAlias h
  exact ⟨a, g', s', h, hs'⟩

theorem join_eq_ok_of_requireAlias {g₁ g₂ : JoinGraph} {rel : Relation}
    (hsource : g.requireAlias id rel.source path = .ok (a, g₁))
    (htarget : g₁.requireAlias id rel.target (path.join rel.name rel.variableName) = .ok (b, g₂))
    (kind : JoinKind)
    : ∃ g', g.join id path rel kind = .ok (⟨b, path.join rel.name rel.variableName⟩, g') := by
  obtain ⟨s, hs, _⟩ := requireAlias_eq_ok_iff.mp hsource
  simp only [join, scope_eq_ok_iff.mpr hs, hsource, htarget, Compile.ok_bind]
  exact ⟨_, rfl⟩

theorem exists_join (hs : g.scope? id = some s) (path : JoinPath) (rel : Relation)
    (kind : JoinKind) : ∃ t g', g.join id path rel kind = .ok (t, g') := by
  obtain ⟨a, g₁, s₁, hsource, hs₁⟩ := exists_requireAlias hs rel.source path
  obtain ⟨b, g₂, _, htarget, _⟩ :=
    exists_requireAlias hs₁ rel.target (path.join rel.name rel.variableName)
  obtain ⟨g', h⟩ := join_eq_ok_of_requireAlias hsource htarget kind
  exact ⟨_, g', h⟩

/-! ## Later requests -/

section Steps

variable {declared requested : List String}

theorem WellFormed.steps (hg : g.WellFormed) (hsteps : AliasSteps declared requested g g')
    : g'.WellFormed := by
  induction hsteps with
  | refl => exact hg
  | tail _ hlast ih => exact ih.step hlast

theorem Extends.of_steps (hsteps : AliasSteps declared requested g g') : g.Extends g' := by
  induction hsteps with
  | refl => exact .refl g
  | tail _ hlast ih => exact ih.trans (.of_step hlast)

theorem Answers.steps {table : String} (h : g.Answers id table path a) (hg : g.WellFormed)
    (hvariable : path.rootVariable? = none) (hsteps : AliasSteps declared requested g g')
    : g'.Answers id table path a := by
  induction hsteps with
  | refl => exact h
  | tail hsteps hlast ih =>
    exact ih.step (hg.steps hsteps) (by simp [hvariable]) (by simp [hvariable]) hlast

end Steps

theorem answers_of_requireAlias {table : Table} (hg : g.WellFormed)
    (hvariable : path.rootVariable? = none) (h : g.requireAlias id table path = .ok (a, g'))
    : g'.Answers id table.fullName path a := by
  apply answers_of_aliasFor hg (by simp [hvariable])
  rw [aliasFor, if_pos rfl, h]
  rfl

theorem requireAlias_of_answers {table : Table} (h : g.Answers id table.fullName path a)
    : g.requireAlias id table path = .ok (a, g) := by
  obtain ⟨s, hs, hfound⟩ := h
  exact requireAlias_eq_ok_iff.mpr ⟨s, hs, .inl ⟨hfound, rfl⟩⟩

section Join

variable {rel : Relation} {kind : JoinKind} {t : JoinedTable}

theorem aliasSteps_of_join (hvariable : path.rootVariable? = none)
    (h : g.join id path rel kind = .ok (t, g'))
    : ∃ source g₁ g₂, g.requireAlias id rel.source path = .ok (source, g₁)
        ∧ g₁.requireAlias id rel.target (path.join rel.name rel.variableName) = .ok (t.ref, g₂)
        ∧ t.path = path.join rel.name rel.variableName
        ∧ AliasSteps [] [] g g₁ ∧ AliasSteps [] [] g₁ g₂ ∧ AliasSteps [] [] g₂ g' := by
  obtain ⟨g₁, g₂, g₃, e, hsource, htarget, hg₃, _, rfl, rfl⟩ := join_eq_ok h
  refine ⟨e.source, g₁, g₂, hsource, htarget, rfl, ?_, ?_, ?_⟩
  · exact .of_requireAlias hsource (by simp [hvariable])
  · exact .of_requireAlias htarget (by simp [JoinPath.rootVariable?_join, hvariable])
  · obtain rfl | rfl := hg₃
    · exact .connect e
    · refine Relation.ReflTransGen.head ?_ (AliasSteps.connect e)
      exact .edit id (by simp)

theorem WellFormed.join_again (hg : g.WellFormed) (hvariable : path.rootVariable? = none)
    (h : g.join id path rel kind = .ok (t, g')) (later : List JoinCall)
    : ∃ final, (g'.afterAll later).join id path rel kind = .ok (t, final) := by
  obtain ⟨source, g₁, g₂, hsource, htarget, hpath, hsteps₁, hsteps₂, hsteps₃⟩ :=
    aliasSteps_of_join hvariable h
  have hnext : (path.join rel.name rel.variableName).rootVariable? = none := by
    rw [JoinPath.rootVariable?_join, hvariable]
  have hg₁ := hg.steps hsteps₁
  have hg₂ := hg₁.steps hsteps₂
  have hg' := hg₂.steps hsteps₃
  have hanswers : (g'.afterAll later).Answers id rel.source.fullName path source :=
    ((answers_of_requireAlias hg hvariable hsource).steps hg₁ hvariable
      (hsteps₂.trans hsteps₃)).afterAll hg' (by simp [hvariable]) (by simp [hvariable])
  have hanswers' : (g'.afterAll later).Answers id rel.target.fullName
      (path.join rel.name rel.variableName) t.ref :=
    ((answers_of_requireAlias hg₁ hnext htarget).steps hg₂ hnext hsteps₃).afterAll hg'
      (by simp [hnext]) (by simp [hnext])
  obtain ⟨final, hagain⟩ := join_eq_ok_of_requireAlias (requireAlias_of_answers hanswers)
    (requireAlias_of_answers hanswers') kind
  rw [← hpath] at hagain
  exact ⟨final, hagain⟩

theorem WellFormed.mem_aliases_of_join (hg : g.WellFormed) (hvariable : path.rootVariable? = none)
    (h : g.join id path rel kind = .ok (t, g')) (later : List JoinCall)
    (hs : g.scope? id = some s) (hs' : (g'.afterAll later).scope? id = some s')
    : let next := path.join rel.name rel.variableName
      let table := rel.target.fullName
      (t.ref ∈ s'.aliases ↔ s.lookup? next table ≠ none ∨ g.outerAlias? s next table = none)
      ∧ (t.ref ∉ s'.aliases → g.outerAlias? s next table = some t.ref) := by
  intro next table
  obtain ⟨source, g₁, g₂, hsource, htarget, _, hsteps₁, hsteps₂, hsteps₃⟩ :=
    aliasSteps_of_join hvariable h
  have hg₁ := hg.steps hsteps₁
  have hg₂ := hg₁.steps hsteps₂
  obtain ⟨s₁, hs₁, _⟩ := (Extends.of_steps hsteps₁).scopes id s hs
  obtain ⟨s₂, hs₂, _⟩ := (Extends.of_steps hsteps₂).scopes id s₁ hs₁
  have hlater : g₂.Extends (g'.afterAll later) :=
    (Extends.of_steps hsteps₃).trans (.afterAll g' later)
  rw [(sees_of_requireAlias htarget hs₂).mem_aliases_iff hlater
    ((hg₂.steps hsteps₃).afterAll later) hs₂ hs']
  obtain ⟨hhere, houter⟩ :=
    known_of_requireAlias hsource (path.ne_join rel.name rel.variableName) table hs hs₁
  rw [← hhere, ← houter]
  have hnext : next.rootVariable? = none := by rw [JoinPath.rootVariable?_join, hvariable]
  exact hg₁.mem_aliases_of_requireAlias (path.isRoot_join _ _) hnext htarget hs₁ hs₂

end Join

/-! ## FROM clauses of nested selects -/

def ListsNested (g : JoinGraph) : Prop :=
  ∀ id s, g.scope? id = some s → id ≠ .root → s.joinSyntax ≠ .sql92

namespace ListsNested

theorem new (joinSyntax : JoinSyntax) : (JoinGraph.new joinSyntax).ListsNested := by
  intro id s hs hid
  have hlt : id.index < 1 := lt_length_of_scope? hs
  apply absurd _ hid
  cases id
  simpa [ScopeId.root] using hlt

theorem after (h : g.ListsNested) (call : JoinCall) : (g.after call).ListsNested := by
  intro id s' hs' hid
  cases hs : g.scope? id with
  | none => exact ((Moves.after g call).fresh id s' hs hs').2
  | some s =>
    obtain ⟨t, ht, hwritten, _⟩ := (EdgeSteps.after g call).keepsEdges id s hs
    obtain rfl := Option.mem_unique hs' ht
    rw [hwritten]
    exact h id s hs hid

theorem afterAll (h : g.ListsNested) (calls : List JoinCall) : (g.afterAll calls).ListsNested := by
  induction calls generalizing g with
  | nil => exact h
  | cons call calls ih => exact ih (h.after call)

theorem sql_eq {p : Profile} {hint : Option String} {clause : FromClause} (h : g.ListsNested)
    (hid : id ≠ .root) (hs : g.scope? id = some s) (hclause : g.fromClause id p hint = .ok clause)
    : clause.sql = ", ".intercalate (s.aliases.map (g.referenceText p hint)) := by
  have hwritten := h id s hs hid
  obtain ⟨correlations, inner, _, hinner, rfl⟩ := fromClause_eq_ok hs hclause
  generalize s.joinSyntax = joinSyntax at hwritten hinner
  cases joinSyntax
  case sql92 => exact absurd rfl hwritten
  all_goals
    dsimp only at hinner
    rw [listedFrom_eq] at hinner
    obtain ⟨conditions, _, hinner⟩ := Compile.bind_eq_ok_iff.mp hinner
    cases hinner
    rfl

end ListsNested

/--
The table that a nested select joins along a path from its own table is its own if it has had it
there before or if no select around has one there. Otherwise it is the table of the nearest select
around that has one. Neither this nor the table changes with anything that is asked for later, and
the FROM clause of the nested select lists the tables that are its own.
-/
theorem target_of_run (joinSyntax : JoinSyntax) (calls : List JoinCall) (id : ScopeId)
    (path : JoinPath) (rel : Relation) (kind : JoinKind) (s : Scope)
    : let g := (JoinGraph.new joinSyntax).afterAll calls
      let next := path.join rel.name rel.variableName
      let table := rel.target.fullName
      g.scope? id = some s → id ≠ .root → path.rootVariable? = none →
        ∃ t g', g.join id path rel kind = .ok (t, g')
          ∧ ∀ later,
              let final := g'.afterAll later
              ∃ s', final.scope? id = some s'
                ∧ (t.ref ∈ s'.aliases ↔
                    s.lookup? next table ≠ none ∨ g.outerAlias? s next table = none)
                ∧ (t.ref ∉ s'.aliases → g.outerAlias? s next table = some t.ref)
                ∧ (∃ again, final.join id path rel kind = .ok (t, again))
                ∧ ∀ p hint clause, final.fromClause id p hint = .ok clause →
                    clause.sql
                      = ", ".intercalate (s'.aliases.map (final.referenceText p hint)) := by
  intro g next table hs hid hvariable
  have hg : g.WellFormed := (WellFormed.new joinSyntax).afterAll calls
  have hlists : g.ListsNested := (ListsNested.new joinSyntax).afterAll calls
  obtain ⟨t, g', h⟩ := exists_join hs path rel kind
  refine ⟨t, g', h, ?_⟩
  intro later final
  have hlists' : g'.ListsNested := after_of_join h ▸ hlists.after _
  have hext : g.Extends g' := after_of_join h ▸ Extends.after g _
  obtain ⟨s', hs', _⟩ := (hext.trans (.afterAll g' later)).scopes id s hs
  obtain ⟨hown, houter⟩ := hg.mem_aliases_of_join hvariable h later hs hs'
  exact ⟨s', hs', hown, houter, hg.join_again hvariable h later,
    fun p hint clause hclause => (hlists'.afterAll later).sql_eq hid hs' hclause⟩

-- The innermost of three selects joins a table, and later both selects around it ask for the same.
theorem target_of_run_innermost
    : let toC : ForeignKey :=
        { columns := ["C_ID"], referencedTable := "C", primaryKeyColumns := ["ID"] }
      let toA : ForeignKey :=
        { columns := ["A_ID"], referencedTable := "A", primaryKeyColumns := ["ID"] }
      let c : Relation :=
        { name := "c", source := { name := "O" }, target := { name := "C" }, foreignKey := toC }
      let a : Relation :=
        { name := "a", source := { name := "O" }, target := { name := "A" }, foreignKey := toA }
      let calls : List JoinCall :=
        [.join .root .root c .inner, .subselect .root, .subselect ⟨1⟩]
      let later : List JoinCall := [.join ⟨1⟩ .root a .inner, .join .root .root a .outer]
      let g := (JoinGraph.new .sql92).afterAll calls
      ∃ t g', g.join ⟨2⟩ .root a .inner = .ok (t, g')
        ∧ let final := g'.afterAll later
          ∃ s', final.scope? ⟨2⟩ = some s' ∧ t.ref ∈ s'.aliases
            ∧ (∃ again, final.join ⟨2⟩ .root a .inner = .ok (t, again))
            ∧ ∀ p hint clause, final.fromClause ⟨2⟩ p hint = .ok clause →
                clause.sql = ", ".intercalate (s'.aliases.map (final.referenceText p hint)) := by
  intro toC toA c a calls later g
  let s : Scope := { enclosing := [⟨1⟩, .root], joinSyntax := .traditional }
  have hs : g.scope? ⟨2⟩ = some s := by decide +kernel
  have hnew : g.outerAlias? s (.join .root "a" none) "A" = none := by decide +kernel
  obtain ⟨t, g', h, hlater⟩ :=
    target_of_run .sql92 calls ⟨2⟩ .root a .inner s hs (by decide) rfl
  obtain ⟨s', hs', hown, _, hagain, hsql⟩ := hlater later
  exact ⟨t, g', h, s', hs', hown.mpr (.inr hnew), hagain, hsql⟩

-- The select around has joined the table before, so the nested one goes out to it.
theorem target_of_run_outward
    : let key : ForeignKey :=
        { columns := ["C_ID"], referencedTable := "C", primaryKeyColumns := ["ID"] }
      let rel : Relation :=
        { name := "c", source := { name := "O" }, target := { name := "C" }, foreignKey := key }
      let calls : List JoinCall := [.join .root .root rel .inner, .subselect .root]
      let g := (JoinGraph.new .sql92).afterAll calls
      ∃ g', g.join ⟨1⟩ .root rel .inner = .ok (⟨⟨1⟩, .join .root "c" none⟩, g')
        ∧ g'.aliasOf ⟨1⟩ { name := "O" } .root = .ok ⟨2⟩
        ∧ (g'.scope? ⟨1⟩).map (·.aliases) = some [⟨2⟩]
        ∧ g'.fromClause ⟨1⟩ Vendor.generic.profile none
            = .ok ⟨"O t2", ["t2.C_ID = t1.ID"]⟩ := by
  intro key rel calls g
  exact ⟨_, rfl, rfl, rfl, by decide +kernel⟩

end JoinGraph
end SqlDialect
