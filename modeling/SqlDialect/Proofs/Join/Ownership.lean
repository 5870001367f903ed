import SqlDialect.Profile.Default
import SqlDialect.Proofs.Join.Conditions
import SqlDialect.Proofs.Join.Nesting

/-!
This module contains which select lists a table that a join has added, and which one has the
condition of the join. The table belongs to the scope that declares the variable from which its path
starts, or else to the scope that asked for the join. The join always belongs to the scope that
asked for it. The two differ only if a nested select goes on from a variable of a select around it.
-/

namespace SqlDialect

open Text (Occurs)

/-! ## First joins -/

def firstJoin? (edges : List JoinEdge) (a b : Alias) : Option JoinEdge := edges.find? (·.Joins a b)

section FirstJoin

variable {edges new : List JoinEdge} {a b : Alias} {e : JoinEdge}

theorem firstJoin?_eq_none_iff : firstJoin? edges a b = none ↔ ¬ HasJoin edges a b := by
  simp [firstJoin?, HasJoin]

theorem exists_firstJoin? (h : HasJoin edges a b) : ∃ e, firstJoin? edges a b = some e := by
  rw [← Option.ne_none_iff_exists', Ne, firstJoin?_eq_none_iff]
  exact not_not_intro h

theorem firstJoin?_append
    : firstJoin? (edges ++ new) a b = (firstJoin? edges a b).or (firstJoin? new a b) :=
  List.find?_append

theorem firstJoin?_recordEdge (edges : List JoinEdge) (e : JoinEdge) (a b : Alias)
    : firstJoin? (recordEdge edges e) a b = firstJoin? (edges ++ [e]) a b := by
  unfold recordEdge
  split
  · next hknown =>
    obtain ⟨f, hf, hpair⟩ := List.any_eq_true.mp hknown
    by_cases hjoins : e.Joins a b
    · -- The aliases are joined already, so another join between them is not the first.
      have hjoined : HasJoin edges a b := ⟨f, hf, joins_of_samePair hpair hjoins⟩
      obtain ⟨first, hfirst⟩ := exists_firstJoin? hjoined
      rw [firstJoin?_append, hfirst, Option.some_or]
    · have hnone : firstJoin? [e] a b = none := by simpa [firstJoin?] using hjoins
      rw [firstJoin?_append, hnone, Option.or_none]
  · rfl

theorem firstJoin?_foldl_recordEdge (edges new : List JoinEdge) (a b : Alias)
    : firstJoin? (new.foldl recordEdge edges) a b = firstJoin? (edges ++ new) a b := by
  induction new generalizing edges with
  | nil => simp
  | cons e new ih =>
    rw [List.foldl_cons, ih, firstJoin?_append, firstJoin?_recordEdge, ← firstJoin?_append,
      List.append_assoc, List.singleton_append]

end FirstJoin

def JoinEdge.SameCondition (e f : JoinEdge) : Prop :=
  ∃ kind, f = { e with kind } ∧ (kind = .cross ↔ e.kind = .cross)

namespace JoinEdge.SameCondition

variable {e f : JoinEdge}

theorem refl (e : JoinEdge) : e.SameCondition e := ⟨e.kind, rfl, Iff.rfl⟩

theorem trans {f' : JoinEdge} (h : e.SameCondition f) (h' : f.SameCondition f')
    : e.SameCondition f' := by
  obtain ⟨_, rfl, hkind⟩ := h
  obtain ⟨kind, rfl, hkind'⟩ := h'
  exact ⟨kind, rfl, hkind'.trans hkind⟩

theorem promoted (e : JoinEdge) (joinSyntax : JoinSyntax)
    : e.SameCondition { e with kind := e.promotedKind joinSyntax } := by
  refine ⟨_, rfl, ?_⟩
  unfold promotedKind
  grind

theorem asks {call : JoinCall} (h : e.SameCondition f) (he : call.Asks e) : call.Asks f := by
  obtain ⟨kind, rfl, hkind⟩ := h
  refine ⟨?_, fun hcall => mt hkind.mp (he.2 hcall)⟩
  cases call with
  | join => exact he.1
  | crossJoin => exact hkind.mpr he.1
  | _ => exact he.1

end JoinEdge.SameCondition

-- Merging keeps the order of the joins, and changes only their kinds.
theorem OrBranches.firstJoin?_merge {o : OrBranches} {a b : Alias} {e : JoinEdge}
    (h : firstJoin? o.all.flatten a b = some e) (joinSyntax : JoinSyntax)
    : ∃ f, firstJoin? (o.merge joinSyntax) a b = some f ∧ e.SameCondition f := by
  let promote (e : JoinEdge) : JoinEdge :=
    if o.isCommon e then e else { e with kind := e.promotedKind joinSyntax }
  have hpromote : ∀ e : JoinEdge, e.SameCondition (promote e) := by
    intro e
    dsimp only [promote]
    split
    · exact .refl e
    · exact .promoted e joinSyntax
  have hjoins : (fun e : JoinEdge => decide (e.Joins a b)) ∘ promote
      = fun e => decide (e.Joins a b) := by
    funext e
    obtain ⟨_, heq, _⟩ := hpromote e
    rw [Function.comp_apply, heq]
    rfl
  refine ⟨promote e, ?_, hpromote e⟩
  unfold merge
  rw [firstJoin?, List.find?_map, hjoins]
  have hfirst := firstJoin?_foldl_recordEdge [] o.all.flatten a b
  rw [List.nil_append, h] at hfirst
  exact congrArg (Option.map promote) hfirst

namespace Scope

variable {s s' : Scope} {a b : Alias} {e : JoinEdge}

def heldJoin? (s : Scope) (a b : Alias) : Option JoinEdge :=
  firstJoin? (s.edges ++ s.branches.flatten) a b

theorem heldJoin?_of_closed (h : s.openOr = none) : s.heldJoin? a b = firstJoin? s.edges a b := by
  rw [heldJoin?, branches_of_closed h, List.flatten_nil, List.append_nil]

theorem heldJoin?_of_eq (hedges : s'.edges = s.edges) (hopen : s'.openOr = s.openOr)
    : s'.heldJoin? a b = s.heldJoin? a b := by
  rw [heldJoin?, heldJoin?, branches, branches, hedges, hopen]

theorem heldJoin?_record (s : Scope) (e : JoinEdge) (a b : Alias)
    : (s.record e).heldJoin? a b = (s.heldJoin? a b).or (firstJoin? [e] a b) := by
  unfold record
  split
  · next o ho =>
    simp only [heldJoin?, branches, ho, OrBranches.all, Option.map_some, Option.getD_some,
      List.flatten_append, List.flatten_singleton, firstJoin?_append, firstJoin?_recordEdge,
      Option.or_assoc]
  · next ho =>
    rw [heldJoin?_of_closed ho, ← firstJoin?_append, ← firstJoin?_recordEdge]
    exact heldJoin?_of_closed ho

theorem heldJoin?_closeOr {o : OrBranches} (ho : s.openOr = some o)
    (h : s.heldJoin? a b = some e)
    : ∃ f, (s.closeOr o).heldJoin? a b = some f ∧ e.SameCondition f := by
  rw [heldJoin?_of_closed rfl]
  unfold closeOr
  rw [firstJoin?_foldl_recordEdge, firstJoin?_append]
  rw [heldJoin?, branches_of_openOr ho, firstJoin?_append, Option.or_eq_some_iff] at h
  obtain h | ⟨hnone, h⟩ := h
  · exact ⟨e, by rw [h, Option.some_or], .refl e⟩
  · obtain ⟨f, hf, hsame⟩ := o.firstJoin?_merge h s.joinSyntax
    exact ⟨f, by rw [hnone, hf, Option.none_or], hsame⟩

theorem awaits_of_heldJoin? (h : s.heldJoin? a b = some e) (hedges : ¬ HasJoin s.edges a b)
    : s.Awaits a b := by
  rw [heldJoin?, firstJoin?_append, firstJoin?_eq_none_iff.mpr hedges, Option.none_or] at h
  obtain ⟨branch, hbranch, he⟩ := List.mem_flatten.mp (List.mem_of_find?_eq_some h)
  exact ⟨branch, hbranch, e, he, by simpa using List.find?_some h⟩

theorem Moves.heldJoin? {recorded : JoinEdge → Prop} {cleared opened : Prop}
    (h : s.Moves recorded cleared opened s') (hcleared : ¬ cleared)
    (hopened : opened → s.Awaits a b → HasJoin s.edges a b) (he : s.heldJoin? a b = some e)
    : ∃ f, s'.heldJoin? a b = some f ∧ e.SameCondition f := by
  cases h with
  | keep hedges hopen => exact ⟨e, (heldJoin?_of_eq hedges hopen).trans he, .refl e⟩
  | record _ hedges hopen =>
    refine ⟨e, ?_, .refl e⟩
    rw [heldJoin?_record, heldJoin?_of_eq hedges hopen, he, Option.some_or]
  | clear h => exact absurd h hcleared
  | beginOr h =>
    have hjoined : HasJoin s.edges a b := by
      by_contra hnone
      exact hnone (hopened h (awaits_of_heldJoin? he hnone))
    refine ⟨e, ?_, .refl e⟩
    obtain ⟨first, hfirst⟩ := exists_firstJoin? hjoined
    rw [Scope.heldJoin?, firstJoin?_append, hfirst, Option.some_or] at he ⊢
    exact he
  | nextBranch ho =>
    refine ⟨e, ?_, .refl e⟩
    rw [Scope.heldJoin?, branches_of_openOr ho] at he
    simpa [Scope.heldJoin?, branches, OrBranches.all] using he
  | closeOr ho => exact heldJoin?_closeOr ho he

end Scope

def JoinCall.targetPath? : JoinCall → Option JoinPath
  | .join _ path rel _ => some (path.join rel.name rel.variableName)
  | .crossJoin _ _ _ _ v => some (.ofVariable v)
  | _ => none

namespace JoinGraph

variable {g g' : JoinGraph} {id : ScopeId} {s : Scope} {path next : JoinPath} {a b : Alias}

/--
The scope to which the table belongs that a call comes to, if it is new.
-/
def targetOwner (g : JoinGraph) (id : ScopeId) (s : Scope) (call : JoinCall) : ScopeId :=
  (call.targetPath?.bind (g.home? id s)).getD id

/-! ## Homes of paths -/

theorem home?_modifyScope (i : ScopeId) {f : Scope → Scope}
    (hf : ∀ s, (f s).variableNames = s.variableNames) (id : ScopeId) {s' : Scope}
    (hs' : s'.enclosing = s.enclosing)
    : (g.modifyScope i f).home? id s' path = g.home? id s path := by
  have hany : ∀ v j, ((g.modifyScope i f).scope? j).any (·.variableNames.contains v)
      = (g.scope? j).any (·.variableNames.contains v) := by
    intro v j
    rw [scope?_modifyScope]
    split
    · cases g.scope? j <;> simp [hf]
    · rfl
  unfold home? declaringScope?
  simp only [hany, hs']

-- Requests for aliases declare no variables.
theorem home?_of_requireAlias {table : Table} (h : g.requireAlias id table path = .ok (a, g'))
    (hs : g.scope? id = some s)
    : ∃ s', g'.scope? id = some s' ∧ s'.enclosing = s.enclosing
        ∧ ∀ next, g'.home? id s' next = g.home? id s next := by
  obtain ⟨_, _, ⟨_, rfl⟩ | ⟨_, halloc⟩⟩ := requireAlias_eq_ok_iff.mp h
  · exact ⟨s, hs, rfl, fun _ => rfl⟩
  · obtain rfl : _ = g' := congrArg Prod.snd halloc
    obtain ⟨s', hs', henclosing, _⟩ := (Extends.allocate g _ path table.fullName).scopes id s hs
    refine ⟨s', hs', henclosing, fun next => ?_⟩
    unfold allocate
    exact home?_modifyScope _ (by simp) id henclosing

/-! ## New aliases -/

theorem WellFormed.lt_aliasCount_of_hasEntry (hg : g.WellFormed) {e : AliasEntry}
    (h : g.HasEntry e) : e.ref.index < g.aliasCount := by
  obtain ⟨_, t, ht, he⟩ := h
  exact hg.lt_aliasCount ht (List.mem_map_of_mem he)

theorem WellFormed.owner_of_requireAlias (hg : g.WellFormed) {table : Table}
    (h : g.requireAlias id table path = .ok (a, g')) (hs : g.scope? id = some s)
    (hnew : g.aliasCount ≤ a.index)
    : ∃ t, g'.scope? ((g.home? id s path).getD id) = some t ∧ a ∈ t.aliases := by
  obtain ⟨t, ht, ⟨hfound, rfl⟩ | ⟨hnone, halloc⟩⟩ := requireAlias_eq_ok_iff.mp h
  · obtain ⟨_, hentry, _⟩ := hasEntry_of_findAlias? ht hfound
    have hlt := hg.lt_aliasCount_of_hasEntry hentry
    exact absurd hlt (Nat.not_lt.mpr hnew)
  · obtain rfl := Option.mem_unique hs ht
    obtain ⟨u, hu, _⟩ := lookup?_owner_eq_none hs hnone
    obtain rfl : ⟨g.aliasCount⟩ = a := congrArg Prod.fst halloc
    obtain rfl : _ = g' := congrArg Prod.snd halloc
    rw [scope?_allocate, if_pos rfl, hu]
    exact ⟨_, rfl, by simp [Scope.aliases]⟩

theorem Extends.of_requireAlias {table : Table} (h : g.requireAlias id table path = .ok (a, g'))
    : g.Extends g' := by
  have hsteps : AliasSteps [] path.rootVariable?.toList g g' := .of_requireAlias h (by simp)
  exact .of_steps hsteps

theorem WellFormed.of_requireAlias (hg : g.WellFormed) {table : Table}
    (h : g.requireAlias id table path = .ok (a, g')) : g'.WellFormed := by
  have hsteps : AliasSteps [] path.rootVariable?.toList g g' := .of_requireAlias h (by simp)
  exact hg.steps hsteps

-- The only alias that a request can add is the next one, and its entry is at the requested path.
theorem eq_of_requireAlias {table : Table} (h : g.requireAlias id table path = .ok (a, g'))
    (hlt : b.index < g'.aliasCount) (hnew : g.aliasCount ≤ b.index)
    : a = b ∧ g'.HasEntry ⟨path, table.fullName, b⟩ := by
  obtain ⟨t, ht, ⟨_, rfl⟩ | ⟨hnone, halloc⟩⟩ := requireAlias_eq_ok_iff.mp h
  · exact absurd hlt (Nat.not_lt.mpr hnew)
  · obtain ⟨u, hu, _⟩ := lookup?_owner_eq_none ht hnone
    obtain rfl : ⟨g.aliasCount⟩ = a := congrArg Prod.fst halloc
    obtain rfl : _ = g' := congrArg Prod.snd halloc
    rw [aliasCount_allocate] at hlt
    have hindex : b.index = g.aliasCount := by omega
    obtain rfl : ⟨g.aliasCount⟩ = b := by rw [← hindex]
    exact ⟨rfl, hasEntry_allocate hu path table.fullName⟩

theorem WellFormed.owner_of_ends (hg : g.WellFormed) (hs : g.scope? id = some s)
    {source target : Table} {g₁ g₂ : JoinGraph}
    (hsource : g.requireAlias id source path = .ok (a, g₁))
    (htarget : g₁.requireAlias id target next = .ok (b, g₂)) (hnext : next.isRoot = false)
    (hnew : g.aliasCount ≤ b.index)
    : ∃ t, g₂.scope? ((g.home? id s next).getD id) = some t ∧ b ∈ t.aliases := by
  have hg₁ := hg.of_requireAlias hsource
  obtain ⟨s₁, hs₁, _, hhome⟩ := home?_of_requireAlias hsource hs
  by_cases hlt : b.index < g₁.aliasCount
  · -- The first request has added the table, so the second one is for the same path.
    obtain ⟨rfl, hentry⟩ := eq_of_requireAlias hsource hlt hnew
    obtain ⟨_, hentry', hpath⟩ := hasEntry_of_requireAlias htarget
    have hext : g₁.Extends g₂ := .of_requireAlias htarget
    have heq := (hg₁.of_requireAlias htarget).eq_of_ref_eq (hentry.extends hext) hentry' rfl
    obtain rfl : path = next := (congrArg AliasEntry.path heq).trans (hpath hnext)
    obtain ⟨t, ht, hmem⟩ := hg.owner_of_requireAlias hsource hs hnew
    obtain ⟨t', ht', _, hentries⟩ := hext.scopes _ t ht
    exact ⟨t', ht', (hentries.map _).subset hmem⟩
  · rw [← hhome]
    exact hg₁.owner_of_requireAlias htarget hs₁ (Nat.not_lt.mp hlt)

/-! ## Joins -/

theorem Extends.connect (g : JoinGraph) (id : ScopeId) (e : JoinEdge)
    : g.Extends (g.connect id e) := by
  have hsteps : AliasSteps [] [] g (g.connect id e) := .connect e
  exact .of_steps hsteps

theorem Extends.mem_aliases (h : g.Extends g') (hs : g.scope? id = some s) (ha : a ∈ s.aliases)
    : ∃ s', g'.scope? id = some s' ∧ a ∈ s'.aliases := by
  obtain ⟨s', hs', _, hentries⟩ := h.scopes id s hs
  exact ⟨s', hs', (hentries.map _).subset ha⟩

theorem WellFormed.owner_of_joining (hg : g.WellFormed) {call : JoinCall}
    (hs : g.scope? id = some s) (h : g.Joining id a b call) (hnew : g.aliasCount ≤ b.index)
    : ∃ t, (g.after call).scope? (g.targetOwner id s call) = some t ∧ b ∈ t.aliases := by
  cases call with
  | join i path rel kind =>
    obtain ⟨rfl, _, next, g', h⟩ := h
    have hafter := after_of_join h
    obtain ⟨g₁, g₂, g₃, e, hsource, htarget, hg₃, _, ht, rfl⟩ := join_eq_ok h
    cases ht
    obtain ⟨t, ht, hmem⟩ :=
      hg.owner_of_ends hs hsource htarget (path.isRoot_join rel.name rel.variableName) hnew
    rw [hafter]
    refine Extends.mem_aliases ?_ ht hmem
    obtain rfl | rfl := hg₃
    · exact .connect _ i e
    · refine Extends.trans ?_ (.connect _ i e)
      exact .modifyScope g₂ i fun _ => ⟨rfl, List.prefix_refl _⟩
  | crossJoin i source path target v =>
    obtain ⟨rfl, _, next, g', h⟩ := h
    have hafter : g.after (.crossJoin i source path target v) = g' := by
      apply after_of_perform
      rw [perform, h]
      rfl
    obtain ⟨g₁, g₂, e, hsource, htarget, _, ht, rfl⟩ := crossJoin_eq_ok h
    cases ht
    have hs₀ : (g.modifyScope i fun s => { s with implicitDistinct := true }).scope? i
        = some { s with implicitDistinct := true } := by
      rw [scope?_modifyScope, if_pos rfl, hs]
      rfl
    have hg₀ := hg.modifyScope i (f := fun s => { s with implicitDistinct := true })
      fun _ => ⟨rfl, rfl⟩
    obtain ⟨t, ht, hmem⟩ := hg₀.owner_of_ends hs₀ hsource htarget rfl hnew
    have hhome : (g.modifyScope i fun s => { s with implicitDistinct := true }).home? i
        { s with implicitDistinct := true } (.ofVariable v) = g.home? i s (.ofVariable v) := by
      apply home?_modifyScope
      · exact fun _ => rfl
      · rfl
    rw [hhome] at ht
    rw [hafter]
    exact (Extends.connect g₂ i e).mem_aliases ht hmem
  | _ => cases h

theorem targetOwner_mem (g : JoinGraph) (id : ScopeId) (s : Scope) (call : JoinCall)
    : g.targetOwner id s call ∈ id :: s.enclosing := by
  unfold targetOwner
  cases call.targetPath? with
  | none => exact List.mem_cons_self
  | some path => exact owner_mem g id s path

/-! ## Runs -/

theorem heldJoin?_after {call : JoinCall} {e : JoinEdge} (hs : g.scope? id = some s)
    (he : s.heldJoin? a b = some e) (hcleared : id ∉ call.cleared)
    (hopened : id ∈ call.opened → g.Awaits id a b → g.Joined id a b)
    : ∃ s' f, (g.after call).scope? id = some s' ∧ s'.heldJoin? a b = some f
        ∧ e.SameCondition f := by
  obtain ⟨s', hs', hmoves⟩ := (Moves.after g call).scopes id s hs
  obtain ⟨f, hf, hsame⟩ := hmoves.heldJoin? hcleared (fun hid hawaits => by
    obtain ⟨t, ht, hjoined⟩ := hopened hid ⟨s, hs, hawaits⟩
    exact Option.mem_unique ht hs ▸ hjoined) he
  exact ⟨s', f, hs', hf, hsame⟩

theorem heldJoin?_afterAll {calls : List JoinCall} {e : JoinEdge} (hs : g.scope? id = some s)
    (he : s.heldJoin? a b = some e) (hcleared : ∀ call ∈ calls, id ∉ call.cleared)
    (hkept : ¬ g.Discards id a b calls)
    : ∃ s' f, (g.afterAll calls).scope? id = some s' ∧ s'.heldJoin? a b = some f
        ∧ e.SameCondition f := by
  induction calls generalizing g s e with
  | nil => exact ⟨s, e, hs, he, .refl e⟩
  | cons call calls ih =>
    rw [Discards, not_or] at hkept
    obtain ⟨hstep, hrest⟩ := hkept
    obtain ⟨s₁, e₁, hs₁, he₁, hsame₁⟩ :=
      heldJoin?_after hs he (hcleared call List.mem_cons_self) fun hid hawaits => by
        by_contra hjoined
        exact hstep ⟨hid, hawaits, hjoined⟩
    obtain ⟨s', f, hs', hf, hsame⟩ :=
      ih hs₁ he₁ (fun c hc => hcleared c (List.mem_cons_of_mem _ hc)) hrest
    exact ⟨s', f, hs', hf, hsame₁.trans hsame⟩

-- Only aliases that exist are joined.
theorem EdgesSound.heldJoin?_eq_none (hg : g.EdgesSound) (hs : g.scope? id = some s)
    (hnew : g.aliasCount ≤ b.index) : s.heldJoin? a b = none := by
  rw [Scope.heldJoin?, firstJoin?_eq_none_iff]
  rintro ⟨e, he, hjoins⟩
  have hstore : ∃ store ∈ s.stores, e ∈ store := by
    obtain he | he := List.mem_append.mp he
    · exact ⟨s.edges, List.mem_cons_self, he⟩
    · obtain ⟨branch, hbranch, he⟩ := List.mem_flatten.mp he
      exact ⟨branch, List.mem_cons_of_mem _ hbranch, he⟩
  obtain ⟨store, hstore, he⟩ := hstore
  have hvalid := ((hg.sound id s hs store hstore).2 e he).1
  have hseen : ∀ {table}, g.Sees id s table b → False := by
    rintro table ⟨i, _, t, ht, entry, hentry, _, rfl⟩
    have hlt := hg.wellFormed.lt_aliasCount ht (List.mem_map_of_mem hentry)
    omega
  obtain ⟨_, rfl⟩ | ⟨rfl, _⟩ := hjoins
  · exact hseen hvalid.target
  · exact hseen hvalid.source

theorem EdgesSound.heldJoin?_of_joining (hg : g.EdgesSound) {call : JoinCall}
    (h : g.Joining id a b call) (hnew : g.aliasCount ≤ b.index)
    : ∃ s e, (g.after call).scope? id = some s ∧ s.heldJoin? a b = some e
        ∧ e.source = a ∧ e.target = b ∧ call.Asks e := by
  obtain ⟨e, ⟨g₁, s₁, hsame, hs₁, hafter⟩, hasks, rfl, rfl⟩ := connects_of_joining h
  cases hs : g.scope? id with
  | none =>
    rw [hsame.scope?_eq_none hs] at hs₁
    cases hs₁
  | some s =>
    obtain ⟨t, ht, hedges, hopen⟩ := hsame.scopes id s hs
    obtain rfl := Option.mem_unique hs₁ ht
    have hnone : s₁.heldJoin? e.source e.target = none := by
      rw [Scope.heldJoin?_of_eq hedges hopen]
      exact hg.heldJoin?_eq_none hs hnew
    let correlated := s₁.isCorrelated e.source e.target
    refine ⟨s₁.record { e with correlated }, { e with correlated }, ?_, ?_, rfl, rfl, ?_⟩
    · rw [hafter, connect, scope?_modifyScope, if_pos rfl, hs₁]
      rfl
    · rw [Scope.heldJoin?_record, hnone, Option.none_or]
      simp [firstJoin?, JoinEdge.Joins]
    · cases call <;> exact hasks

/--
A table that a join has added belongs to the scope that declares the variable from which its path
starts, and otherwise to the scope that asked for the join. The join itself stays with the scope
that asked for it, and so does its condition: it stands in the FROM clause of that scope, or is left
for its WHERE. So a table that belongs to the scope that asked for it is never listed without its
condition.
-/
theorem constraint_of_run (joinSyntax : JoinSyntax) (before calls : List JoinCall) (call : JoinCall)
    (id : ScopeId) (a b : Alias) (s : Scope)
    : let g := (JoinGraph.new joinSyntax).afterAll before
      let final := g.afterAll (call :: calls)
      let owner := g.targetOwner id s call
      g.scope? id = some s → g.Joining id a b call → g.aliasCount ≤ b.index →
        owner ∈ id :: s.enclosing
        ∧ (∃ t, final.scope? owner = some t ∧ b ∈ t.aliases)
        ∧ (∀ o t, final.scope? o = some t → b ∈ t.aliases → o = owner)
        ∧ ((∀ c ∈ calls, id ∉ c.cleared) → final.Closed id →
            ¬ (g.after call).Discards id a b calls →
              ∃ s', final.scope? id = some s' ∧ ∃ e ∈ s'.edges,
                e.source = a ∧ e.target = b ∧ call.Asks e
                ∧ (e.kind ≠ .cross → ∀ p hint clause, final.fromClause id p hint = .ok clause →
                    ∃ condition, s'.condition p e = .ok condition
                      ∧ (condition ∈ clause.conditions ∨ Occurs condition clause.sql))) := by
  intro g final owner hs hcall hnew
  have hg : g.EdgesSound := (EdgesSound.new joinSyntax).afterAll before
  have hfinal : final.WellFormed := hg.wellFormed.afterAll (call :: calls)
  obtain ⟨t, ht, hmem⟩ := hg.wellFormed.owner_of_joining hs hcall hnew
  obtain ⟨t', ht', hmem'⟩ := (Extends.afterAll (g.after call) calls).mem_aliases ht hmem
  refine ⟨targetOwner_mem g id s call, ⟨t', ht', hmem'⟩, ?_, ?_⟩
  · intro o u hu hb
    exact hfinal.eq_of_mem_aliases hu ht' hb hmem'
  · intro hcleared hclosed hkept
    obtain ⟨s₁, e, hs₁, he, hsource, htarget, hasks⟩ := hg.heldJoin?_of_joining hcall hnew
    obtain ⟨s', f, hs', hf, hsame⟩ := heldJoin?_afterAll hs₁ he hcleared hkept
    rw [Scope.heldJoin?_of_closed (hclosed s' hs')] at hf
    have hmem : f ∈ s'.edges := List.mem_of_find?_eq_some hf
    have hasks' : call.Asks f := hsame.asks hasks
    obtain ⟨_, rfl, _⟩ := hsame
    refine ⟨s', hs', _, hmem, hsource, htarget, hasks', fun hcross p hint clause hclause => ?_⟩
    exact written_of_fromClause hs' hclause hmem hcross

-- The select around declares the variable, and the nested one hides it by its own. The join is
-- asked for in one branch of an OR.
theorem constraint_of_run_hidden
    : let key : ForeignKey :=
        { columns := ["C_ID"], referencedTable := "C", primaryKeyColumns := ["ID"] }
      let rel : Relation :=
        { name := "c", source := { name := "O" }, target := { name := "C" }, foreignKey := key }
      let before : List JoinCall :=
        [.declareVariable .root "v", .subselect .root, .declareVariable ⟨1⟩ "v", .beginOr ⟨1⟩]
      let call : JoinCall := .join ⟨1⟩ (.ofVariable "v") rel .inner
      let calls : List JoinCall :=
        [.nextOrBranch ⟨1⟩, .endOr ⟨1⟩, .join .root (.ofVariable "v") rel .inner]
      let g := (JoinGraph.new .native).afterAll before
      let final := g.afterAll (call :: calls)
      g.Joining ⟨1⟩ ⟨0⟩ ⟨1⟩ call
        ∧ (∀ o t, final.scope? o = some t → ⟨1⟩ ∈ t.aliases → o = ⟨1⟩)
        ∧ final.Joined ⟨1⟩ ⟨0⟩ ⟨1⟩ := by
  intro key rel before call calls g final
  let s : Scope :=
    { enclosing := [.root], joinSyntax := .native, variableNames := ["v"], openOr := some {} }
  have hs : g.scope? ⟨1⟩ = some s := by decide +kernel
  have hcall : g.Joining ⟨1⟩ ⟨0⟩ ⟨1⟩ call := ⟨rfl, ⟨_, rfl⟩, _, _, rfl⟩
  obtain ⟨_, _, howner, hjoined⟩ :=
    constraint_of_run .native before calls call ⟨1⟩ ⟨0⟩ ⟨1⟩ s hs hcall (by decide +kernel)
  obtain ⟨s', hs', e, he, hsource, htarget, _⟩ :=
    hjoined (by decide +kernel) (by decide +kernel) (by decide +kernel)
  have hhere : g.targetOwner ⟨1⟩ s call = ⟨1⟩ := by decide +kernel
  refine ⟨hcall, fun o t ht hb => ?_, s', hs', e, he, .inl ⟨hsource, htarget⟩⟩
  exact (howner o t ht hb).trans hhere

-- The nested select goes on from the variable of the select around. That one lists both tables, and
-- has no condition on them.
theorem constraint_of_run_outward
    : let key : ForeignKey :=
        { columns := ["C_ID"], referencedTable := "C", primaryKeyColumns := ["ID"] }
      let rel : Relation :=
        { name := "c", source := { name := "O" }, target := { name := "C" }, foreignKey := key }
      let before : List JoinCall := [.declareVariable .root "v", .subselect .root]
      let call : JoinCall := .join ⟨1⟩ (.ofVariable "v") rel .inner
      let g := (JoinGraph.new .sql92).afterAll before
      let final := g.after call
      g.Joining ⟨1⟩ ⟨0⟩ ⟨1⟩ call ∧ g.aliasCount ≤ 1
        ∧ final.Closed .root ∧ final.Closed ⟨1⟩
        ∧ (final.scope? .root).map (·.aliases) = some [⟨0⟩, ⟨1⟩]
        ∧ (final.scope? .root).map (·.edges) = some []
        ∧ final.fromClause .root Vendor.generic.profile none = .ok ⟨"O t0, C t1", []⟩ := by
  refine ⟨⟨rfl, ⟨_, rfl⟩, _, _, rfl⟩, ?_⟩
  decide +kernel

end JoinGraph
end SqlDialect
