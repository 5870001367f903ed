import SqlDialect.Profile.Default
import SqlDialect.Proofs.Expr.Steps
import SqlDialect.Proofs.Join.Conditions
import SqlDialect.Proofs.Join.Merging
import SqlDialect.Proofs.Join.Requests

/-!
This module contains when a FROM clause cannot be written. Every join has a condition to be written,
in all three notations, so a constant that has no text is always met, and so is an outer join that
cannot be marked. Closing an OR never makes such a join.
-/

namespace SqlDialect

theorem Compile.exists_error_iff {α : Type} {x : Compile α}
    : (∃ err, x = .error err) ↔ ¬ ∃ a, x = .ok a := by
  cases x <;> simp

theorem Literal.exists_token_iff {value : Literal}
    : (∃ t, value.token = .ok t) ↔ value.isFinite := by
  cases value with
  | float x =>
    cases hx : x.isFinite <;> simp [token, isFinite, hx]
  | _ => simp [token, isFinite]

theorem Literal.not_isFinite_iff {value : Literal}
    : ¬ value.isFinite ↔ ∃ x : Binary64, value = .float x ∧ ¬ x.isFinite := by
  cases value <;> simp [isFinite]

/-! ## Conditions that cannot be written -/

namespace JoinEdge

def NonFinite (e : JoinEdge) : Prop :=
  ∃ fk, e.foreignKey = some fk ∧ ∃ name x,
    (name, Literal.float x) ∈ fk.constantColumns ++ fk.constantPrimaryKeyColumns ∧ ¬ x.isFinite

variable {e : JoinEdge} {p : Profile}

theorem map_snd_constants {fk : ForeignKey} (h : e.foreignKey = some fk)
    : e.constants.map (·.2) = fk.constantColumns ++ fk.constantPrimaryKeyColumns := by
  unfold constants
  rw [h]
  simp [Function.comp_def]

theorem nonFinite_iff : e.NonFinite ↔ ∃ c ∈ e.constants, ¬ c.2.2.isFinite := by
  constructor
  · rintro ⟨fk, hfk, name, x, hmem, hx⟩
    rw [← map_snd_constants hfk] at hmem
    obtain ⟨c, hc, hvalue⟩ := List.mem_map.mp hmem
    refine ⟨c, hc, ?_⟩
    rw [hvalue]
    exact hx
  · rintro ⟨c, hc, hvalue⟩
    cases hfk : e.foreignKey with
    | none => simp [constants, hfk] at hc
    | some fk =>
      obtain ⟨x, hx, hinfinite⟩ := Literal.not_isFinite_iff.mp hvalue
      refine ⟨fk, hfk, c.2.1, x, ?_, hinfinite⟩
      rw [← map_snd_constants hfk, ← hx]
      exact List.mem_map_of_mem hc

theorem exists_predicate_iff {marker : String}
    : (∃ text, e.predicate p marker = .ok text) ↔ ¬ e.NonFinite := by
  have hconstant : ∀ c, (∃ text, constantComparison p c = .ok text) ↔ c.2.2.isFinite := by
    intro c
    simp [constantComparison_eq, constantTokens, Compile.map_eq_ok_iff, Literal.exists_token_iff]
  calc
    _ ↔ ∃ texts, e.constants.mapM (constantComparison p) = .ok texts := by
      simp [predicate_eq, Compile.bind_eq_ok_iff]
    _ ↔ ∀ c ∈ e.constants, c.2.2.isFinite := by
      simp only [Compile.exists_mapM_eq_ok_iff, hconstant]
    _ ↔ ¬ e.NonFinite := by
      simp [nonFinite_iff]

end JoinEdge

def Scope.Unmarkable (s : Scope) (e : JoinEdge) : Prop :=
  s.joinSyntax = .native ∧ s.isLocal e ∧ e.kind = .outer ∧ e.hasConstants

theorem Scope.exists_condition_iff {s : Scope} {p : Profile} {e : JoinEdge}
    : (∃ text, s.condition p e = .ok text) ↔ ¬ e.NonFinite ∧ ¬ s.Unmarkable e := by
  unfold condition Unmarkable JoinEdge.nativePredicate
  split
  · split
    · split
      · simp_all
      · simp_all [JoinEdge.exists_predicate_iff]
    · simp_all [JoinEdge.exists_predicate_iff]
  · rw [JoinEdge.exists_predicate_iff]
    grind

/-! ## Clauses that can be written -/

namespace JoinChain

variable {p : Profile}

theorem exists_add {step : JoinStep} (c : JoinChain)
    (h : step.edge.kind ≠ .cross → ∃ text, step.edge.predicate p "" = .ok text)
    : ∃ c', c.add p step = .ok c' := by
  have hcondition : ∃ condition, step.edge.condition? p = .ok condition := by
    unfold JoinEdge.condition?
    split
    · exact ⟨none, rfl⟩
    · next hcross =>
      obtain ⟨text, htext⟩ := h hcross
      exact ⟨some text, by rw [htext]; rfl⟩
  apply Compile.exists_bind hcondition
  intro condition
  split
  · exact ⟨_, rfl⟩
  · exact ⟨_, rfl⟩
  · split
    · exact ⟨_, rfl⟩
    · exact ⟨_, rfl⟩

theorem exists_ofSteps {steps : List JoinStep} (start : Alias)
    (h : ∀ step ∈ steps, step.edge.kind ≠ .cross → ∃ text, step.edge.predicate p "" = .ok text)
    : ∃ c, ofSteps p start steps = .ok c := by
  unfold ofSteps
  generalize ({ start } : JoinChain) = c
  induction steps generalizing c with
  | nil => exact ⟨c, rfl⟩
  | cons step steps ih =>
    obtain ⟨hstep, hsteps⟩ := List.forall_mem_cons.mp h
    obtain ⟨c', hc'⟩ := exists_add c hstep
    rw [List.foldlM_cons, hc', Compile.ok_bind]
    exact ih hsteps c'

end JoinChain

namespace JoinGraph

variable {g : JoinGraph} {p : Profile} {hint : Option String} {id : ScopeId} {s : Scope}

theorem exists_chainedFrom {aliases : List Alias} {edges : List JoinEdge}
    (hends : ∀ e ∈ edges, e.source ∈ aliases ∧ e.target ∈ aliases)
    (h : ∀ e ∈ edges, e.kind ≠ .cross → ∃ text, e.predicate p "" = .ok text)
    : ∃ clause, g.chainedFrom p hint aliases edges = .ok clause := by
  have hperm := Traversal.perm_chains (Traversal.frontier_start edges) aliases
    fun e he => (hends e he).1
  refine Compile.exists_bind (Compile.exists_mapM_eq_ok_iff.mpr ?_) fun chains =>
    Compile.exists_bind (g.exists_writeChains p hint chains) fun _ => ⟨_, rfl⟩
  intro d hd
  apply JoinChain.exists_ofSteps
  intro step hstep
  apply h
  apply hperm.subset
  exact List.mem_flatMap.mpr ⟨d, hd, List.mem_map_of_mem hstep⟩

theorem exists_listedFrom {aliases : List Alias} {edges : List JoinEdge}
    {predicate : JoinEdge → Compile String}
    (h : ∀ e ∈ edges, e.kind ≠ .cross → ∃ text, predicate e = .ok text)
    : ∃ clause, g.listedFrom p hint aliases edges predicate = .ok clause := by
  rw [listedFrom_eq]
  refine Compile.exists_bind (Compile.exists_mapM_eq_ok_iff.mpr ?_) fun _ => ⟨_, rfl⟩
  intro e he
  obtain ⟨he, hcross⟩ := List.mem_filter.mp he
  exact h e he (by simpa using hcross)

theorem exists_fromClause_iff (hs : g.scope? id = some s)
    : (∃ clause, g.fromClause id p hint = .ok clause)
        ↔
      s.entries ≠ [] ∧ ∀ e ∈ s.edges, e.kind ≠ .cross → ∃ text, s.condition p e = .ok text := by
  constructor
  · rintro ⟨clause, hclause⟩
    constructor
    · intro hempty
      simp [fromClause, scope_eq_ok_iff.mpr hs, hempty] at hclause
      cases hclause
    · intro e he hcross
      obtain ⟨text, htext, _⟩ := written_of_fromClause hs hclause he hcross
      exact ⟨text, htext⟩
  · rintro ⟨hentries, hedges⟩
    have hempty : s.entries.isEmpty = false := by simpa using hentries
    simp only [fromClause, scope_eq_ok_iff.mpr hs, Compile.ok_bind, hempty]
    refine Compile.exists_bind (Compile.exists_mapM_eq_ok_iff.mpr ?_) fun _ => ?_
    · intro e he
      obtain ⟨he, hkeep⟩ := List.mem_filter.mp he
      simp only [Bool.and_eq_true, Bool.not_eq_true', decide_eq_true_eq] at hkeep
      simpa [Scope.condition, hkeep.1] using hedges e he hkeep.2
    · have hlocal : ∀ e ∈ s.edges.filter s.isLocal, s.isLocal e ∧
          (e.kind ≠ .cross → ∃ text, s.condition p e = .ok text) := by
        intro e he
        obtain ⟨he, hlocal⟩ := List.mem_filter.mp he
        exact ⟨hlocal, hedges e he⟩
      split
      all_goals refine Compile.exists_bind ?_ fun _ => ⟨_, rfl⟩
      · next hwritten =>
        apply exists_chainedFrom
        · exact fun e he => ends_mem_of_isLocal (hlocal e he).1
        · intro e he hcross
          simpa [Scope.condition, hwritten] using (hlocal e he).2 hcross
      · next hwritten =>
        apply exists_listedFrom
        intro e he hcross
        simpa [Scope.condition, hwritten] using (hlocal e he).2 hcross
      · next hwritten =>
        apply exists_listedFrom
        intro e he hcross
        simpa [Scope.condition, hwritten, (hlocal e he).1] using (hlocal e he).2 hcross

end JoinGraph

/-! ## Outer joins with constants -/

theorem JoinEdge.promotedKind_of_hasConstants {e : JoinEdge} (h : e.hasConstants)
    : e.promotedKind .native = e.kind := by
  simp [promotedKind_eq, h]

namespace Scope

theorem Moves.sound {recorded valid : JoinEdge → Prop} {cleared opened : Prop} {s s' : Scope}
    (h : s.Moves recorded cleared opened s') (hs : s.Sound valid)
    (hrecorded : ∀ e, recorded e → valid e)
    (hpromoted : ∀ e, valid e → valid { e with kind := e.promotedKind s.joinSyntax })
    : s'.Sound valid := by
  have hkeep : ∀ t : Scope, t.edges = s.edges → t.openOr = s.openOr → t.Sound valid :=
    fun t hedges hopen => (JoinChange.keep hedges hopen : JoinChange _ True s t).sound hs hpromoted
  cases h with
  | keep hedges hopen => exact hkeep s' hedges hopen
  | record he hedges hopen =>
    exact JoinChange.sound_record (hkeep _ hedges hopen) (hrecorded _ he)
  | clear => exact (JoinChange.clear trivial).sound hs hpromoted
  | beginOr => exact (JoinChange.beginOr : JoinChange _ True s _).sound hs hpromoted
  | nextBranch ho => exact (JoinChange.nextBranch ho : JoinChange _ True s _).sound hs hpromoted
  | closeOr ho => exact (JoinChange.closeOr ho : JoinChange _ True s _).sound hs hpromoted

theorem mem_edges_closeOr {s : Scope} {b : OrBranches} {e : JoinEdge}
    (hnative : s.joinSyntax = .native) (he : e ∈ (s.closeOr b).edges)
    (hconstants : e.hasConstants) : e ∈ s.edges ∨ e ∈ b.all.flatten := by
  refine (mem_foldl_recordEdge he).imp_right fun he => ?_
  rw [hnative] at he
  obtain ⟨branch, hbranch, f, hf, rfl | rfl⟩ := OrBranches.mem_merge he
  · exact List.mem_flatten_of_mem hbranch hf
  · have hkind : f.promotedKind .native = f.kind := JoinEdge.promotedKind_of_hasConstants hconstants
    rw [hkind]
    exact List.mem_flatten_of_mem hbranch hf

end Scope

namespace JoinGraph

/--
A join stems from a call of a run that asks for an outer join.
-/
def AskedOuter (g : JoinGraph) (calls : List JoinCall) (id : ScopeId) (e : JoinEdge) : Prop :=
  ∃ before path rel after, calls = before ++ .join id path rel .outer :: after
    ∧ (g.afterAll before).Joining id e.source e.target (.join id path rel .outer)
    ∧ e.foreignKey = some rel.foreignKey ∧ e.inverse = rel.inverse

variable {g : JoinGraph} {id : ScopeId} {s : Scope} {e : JoinEdge}

theorem AskedOuter.append {calls : List JoinCall} (h : g.AskedOuter calls id e) (call : JoinCall)
    : g.AskedOuter (calls ++ [call]) id e := by
  obtain ⟨before, path, rel, after, rfl, hrest⟩ := h
  exact ⟨before, path, rel, after ++ [call], by simp, hrest⟩

theorem AskedOuter.last {calls : List JoinCall} {call : JoinCall}
    (h : (g.afterAll calls).Records id call e) (hkind : e.kind = .outer)
    : g.AskedOuter (calls ++ [call]) id e := by
  obtain ⟨hrequests, houter⟩ := h
  obtain ⟨houter, hjoining⟩ := houter hkind
  cases call with
  | join i path rel kind =>
    obtain rfl : kind = .outer := houter
    obtain rfl : i = id := hjoining.1
    exact ⟨calls, path, rel, [], rfl, hjoining, hrequests⟩
  | _ => cases houter

def Justified (g : JoinGraph) (calls : List JoinCall) (id : ScopeId) (s : Scope) (e : JoinEdge) :
    Prop :=
  s.joinSyntax = .native → e.kind = .outer → e.hasConstants → g.AskedOuter calls id e

theorem sound_of_run (joinSyntax : JoinSyntax) (calls : List JoinCall)
    (hs : ((new joinSyntax).afterAll calls).scope? id = some s)
    : s.Sound ((new joinSyntax).Justified calls id s) := by
  have hnil : ∀ {t : Scope} {calls : List JoinCall}, t.edges = [] → t.openOr = none →
      t.Sound ((new joinSyntax).Justified calls id t) := by
    intro t calls hedges hopen
    simp [Scope.Sound, Scope.stores, PairsDiffer, hedges, hopen]
  induction calls using List.reverseRecOn generalizing s with
  | nil =>
    obtain rfl : s = { joinSyntax } := by
      simpa [JoinGraph.new, afterAll] using mem_scopes_of_scope? hs
    exact hnil rfl rfl
  | append_singleton calls call ih =>
    rw [afterAll, List.foldl_append] at hs
    change (((new joinSyntax).afterAll calls).after call).scope? id = some s at hs
    have hmoves := Moves.after ((new joinSyntax).afterAll calls) call
    cases hold : ((new joinSyntax).afterAll calls).scope? id with
    | none =>
      obtain ⟨⟨hedges, hopen⟩, _⟩ := hmoves.fresh id s hold hs
      exact hnil hedges hopen
    | some t =>
      obtain ⟨s', hs', hmoves⟩ := hmoves.scopes id t hold
      obtain rfl := Option.mem_unique hs hs'
      obtain ⟨s', hs', hwritten, _⟩ :=
        (EdgeSteps.after ((new joinSyntax).afterAll calls) call).keepsEdges id t hold
      obtain rfl := Option.mem_unique hs hs'
      have hbefore : t.Sound ((new joinSyntax).Justified (calls ++ [call]) id s) := by
        intro store hstore
        obtain ⟨hdiffer, hall⟩ := ih hold store hstore
        refine ⟨hdiffer, fun e he hnative hkind hconstants => ?_⟩
        exact (hall e he (hwritten ▸ hnative) hkind hconstants).append call
      apply hmoves.sound hbefore
      · exact fun e he _ hkind _ => .last he hkind
      · intro e he hnative hkind hconstants
        have hpromoted : e.promotedKind t.joinSyntax = e.kind := by
          rw [← hwritten, hnative]
          exact JoinEdge.promotedKind_of_hasConstants hconstants
        exact he hnative (hpromoted ▸ hkind) hconstants

theorem EdgesSound.isLocal_iff (hg : g.EdgesSound) (hs : g.scope? id = some s) (he : e ∈ s.edges)
    : s.isLocal e ↔ s.owns e.source ∧ s.owns e.target := by
  have hvalid := ((hg.sound id s hs s.edges List.mem_cons_self).2 e he).1.correlated
  simp only [Scope.isLocal, Scope.owns, List.contains_iff_mem, Bool.and_eq_true, Bool.not_eq_true',
    ← Bool.not_eq_true, hvalid]
  tauto

theorem EdgesSound.fromClause_fails (hg : g.EdgesSound) (hs : g.scope? id = some s) (p : Profile)
    (hint : Option String)
    : (∃ err, g.fromClause id p hint = .error err)
        ↔
      s.aliases = []
        ∨ (∃ e ∈ s.edges, e.kind ≠ .cross ∧ e.NonFinite)
        ∨ s.joinSyntax = .native
          ∧ ∃ e ∈ s.edges, s.owns e.source ∧ s.owns e.target ∧ e.kind = .outer
              ∧ e.hasConstants := by
  have hunmarkable : ∀ e ∈ s.edges, s.Unmarkable e ↔ s.joinSyntax = .native
      ∧ s.owns e.source ∧ s.owns e.target ∧ e.kind = .outer ∧ e.hasConstants := by
    intro e he
    rw [Scope.Unmarkable, hg.isLocal_iff hs he, and_assoc]
  have haliases : s.aliases = [] ↔ s.entries = [] := by simp [Scope.aliases]
  rw [Compile.exists_error_iff, exists_fromClause_iff hs, haliases]
  simp only [Scope.exists_condition_iff]
  constructor
  · intro h
    by_cases hempty : s.entries = []
    · exact .inl hempty
    · simp only [ne_eq, hempty, not_false_eq_true, true_and, not_forall] at h
      obtain ⟨e, he, hcross, h⟩ := h
      by_cases hfinite : e.NonFinite
      · exact .inr (.inl ⟨e, he, hcross, hfinite⟩)
      · have hmark : s.Unmarkable e := by
          by_contra hmark
          exact h ⟨hfinite, hmark⟩
        obtain ⟨hnative, hrest⟩ := (hunmarkable e he).mp hmark
        exact .inr (.inr ⟨hnative, e, he, hrest⟩)
  · rintro (hempty | ⟨e, he, hcross, hinfinite⟩ | ⟨hnative, e, he, hrest⟩) ⟨hentries, hall⟩
    · exact hentries hempty
    · exact (hall e he hcross).1 hinfinite
    · have hcross : e.kind ≠ .cross := by simp [hrest.2.2.1]
      exact (hall e he hcross).2 ((hunmarkable e he).mpr ⟨hnative, hrest⟩)

/--
A FROM clause cannot be written exactly if the scope is unknown or has no tables, if a constant of a
join has no text, or if the optional side of a join between tables of the scope would have to be
marked and the join has constants. Such a join has been asked for as an outer one. Closing an OR
never makes one of an inner join.
-/
theorem fromClause_fails_iff (joinSyntax : JoinSyntax) (calls : List JoinCall) (id : ScopeId)
    (p : Profile) (hint : Option String)
    : let g := (new joinSyntax).afterAll calls
      ((∃ err, g.fromClause id p hint = .error err)
          ↔ g.scope? id = none
            ∨ ∃ s, g.scope? id = some s
                ∧ (s.aliases = []
                  ∨ (∃ e ∈ s.edges, e.kind ≠ .cross ∧ e.NonFinite)
                  ∨ s.joinSyntax = .native
                    ∧ ∃ e ∈ s.edges, s.owns e.source ∧ s.owns e.target
                        ∧ e.kind = .outer ∧ e.hasConstants))
        ∧ ∀ s, g.scope? id = some s → s.joinSyntax = .native →
            (∀ store ∈ s.stores, ∀ e ∈ store, e.kind = .outer → e.hasConstants →
              (new joinSyntax).AskedOuter calls id e)
            ∧ ∀ b, s.openOr = some b → ∀ e ∈ (s.closeOr b).edges,
                e.kind = .outer → e.hasConstants → e ∈ s.edges ∨ e ∈ b.all.flatten := by
  intro g
  have hg : g.EdgesSound := (EdgesSound.new joinSyntax).afterAll calls
  constructor
  · cases hs : g.scope? id with
    | none => simp [fromClause, scope, hs]
    | some s => simp [hg.fromClause_fails hs]
  · intro s hs hnative
    constructor
    · intro store hstore e he hkind hconstants
      obtain ⟨_, hall⟩ := sound_of_run joinSyntax calls hs store hstore
      exact hall e he hnative hkind hconstants
    · exact fun b _ e he _ hconstants => Scope.mem_edges_closeOr hnative he hconstants

-- An outer join with a constant is asked for in one branch of an OR, and an inner one in the other.
theorem fromClause_fails_iff_branches
    : let key (name : String) : ForeignKey :=
        { columns := [name], referencedTable := name, primaryKeyColumns := ["ID"],
          constantColumns := [("KIND", .int 1)] }
      let rel (name : String) : Relation :=
        { name, source := { name := "T" }, target := { name }, foreignKey := key name }
      let calls : List JoinCall :=
        [.beginOr .root, .join .root .root (rel "A") .inner, .nextOrBranch .root,
          .join .root .root (rel "B") .outer, .endOr .root]
      let g := (new .native).afterAll calls
      let edge (name : String) (ref : Alias) (kind : JoinKind) : JoinEdge :=
        ⟨"T", ⟨0⟩, name, ref, key name, false, kind, false⟩
      (∃ s, g.scope? .root = some s ∧ s.joinSyntax = .native
          ∧ s.edges = [edge "A" ⟨1⟩ .inner, edge "B" ⟨2⟩ .outer])
        ∧ (new .native).AskedOuter calls .root (edge "B" ⟨2⟩ .outer)
        ∧ ∃ err, g.fromClause .root Vendor.oracle.profile none = .error err := by
  intro key rel calls g edge
  obtain ⟨s, hs, hnative, hedges, hends⟩ : ∃ s, g.scope? .root = some s ∧ s.joinSyntax = .native
      ∧ s.edges = [edge "A" ⟨1⟩ .inner, edge "B" ⟨2⟩ .outer] ∧ s.owns ⟨0⟩ ∧ s.owns ⟨2⟩ :=
    ⟨_, (Option.some_get (by decide +kernel)).symm, by decide +kernel⟩
  obtain ⟨hfails, hasked⟩ :=
    fromClause_fails_iff .native calls .root Vendor.oracle.profile none
  obtain ⟨hasked, _⟩ := hasked s hs hnative
  have he : edge "B" ⟨2⟩ .outer ∈ s.edges := by simp [hedges]
  refine ⟨⟨s, hs, hnative, hedges⟩, hasked _ List.mem_cons_self _ he rfl rfl, hfails.mpr ?_⟩
  exact .inr ⟨s, hs, .inr (.inr ⟨hnative, _, he, hends.1, hends.2, rfl, rfl⟩)⟩

end JoinGraph

end SqlDialect
