import SqlDialect.Profile.Default
import SqlDialect.Proofs.Join.Conditions

/-!
This module contains which side of an outer join is optional in a FROM clause. The notation of the
vendor marks the columns of the target. Where joins are clauses of their own, the table that a
clause brings in is the optional one, and that is the end of the join that the traversal comes to
last. It is the target if the chain can reach the target only through the source.
-/

namespace SqlDialect

/--
Every sequence of joins that leads from `a` to `b` goes through `x`.
-/
def Separates (edges : List JoinEdge) (x a b : Alias) : Prop :=
  ¬ Connected (edges.filter (!·.touches x)) a b

/-! ## The table that is brought in -/

namespace JoinStep.Grow

variable {known : List Alias} {steps further : List JoinStep}

theorem of_append (h : Grow known (steps ++ further))
    : Grow known steps ∧ Grow (known ++ introduced steps) further := by
  induction steps generalizing known with
  | nil => exact ⟨.nil, by simpa using h⟩
  | cons step steps ih =>
    obtain ⟨hstep, hrest⟩ := h.cons
    obtain ⟨hsteps, hfurther⟩ := ih hrest
    rw [List.append_assoc, ← introduced_append] at hfurther
    exact ⟨hstep.append hsteps, hfurther⟩

theorem exists_connected_of_bring {start b : Alias} {e : JoinEdge} {edges : List JoinEdge}
    (h : Grow [start] steps) (hsub : steps.map (·.edge) ⊆ edges) (hmem : ⟨e, some b⟩ ∈ steps)
    : ∃ a, e.Joins a b ∧ Connected (edges.filter (!·.touches b)) start a := by
  obtain ⟨before, after, rfl⟩ := List.append_of_mem hmem
  obtain ⟨hbefore, hafter⟩ := h.of_append
  cases hafter with
  | @bring _ a _ _ _ ha hb hjoins hrest =>
    refine ⟨a, hjoins, ?_⟩
    -- Both ends of a join that has been met are known, and `b` is not.
    have hmet : before.map (·.edge) ⊆ edges.filter (!·.touches b) := by
      intro f hf
      obtain ⟨hsource, htarget⟩ := hbefore.ends_mem hf
      rw [List.mem_filter]
      refine ⟨hsub ?_, ?_⟩
      · rw [List.map_append]
        exact List.mem_append_left _ hf
      · simp only [JoinEdge.touches, Bool.not_eq_true', Bool.or_eq_false_iff, beq_eq_false_iff_ne]
        exact ⟨fun heq => hb (heq ▸ hsource), fun heq => hb (heq ▸ htarget)⟩
    apply hbefore.connected hmet _ a ha
    intro x hx
    obtain rfl := List.mem_singleton.mp hx
    exact .refl

end JoinStep.Grow

theorem JoinEdge.eq_of_separates {edges : List JoinEdge} {e : JoinEdge} {start a b : Alias}
    (hjoins : e.Joins a b) (hreach : Connected (edges.filter (!·.touches b)) start a)
    : (Separates edges e.source start e.target → b = e.target)
        ∧ (Separates edges e.target start e.source → b = e.source) := by
  obtain ⟨rfl, rfl⟩ | ⟨rfl, rfl⟩ := hjoins
  · exact ⟨fun _ => rfl, fun hseparates => absurd hreach hseparates⟩
  · exact ⟨fun hseparates => absurd hreach hseparates, fun _ => rfl⟩

/-! ## The table that a chain starts from -/

namespace Traversal

variable {t : Traversal}

theorem find?_cons_of_visited (h : t.Frontier []) {a : Alias} {aliases : List Alias}
    {d : Alias × List JoinStep} (hd : d ∈ t.chains aliases) (ha : a ∈ t.visited)
    : (a :: aliases).find? (· ∈ chainAliases d) = aliases.find? (· ∈ chainAliases d) := by
  apply List.find?_cons_of_neg
  intro hmem
  have hmem : a ∈ chainAliases d := by simpa using hmem
  exact (nodup_chains h aliases).2 a (List.mem_flatMap.mpr ⟨d, hd, hmem⟩) ha

theorem find?_start (h : t.Frontier []) (aliases : List Alias)
    : ∀ d ∈ t.chains aliases, aliases.find? (· ∈ chainAliases d) = some d.1 := by
  fun_induction chains t aliases with
  | case1 t => simp
  | case2 t a aliases hvisited ih =>
    intro d hd
    rw [find?_cons_of_visited h hd (by simpa using hvisited)]
    exact ih h d hd
  | case3 t a aliases hvisited steps t' hwalk ih =>
    have hfrontier := (h.start a).walk
    have ha : a ∈ (walk { t with visited := a :: t.visited } [a]).2.visited :=
      mem_visited_walk_iff.mpr (.inr List.mem_cons_self)
    rw [hwalk] at hfrontier ha
    intro d hd
    obtain rfl | hd := List.mem_cons.mp hd
    · apply List.find?_cons_of_pos
      simp [chainAliases]
    · rw [find?_cons_of_visited hfrontier hd ha]
      exact ih hfrontier d hd

theorem index_le_of_find? {aliases : List Alias} {q : Alias → Bool} {a b : Alias}
    (hincreasing : aliases.Pairwise (·.index < ·.index)) (h : aliases.find? q = some a)
    (hb : b ∈ aliases) (hq : q b = true) : a.index ≤ b.index := by
  obtain ⟨_, before, after, rfl, hbefore⟩ := List.find?_eq_some_iff_append.mp h
  rw [List.pairwise_append, List.pairwise_cons] at hincreasing
  obtain hb | hb := List.mem_append.mp hb
  · have hnot := hbefore b hb
    rw [hq] at hnot
    cases hnot
  · obtain rfl | hb := List.mem_cons.mp hb
    · exact Nat.le_refl _
    · exact Nat.le_of_lt (hincreasing.2.1.1 b hb)

end Traversal

/-! ## Clauses -/

namespace PlacedChain

variable {p : Profile} {c : PlacedChain} {d : Alias × List JoinStep}

theorem Realizes.start_eq (h : c.Realizes p d) : c.start = d.1 :=
  (List.cons.inj h.aliases_eq).1

theorem Realizes.joined_of_separates (h : c.Realizes p d) (hgrow : JoinStep.Grow [d.1] d.2)
    {edges : List JoinEdge} (hsub : Traversal.chainEdges d ⊆ edges) {clause : PlacedClause}
    (hclause : clause ∈ c.clauses)
    : (Separates edges clause.edge.source c.start clause.edge.target →
          clause.joined = clause.edge.target)
        ∧ (Separates edges clause.edge.target c.start clause.edge.source →
          clause.joined = clause.edge.source) := by
  obtain ⟨a, hjoins, hreach⟩ := hgrow.exists_connected_of_bring hsub (h.brought clause hclause)
  rw [h.start_eq]
  exact JoinEdge.eq_of_separates hjoins hreach

end PlacedChain

/-! ## Marks -/

namespace JoinEdge

variable {e : JoinEdge} {p : Profile}

def columnText (p : Profile) (a : Alias) (column : String) : String :=
  Token.writeAll p (Token.column a column)

def markedText (e : JoinEdge) (p : Profile) (marker : String) : String :=
  " AND ".intercalate (e.columnPairs.map fun (column, column') =>
    columnText p e.source column ++ " = " ++ columnText p e.target column' ++ marker)

theorem comparisonText_eq (marker : String) (pair : String × String)
    : e.comparisonText p marker pair
        =
      columnText p e.source pair.1 ++ " = " ++ columnText p e.target pair.2 ++ marker := by
  unfold comparisonText columnText
  rw [Token.writeAll_append, Token.writeAll_append, Token.writeAll_append]
  simp [Token.writeAll, Token.write]

theorem constants_of_not_hasConstants (h : e.hasConstants = false) : e.constants = [] := by
  unfold hasConstants at h
  unfold constants
  split
  · rfl
  · next fk hfk =>
    simp only [hfk, Option.any_some, ForeignKey.hasConstants, Bool.or_eq_false_iff,
      Bool.not_eq_false', List.isEmpty_iff] at h
    simp [h]

theorem nativePredicate_eq_ok {text : String} (hkind : e.kind = .outer)
    (h : e.nativePredicate p = .ok text)
    : e.constants = [] ∧ text = e.markedText p (p.clauses.nativeOuterJoinMarker.getD "") := by
  unfold nativePredicate at h
  rw [if_pos hkind] at h
  split at h
  · cases h
  · next hconstants =>
    have hnone := constants_of_not_hasConstants (by simpa using hconstants)
    refine ⟨hnone, ?_⟩
    rw [predicate_eq, hnone, List.mapM_nil] at h
    cases h
    rw [List.append_nil]
    congr 1
    exact List.map_congr_left fun pair _ => comparisonText_eq _ pair

end JoinEdge

namespace JoinGraph

/--
In a reachable graph a chain starts from the lowest of its aliases, and a clause for an outer join
brings in the target if all ways from there to the target go through the source, and the source if
it is the other way round. In the notation of the vendor every column of the target carries the
mark, which is empty if the dialect has none.
-/
theorem optional_of_run (joinSyntax : JoinSyntax) (calls : List JoinCall) (p : Profile)
    (hint : Option String) (id : ScopeId) (s : Scope) (clause : FromClause)
    : let g := (JoinGraph.new joinSyntax).afterAll calls
      let edges := s.edges.filter s.isLocal
      g.scope? id = some s → g.fromClause id p hint = .ok clause →
        (s.joinSyntax = .sql92 →
          ∃ (reference : Alias → String) (condition : JoinEdge → String)
            (chains : List PlacedChain),
            PlacedChain.Covers chains s.aliases edges
            ∧ (∀ entry ∈ s.entries, reference entry.ref
                = p.quoteIdentifier entry.table ++ " " ++ toString entry.ref ++ hintText hint)
            ∧ (∀ e ∈ edges, e.kind ≠ .cross → e.predicate p "" = .ok (condition e))
            ∧ clause.sql = ", ".intercalate (chains.map (·.text p reference condition))
            ∧ ∀ c ∈ chains, (∀ a ∈ c.aliases, c.start.index ≤ a.index)
              ∧ ∀ part ∈ c.clauses, part.edge.kind = .outer →
                (Separates edges part.edge.source c.start part.edge.target →
                    part.joined = part.edge.target)
                ∧ (Separates edges part.edge.target c.start part.edge.source →
                    part.joined = part.edge.source))
        ∧ (s.joinSyntax = .native → ∀ e ∈ edges, e.kind = .outer →
            e.constants = []
            ∧ e.markedText p (p.clauses.nativeOuterJoinMarker.getD "") ∈ clause.conditions) := by
  intro g edges hs h
  have hg : g.EdgesSound := (EdgesSound.new joinSyntax).afterAll calls
  obtain ⟨correlations, inner, _, hinner, rfl⟩ := fromClause_eq_ok hs h
  refine ⟨?_, ?_⟩
  · intro hwritten
    rw [hwritten] at hinner
    obtain ⟨chains, hchains, rfl⟩ := exists_realizes_of_chainedFrom hinner
    have hends : ∀ e ∈ edges, e.source ∈ s.aliases ∧ e.target ∈ s.aliases :=
      fun e he => ends_mem_of_isLocal (List.mem_filter.mp he).2
    have hperm := Traversal.perm_chains (Traversal.frontier_start edges) s.aliases
      fun e he => (hends e he).1
    have hcovers := PlacedChain.covers_of_realizes ((hg.nodup_edges hs).filter _) hends hchains
    refine ⟨g.referenceText p hint, (·.conditionText p), chains, hcovers, ?_, ?_, rfl, ?_⟩
    · exact fun entry he => referenceText_eq (hg.wellFormed.table_eq id s hs entry he) hint
    · intro e he
      exact PlacedChain.predicate_eq_of_realizes hchains e (hperm.symm.subset he)
    · intro c hc
      obtain ⟨d, hd, hrealizes⟩ := Compile.exists_of_mem_forall₂ hchains c hc
      have hgrow := Traversal.grow_chains (Traversal.frontier_start edges) s.aliases d hd
      have hsub : Traversal.chainEdges d ⊆ edges :=
        fun e he => hperm.subset (List.mem_flatMap.mpr ⟨d, hd, he⟩)
      refine ⟨?_, fun part hpart _ => hrealizes.joined_of_separates hgrow hsub hpart⟩
      intro a ha
      have hstart := Traversal.find?_start (Traversal.frontier_start edges) s.aliases d hd
      rw [← hrealizes.start_eq] at hstart
      apply Traversal.index_le_of_find? (hg.wellFormed.increasing id s hs) hstart
      · exact (hcovers.mem_aliases a).mp (List.mem_flatMap.mpr ⟨c, hc, ha⟩)
      · simpa [← hrealizes.aliases_eq] using ha
  · intro hwritten e he hkind
    rw [hwritten] at hinner
    obtain ⟨text, htext, hmem⟩ := written_of_listedFrom hinner he (by simp [hkind])
    obtain ⟨hconstants, rfl⟩ := JoinEdge.nativePredicate_eq_ok hkind htext
    exact ⟨hconstants, List.mem_append_right _ hmem⟩

-- The same two outer joins in both notations.
theorem optional_of_run_both
    : let toC : ForeignKey :=
        { columns := ["C_ID"], referencedTable := "C", primaryKeyColumns := ["ID"] }
      let toA : ForeignKey :=
        { columns := ["A_ID"], referencedTable := "A", primaryKeyColumns := ["ID"] }
      let c : Relation :=
        { name := "c", source := { name := "O" }, target := { name := "C" }, foreignKey := toC }
      let a : Relation :=
        { name := "a", source := { name := "C" }, target := { name := "A" }, foreignKey := toA }
      let calls : List JoinCall :=
        [.join .root .root c .outer, .join .root (.join .root "c" none) a .outer]
      let edges : List JoinEdge :=
        [⟨"O", ⟨0⟩, "C", ⟨1⟩, toC, false, .outer, false⟩,
          ⟨"C", ⟨1⟩, "A", ⟨2⟩, toA, false, .outer, false⟩]
      let s : Scope :=
        { joinSyntax := .sql92
          entries :=
            [⟨.root, "O", ⟨0⟩⟩, ⟨.join .root "c" none, "C", ⟨1⟩⟩,
              ⟨.join (.join .root "c" none) "a" none, "A", ⟨2⟩⟩]
          edges }
      let g := (JoinGraph.new .sql92).afterAll calls
      let g' := (JoinGraph.new .native).afterAll calls
      let clause : FromClause :=
        ⟨"O t0 LEFT OUTER JOIN C t1 ON t0.C_ID = t1.ID LEFT OUTER JOIN A t2 ON t1.A_ID = t2.ID", []⟩
      let clause' : FromClause :=
        ⟨"O t0, C t1, A t2", ["t0.C_ID = t1.ID(+)", "t1.A_ID = t2.ID(+)"]⟩
      (g.fromClause .root Vendor.generic.profile none = .ok clause
        ∧ ∃ (reference : Alias → String) (condition : JoinEdge → String)
            (chains : List PlacedChain),
            PlacedChain.Covers chains s.aliases edges
            ∧ (∀ entry ∈ s.entries, reference entry.ref
                = Vendor.generic.profile.quoteIdentifier entry.table ++ " " ++ toString entry.ref
                    ++ hintText none)
            ∧ (∀ e ∈ edges, e.kind ≠ .cross →
                e.predicate Vendor.generic.profile "" = .ok (condition e))
            ∧ clause.sql = ", ".intercalate
                (chains.map (·.text Vendor.generic.profile reference condition))
            ∧ ∀ c ∈ chains, (∀ a ∈ c.aliases, c.start.index ≤ a.index)
              ∧ ∀ part ∈ c.clauses, part.edge.kind = .outer →
                (Separates edges part.edge.source c.start part.edge.target →
                    part.joined = part.edge.target)
                ∧ (Separates edges part.edge.target c.start part.edge.source →
                    part.joined = part.edge.source))
      ∧ g'.fromClause .root Vendor.oracle.profile none = .ok clause'
        ∧ ∀ e ∈ edges, e.kind = .outer →
            e.constants = [] ∧ e.markedText Vendor.oracle.profile "(+)" ∈ clause'.conditions := by
  intro toC toA c a calls edges s g g' clause clause'
  have hs : g.scope? .root = some s := by decide +kernel
  have h : g.fromClause .root Vendor.generic.profile none = .ok clause := by decide +kernel
  have hs' : g'.scope? .root = some { s with joinSyntax := .native } := by decide +kernel
  have h' : g'.fromClause .root Vendor.oracle.profile none = .ok clause' := by decide +kernel
  obtain ⟨hchained, _⟩ :=
    optional_of_run .sql92 calls Vendor.generic.profile none .root s clause hs h
  obtain ⟨_, hmarked⟩ := optional_of_run .native calls Vendor.oracle.profile none .root
    { s with joinSyntax := .native } clause' hs' h'
  exact ⟨⟨h, hchained rfl⟩, h', hmarked rfl⟩

-- The target has the lower number, so the chain starts from it and the source becomes optional; and
-- in a dialect without a mark neither side is.
theorem optional_of_run_reversed
    : let key : ForeignKey :=
        { columns := ["C_ID"], referencedTable := "C", primaryKeyColumns := ["ID"] }
      let rel : Relation :=
        { name := "c", source := { name := "O" }, target := { name := "C" }, foreignKey := key }
      let calls : List JoinCall :=
        [.aliasFor .root { name := "C" } (.join .root "c" none) true, .join .root .root rel .outer]
      let edge : JoinEdge := ⟨"O", ⟨1⟩, "C", ⟨0⟩, key, false, .outer, false⟩
      let g := (JoinGraph.new .sql92).afterAll calls
      let g' := (JoinGraph.new .native).afterAll calls
      let p := Vendor.generic.profile
      (∃ s, g.scope? .root = some s ∧ s.edges = [edge] ∧ s.isLocal edge)
      ∧ g.fromClause .root p none
          = .ok ⟨"C t0 LEFT OUTER JOIN O t1 ON t1.C_ID = t0.ID", []⟩
      ∧ (∃ s, g'.scope? .root = some s ∧ s.edges = [edge] ∧ s.isLocal edge)
      ∧ g'.fromClause .root p none = .ok ⟨"C t0, O t1", ["t1.C_ID = t0.ID"]⟩ := by
  intro key rel calls edge g g' p
  exact ⟨⟨_, rfl, rfl, rfl⟩, by decide +kernel, ⟨_, rfl, rfl, rfl⟩, by decide +kernel⟩

end JoinGraph

end SqlDialect
