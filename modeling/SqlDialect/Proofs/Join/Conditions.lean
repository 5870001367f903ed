import SqlDialect.Proofs.Join.From

/-!
This module contains where the conditions of joins are written. If a FROM clause can be written, the
condition of every join of its select stands in it or is left for WHERE, in all three notations.
-/

namespace SqlDialect

/-! ## Texts inside texts -/

namespace Text

def Occurs (t u : String) : Prop := ∃ before after, u = before ++ t ++ after

namespace Occurs

variable {t u : String}

theorem refl (t : String) : Occurs t t := ⟨"", "", by simp⟩

theorem append_right (h : Occurs t u) (after : String) : Occurs t (u ++ after) := by
  obtain ⟨before, rest, rfl⟩ := h
  exact ⟨before, rest ++ after, by simp [String.append_assoc]⟩

theorem append_left (h : Occurs t u) (before : String) : Occurs t (before ++ u) := by
  obtain ⟨start, after, rfl⟩ := h
  exact ⟨before ++ start, after, by simp [String.append_assoc]⟩

theorem join {us : List String} (h : Occurs t u) (hu : u ∈ us) : Occurs t (String.join us) := by
  induction us with
  | nil => cases hu
  | cons v us ih =>
    rw [String.join_cons]
    obtain rfl | hu := List.mem_cons.mp hu
    · exact h.append_right _
    · exact (ih hu).append_left v

theorem intercalate {us : List String} (h : Occurs t u) (hu : u ∈ us) (separator : String)
    : Occurs t (separator.intercalate us) := by
  induction us with
  | nil => cases hu
  | cons v us ih =>
    cases us with
    | nil =>
      obtain rfl : u = v := List.mem_singleton.mp hu
      simpa using h
    | cons w us =>
      rw [String.intercalate_cons_cons]
      obtain rfl | hu := List.mem_cons.mp hu
      · rw [String.append_assoc]
        exact h.append_right _
      · exact (ih hu).append_left _

end Occurs

end Text

open Text (Occurs)

/-! ## Conditions in chains -/

namespace JoinGraph

variable {g : JoinGraph} {p : Profile} {hint : Option String} {e : JoinEdge}

theorem occurs_clause {c : PlacedClause} (reference : Alias → String) (text : JoinEdge → String)
    (h : e ∈ c.conditions) : Occurs (text e) (c.text p reference text) := by
  have hcases : c.edge.kind ≠ .cross ∧ e = c.edge ∨ e ∈ c.further := by
    unfold PlacedClause.conditions at h
    split at h <;> grind
  unfold PlacedClause.text
  obtain ⟨hcross, rfl⟩ | hfurther := hcases
  · apply Occurs.append_right
    apply Occurs.append_left
    rw [if_pos hcross]
    exact (Occurs.refl _).append_left " ON "
  · apply Occurs.append_left
    apply ((Occurs.refl (text e)).append_left " AND ").join
    exact List.mem_map.mpr ⟨e, hfurther, rfl⟩

theorem occurs_chain {c : PlacedChain} {clause : PlacedClause} (reference : Alias → String)
    (text : JoinEdge → String) (hclause : clause ∈ c.clauses) (h : e ∈ clause.conditions)
    : Occurs (text e) (c.text p reference text) := by
  apply (occurs_clause reference text h).intercalate
  apply List.mem_cons_of_mem
  exact List.mem_map.mpr ⟨clause, hclause, rfl⟩

theorem written_of_chainedFrom {aliases : List Alias} {edges : List JoinEdge} {clause : FromClause}
    (hends : ∀ e ∈ edges, e.source ∈ aliases ∧ e.target ∈ aliases)
    (h : g.chainedFrom p hint aliases edges = .ok clause) (he : e ∈ edges)
    (hcross : e.kind ≠ .cross)
    : ∃ text, e.predicate p "" = .ok text
        ∧ (text ∈ clause.conditions ∨ Occurs text clause.sql) := by
  obtain ⟨chains, hchains, rfl⟩ := exists_realizes_of_chainedFrom h
  have hperm := Traversal.perm_chains (Traversal.frontier_start edges) aliases
    fun e he => (hends e he).1
  have hmem : e ∈ chains.flatMap (·.conditions) := by
    apply ((PlacedChain.flatMap_conditions_perm hchains).trans (hperm.filter _)).symm.subset
    exact List.mem_filter.mpr ⟨he, by simpa using hcross⟩
  obtain ⟨c, hc, hmem⟩ := List.mem_flatMap.mp hmem
  have htext := PlacedChain.predicate_eq_of_realizes hchains e (hperm.symm.subset he) hcross
  refine ⟨_, htext, ?_⟩
  obtain hclause | hfilter := List.mem_append.mp hmem
  · right
    obtain ⟨clause, hclause, hmem⟩ := List.mem_flatMap.mp hclause
    apply (occurs_chain (g.referenceText p hint) (·.conditionText p) hclause hmem).intercalate
    exact List.mem_map.mpr ⟨c, hc, rfl⟩
  · left
    apply List.mem_map_of_mem
    exact List.mem_flatMap.mpr ⟨c, hc, hfilter⟩

/-! ## Conditions in lists -/

theorem exists_of_mem_mapM {α β : Type} {f : α → Compile β} {as : List α} {bs : List β} {a : α}
    (h : as.mapM f = .ok bs) (ha : a ∈ as) : ∃ b ∈ bs, f a = .ok b :=
  Compile.exists_of_mem_forall₂ (R := fun b a => f a = .ok b)
    (Compile.mapM_eq_ok_iff.mp h).flip a ha

theorem written_of_listedFrom {aliases : List Alias} {edges : List JoinEdge} {clause : FromClause}
    {predicate : JoinEdge → Compile String}
    (h : g.listedFrom p hint aliases edges predicate = .ok clause) (he : e ∈ edges)
    (hcross : e.kind ≠ .cross) : ∃ text, predicate e = .ok text ∧ text ∈ clause.conditions := by
  rw [listedFrom_eq] at h
  obtain ⟨conditions, hconditions, h⟩ := Compile.bind_eq_ok_iff.mp h
  cases h
  have hmem : e ∈ edges.filter (·.kind ≠ .cross) :=
    List.mem_filter.mpr ⟨he, by simpa using hcross⟩
  obtain ⟨text, htext, hpredicate⟩ := exists_of_mem_mapM hconditions hmem
  exact ⟨text, hpredicate, htext⟩

end JoinGraph

/--
The condition of a join of a scope. Only joins between two tables of the scope itself are marked.
-/
def Scope.condition (s : Scope) (p : Profile) (e : JoinEdge) : Compile String :=
  if s.joinSyntax = .native ∧ s.isLocal e then e.nativePredicate p else e.predicate p ""

namespace JoinGraph

variable {g : JoinGraph} {p : Profile} {hint : Option String} {id : ScopeId} {s : Scope}
  {e : JoinEdge}

theorem fromClause_eq_ok {clause : FromClause} (hs : g.scope? id = some s)
    (h : g.fromClause id p hint = .ok clause)
    : ∃ correlations inner,
        (s.edges.filter fun e => !s.isLocal e && e.kind ≠ .cross).mapM (·.predicate p "")
          = .ok correlations
        ∧ (match s.joinSyntax with
          | .sql92 => g.chainedFrom p hint s.aliases (s.edges.filter s.isLocal)
          | .traditional =>
            g.listedFrom p hint s.aliases (s.edges.filter s.isLocal) (·.predicate p "")
          | .native =>
            g.listedFrom p hint s.aliases (s.edges.filter s.isLocal) (·.nativePredicate p))
          = .ok inner
        ∧ clause = { inner with conditions := correlations ++ inner.conditions } := by
  simp only [fromClause, scope_eq_ok_iff.mpr hs, Compile.ok_bind] at h
  cases hempty : s.entries.isEmpty with
  | true =>
    rw [hempty, if_pos rfl] at h
    cases h
  | false =>
    rw [hempty, if_neg Bool.false_ne_true] at h
    obtain ⟨correlations, hcorrelations, h⟩ := Compile.bind_eq_ok_iff.mp h
    generalize s.joinSyntax = joinSyntax at h ⊢
    cases joinSyntax
    all_goals
      obtain ⟨inner, hinner, h⟩ := Compile.bind_eq_ok_iff.mp h
      cases h
      exact ⟨correlations, inner, hcorrelations, hinner, rfl⟩

theorem written_of_fromClause {clause : FromClause} (hs : g.scope? id = some s)
    (h : g.fromClause id p hint = .ok clause) (he : e ∈ s.edges) (hcross : e.kind ≠ .cross)
    : ∃ text, s.condition p e = .ok text
        ∧ (text ∈ clause.conditions ∨ Occurs text clause.sql) := by
  obtain ⟨correlations, inner, hcorrelations, hinner, rfl⟩ := fromClause_eq_ok hs h
  unfold Scope.condition
  cases hlocal : s.isLocal e with
  | false =>
    have hmem : e ∈ s.edges.filter fun e => !s.isLocal e && e.kind ≠ .cross :=
      List.mem_filter.mpr ⟨he, by simp [hlocal, hcross]⟩
    obtain ⟨text, htext, hpredicate⟩ := exists_of_mem_mapM hcorrelations hmem
    exact ⟨text, by simpa using hpredicate, .inl (List.mem_append_left _ htext)⟩
  | true =>
    have hmem : e ∈ s.edges.filter s.isLocal := List.mem_filter.mpr ⟨he, hlocal⟩
    have hlast : ∀ text, text ∈ inner.conditions → text ∈ correlations ++ inner.conditions :=
      fun _ => List.mem_append_right _
    split at hinner
    · next hwritten =>
      have hends : ∀ e ∈ s.edges.filter s.isLocal, e.source ∈ s.aliases ∧ e.target ∈ s.aliases :=
        fun e he => ends_mem_of_isLocal (List.mem_filter.mp he).2
      obtain ⟨text, hpredicate, hplace⟩ := written_of_chainedFrom hends hinner hmem hcross
      exact ⟨text, by simpa [hwritten] using hpredicate, hplace.imp_left (hlast text)⟩
    · next hwritten =>
      obtain ⟨text, hpredicate, htext⟩ := written_of_listedFrom hinner hmem hcross
      exact ⟨text, by simpa [hwritten] using hpredicate, .inl (hlast text htext)⟩
    · next hwritten =>
      obtain ⟨text, hpredicate, htext⟩ := written_of_listedFrom hinner hmem hcross
      exact ⟨text, by simpa [hwritten] using hpredicate, .inl (hlast text htext)⟩

end JoinGraph

end SqlDialect
