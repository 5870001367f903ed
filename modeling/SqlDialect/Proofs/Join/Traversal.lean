import Mathlib.Data.List.Nodup
import Mathlib.Data.List.Pairwise
import Mathlib.Logic.Relation
import SqlDialect.Join.Traversal

/-!
This module contains the theory of the traversal of a join graph: every chain grows one known table
at a time, the chains share out the tables and the joins among themselves, and the tables of a chain
are those of a connected component.
-/

namespace SqlDialect

namespace JoinEdge

def Joins (e : JoinEdge) (a b : Alias) : Prop :=
  e.source = a ∧ e.target = b ∨ e.source = b ∧ e.target = a

theorem Joins.symm {e : JoinEdge} {a b : Alias} (h : e.Joins a b) : e.Joins b a := Or.symm h

theorem joins_otherEnd {e : JoinEdge} {a : Alias} (h : e.touches a) : e.Joins a (e.otherEnd a) := by
  simp only [touches, Bool.or_eq_true, beq_iff_eq] at h
  unfold Joins otherEnd
  split
  · next hsource => exact .inl ⟨hsource, rfl⟩
  · next hsource => exact .inr ⟨rfl, h.resolve_left hsource⟩

theorem touches_of_joins {e : JoinEdge} {a b : Alias} (h : e.Joins a b) : e.touches b := by
  unfold touches
  obtain ⟨_, rfl⟩ | ⟨rfl, _⟩ := h <;> simp

end JoinEdge

def Connected (edges : List JoinEdge) : Alias → Alias → Prop :=
  Relation.ReflTransGen fun a b => ∃ e ∈ edges, e.Joins a b

theorem Connected.symm {edges : List JoinEdge} {a b : Alias} (h : Connected edges a b)
    : Connected edges b a := by
  induction h with
  | refl => exact .refl
  | tail _ hlast ih =>
    obtain ⟨e, he, hjoins⟩ := hlast
    exact .head ⟨e, he, hjoins.symm⟩ ih

/-! ## Growing chains -/

namespace JoinStep

@[simp]
theorem introduced_nil : introduced [] = [] := rfl

@[simp]
theorem introduced_cons_some (e : JoinEdge) (a : Alias) (steps : List JoinStep)
    : introduced (⟨e, some a⟩ :: steps) = a :: introduced steps := rfl

@[simp]
theorem introduced_cons_none (e : JoinEdge) (steps : List JoinStep)
    : introduced (⟨e, none⟩ :: steps) = introduced steps := rfl

@[simp]
theorem introduced_append (steps further : List JoinStep)
    : introduced (steps ++ further) = introduced steps ++ introduced further :=
  List.filterMap_append

/--
Steps that start from known tables. Each of them either brings in a table that is joined to a known
one, and is known from then on, or joins two known tables.
-/
inductive Grow : List Alias → List JoinStep → Prop where
  | nil {known : List Alias} : Grow known []
  | bring {known : List Alias} {a b : Alias} {e : JoinEdge} {steps : List JoinStep}
      (ha : a ∈ known) (hb : b ∉ known) (hjoins : e.Joins a b) (hrest : Grow (known ++ [b]) steps) :
      Grow known (⟨e, some b⟩ :: steps)
  | close {known : List Alias} {e : JoinEdge} {steps : List JoinStep}
      (hsource : e.source ∈ known) (htarget : e.target ∈ known) (hrest : Grow known steps) :
      Grow known (⟨e, none⟩ :: steps)

namespace Grow

variable {known : List Alias} {steps : List JoinStep}

theorem append {further : List JoinStep} (h : Grow known steps)
    (hfurther : Grow (known ++ introduced steps) further) : Grow known (steps ++ further) := by
  induction h with
  | nil => simpa using hfurther
  | bring ha hb hjoins hrest ih =>
    apply Grow.bring ha hb hjoins
    apply ih
    simpa using hfurther
  | close hsource htarget hrest ih =>
    apply Grow.close hsource htarget
    apply ih
    simpa using hfurther

theorem cons {step : JoinStep} (h : Grow known (step :: steps))
    : Grow known [step] ∧ Grow (known ++ introduced [step]) steps := by
  cases h with
  | bring ha hb hjoins hrest => exact ⟨.bring ha hb hjoins .nil, hrest⟩
  | close hsource htarget hrest => exact ⟨.close hsource htarget .nil, by simpa using hrest⟩

theorem not_mem (h : Grow known steps) {b : Alias} (hb : b ∈ introduced steps) : b ∉ known := by
  induction h with
  | nil => cases hb
  | @bring known a c e steps ha hc hjoins hrest ih =>
    have hcases : b = c ∨ b ∈ introduced steps := by simpa using hb
    obtain rfl | hb := hcases
    · exact hc
    · exact fun hmem => ih hb (List.mem_append_left _ hmem)
  | close hsource htarget hrest ih => exact ih hb

theorem nodup (h : Grow known steps) : (introduced steps).Nodup := by
  induction h with
  | nil => exact .nil
  | @bring known a c e steps ha hc hjoins hrest ih =>
    have hnew : c ∉ introduced steps := fun hmem => hrest.not_mem hmem (by simp)
    simpa using ⟨hnew, ih⟩
  | close hsource htarget hrest ih => exact ih

theorem ends_mem (h : Grow known steps) {e : JoinEdge} (he : e ∈ steps.map (·.edge))
    : e.source ∈ known ++ introduced steps ∧ e.target ∈ known ++ introduced steps := by
  induction h with
  | nil => cases he
  | @bring known a b e' steps ha hb hjoins hrest ih =>
    have hintroduced : known ++ introduced (⟨e', some b⟩ :: steps)
        = known ++ [b] ++ introduced steps := by
      simp
    rw [hintroduced]
    obtain rfl | he := List.mem_cons.mp he
    · obtain ⟨rfl, rfl⟩ | ⟨rfl, rfl⟩ := hjoins <;> simp [ha]
    · exact ih he
  | close hsource htarget hrest ih =>
    obtain rfl | he := List.mem_cons.mp he
    · exact ⟨List.mem_append_left _ hsource, List.mem_append_left _ htarget⟩
    · exact ih he

theorem exists_joins (h : Grow known steps) {b : Alias} (hb : b ∈ introduced steps)
    : ∃ e ∈ steps.map (·.edge), ∃ a, e.Joins a b := by
  induction h with
  | nil => cases hb
  | @bring known a c e steps ha hc hjoins hrest ih =>
    have hcases : b = c ∨ b ∈ introduced steps := by simpa using hb
    obtain rfl | hb := hcases
    · exact ⟨e, List.mem_cons_self, a, hjoins⟩
    · obtain ⟨e', he', hjoins'⟩ := ih hb
      exact ⟨e', List.mem_cons_of_mem _ he', hjoins'⟩
  | close hsource htarget hrest ih =>
    obtain ⟨e', he', hjoins'⟩ := ih (by simpa using hb)
    exact ⟨e', List.mem_cons_of_mem _ he', hjoins'⟩

theorem connected (h : Grow known steps) {edges : List JoinEdge}
    (hsub : steps.map (·.edge) ⊆ edges) {start : Alias}
    (hknown : ∀ a ∈ known, Connected edges start a)
    : ∀ b ∈ known ++ introduced steps, Connected edges start b := by
  induction h with
  | nil => simpa using hknown
  | @bring known a c e steps ha hc hjoins hrest ih =>
    have hsub' := List.cons_subset.mp hsub
    have hnew : Connected edges start c := (hknown a ha).tail ⟨e, hsub'.1, hjoins⟩
    have hrest := ih hsub'.2 (by grind)
    simpa using hrest
  | close hsource htarget hrest ih => exact ih (List.cons_subset.mp hsub).2 hknown

end Grow

theorem grow_follow {a : Alias} {visited known : List Alias} {es : List JoinEdge} (ha : a ∈ known)
    (hes : ∀ e ∈ es, e.touches a ∧ (e.otherEnd a ∈ visited → e.otherEnd a ∈ known))
    (hknown : known ⊆ visited) : Grow known (follow a visited es) := by
  induction es generalizing visited known with
  | nil => exact .nil
  | cons e es ih =>
    obtain ⟨htouches, hother⟩ := hes e List.mem_cons_self
    have hjoins := JoinEdge.joins_otherEnd htouches
    rw [follow]
    split
    · next hvisited =>
      have hmem := hother (by simpa using hvisited)
      have hends : e.source ∈ known ∧ e.target ∈ known := by
        obtain ⟨hs, ht⟩ | ⟨hs, ht⟩ := hjoins <;> simp [hs, ht, ha, hmem]
      exact .close hends.1 hends.2 (ih ha (fun e he => hes e (List.mem_cons_of_mem _ he)) hknown)
    · next hvisited =>
      have hnew : e.otherEnd a ∉ known := fun hmem => hvisited (by simpa using hknown hmem)
      apply Grow.bring ha hnew hjoins
      apply ih (List.mem_append_left _ ha)
      · intro e' he'
        obtain ⟨htouches', hother'⟩ := hes e' (List.mem_cons_of_mem _ he')
        exact ⟨htouches', by grind⟩
      · grind

end JoinStep

/-! ## The traversal -/

namespace Traversal

variable {t : Traversal} {pending : List Alias}

/--
Of the tables that have been visited only the pending ones have joins that have not been met.
-/
structure Frontier (t : Traversal) (pending : List Alias) : Prop where
  visited : pending ⊆ t.visited
  pending_of_touches : ∀ e ∈ t.remaining, ∀ a ∈ t.visited, e.touches a → a ∈ pending

theorem Frontier.next {a : Alias} (h : t.Frontier (a :: pending)) (found : List Alias)
    : Frontier ⟨t.elsewhere a, found ++ t.visited⟩ (found ++ pending) where
  visited := by
    have := h.visited
    grind
  pending_of_touches := by
    intro e he b hb htouches
    have he' : e ∈ t.remaining ∧ e.touches a = false := by simpa [elsewhere] using he
    obtain hb | hb := List.mem_append.mp hb
    · exact List.mem_append_left _ hb
    · have hmem := h.pending_of_touches e he'.1 b hb htouches
      obtain rfl | hmem := List.mem_cons.mp hmem
      · rw [he'.2] at htouches
        cases htouches
      · exact List.mem_append_right _ hmem

theorem Frontier.start (h : t.Frontier []) (a : Alias)
    : Frontier { t with visited := a :: t.visited } [a] where
  visited := by simp
  pending_of_touches := by
    intro e he b hb htouches
    obtain rfl | hb := List.mem_cons.mp hb
    · exact List.mem_singleton_self b
    · cases h.pending_of_touches e he b hb htouches

-- In each of the inductions on a walk the tables found at `a` are pending next.

theorem grow_walk (h : t.Frontier pending)
    : ∀ known, pending ⊆ known → known ⊆ t.visited → JoinStep.Grow known (t.walk pending).1 := by
  fun_induction walk t pending with
  | case1 t => exact fun _ _ _ => .nil
  | case2 t a pending steps found further t' hwalk ih =>
    intro known hpending hknown
    rw [hwalk] at ih
    have ha : a ∈ known := hpending List.mem_cons_self
    apply JoinStep.Grow.append
    · apply JoinStep.grow_follow ha _ hknown
      intro e he
      have he' : e ∈ t.remaining ∧ e.touches a := by simpa [incident] using he
      refine ⟨he'.2, ?_⟩
      intro hvisited
      have hother := JoinEdge.touches_of_joins (JoinEdge.joins_otherEnd he'.2)
      exact hpending (h.pending_of_touches e he'.1 _ hvisited hother)
    · apply ih (h.next _)
      · grind
      · grind

theorem perm_walk (t : Traversal) (pending : List Alias)
    : ((t.walk pending).1.map (·.edge) ++ (t.walk pending).2.remaining).Perm t.remaining := by
  fun_induction walk t pending with
  | case1 t => exact .refl _
  | case2 t a pending steps found further t' hwalk ih =>
    rw [hwalk] at ih
    have hsteps : steps.map (·.edge) = t.incident a := JoinStep.edge_follow ..
    rw [List.map_append, List.append_assoc, hsteps]
    exact (ih.append_left _).trans (List.filter_append_perm _ _)

theorem mem_visited_walk_iff {b : Alias}
    : b ∈ (t.walk pending).2.visited
        ↔
      b ∈ JoinStep.introduced (t.walk pending).1 ∨ b ∈ t.visited := by
  fun_induction walk t pending with
  | case1 t => simp
  | case2 t a pending steps found further t' hwalk ih =>
    rw [hwalk] at ih
    rw [JoinStep.introduced_append, List.mem_append, ih]
    grind

theorem Frontier.walk (h : t.Frontier pending) : (t.walk pending).2.Frontier [] := by
  fun_induction Traversal.walk t pending with
  | case1 t => exact h
  | case2 t a pending steps found further t' hwalk ih =>
    rw [hwalk] at ih
    exact ih (h.next _)

/-! ## The chains of a traversal -/

def chainAliases (c : Alias × List JoinStep) : List Alias := c.1 :: JoinStep.introduced c.2

def chainEdges (c : Alias × List JoinStep) : List JoinEdge := c.2.map (·.edge)

theorem grow_chains (h : t.Frontier []) (aliases : List Alias)
    : ∀ c ∈ t.chains aliases, JoinStep.Grow [c.1] c.2 := by
  fun_induction chains t aliases with
  | case1 t => simp
  | case2 t a aliases hvisited ih => exact ih h
  | case3 t a aliases hvisited steps t' hwalk ih =>
    have hwalk' := (h.start a).walk
    have hgrow := grow_walk (h.start a) [a] (by simp) (by simp)
    rw [hwalk] at hwalk' hgrow
    intro c hc
    obtain rfl | hc := List.mem_cons.mp hc
    · exact hgrow
    · exact ih hwalk' c hc

theorem Frontier.source_not_visited (h : t.Frontier []) {e : JoinEdge} (he : e ∈ t.remaining)
    : e.source ∉ t.visited := by
  intro hvisited
  cases h.pending_of_touches e he e.source hvisited (by simp [JoinEdge.touches])

theorem perm_chains (h : t.Frontier []) (aliases : List Alias)
    (hsource : ∀ e ∈ t.remaining, e.source ∈ aliases)
    : ((t.chains aliases).flatMap chainEdges).Perm t.remaining := by
  -- A table that has been visited is not the source of a join that has not been met, so the sources
  -- are among the tables from which the traversal has still to start.
  fun_induction chains t aliases with
  | case1 t =>
    have hnone : t.remaining = [] :=
      List.eq_nil_iff_forall_not_mem.mpr fun e he => List.not_mem_nil (hsource e he)
    rw [hnone]
    exact .refl _
  | case2 t a aliases hvisited ih =>
    apply ih h
    intro e he
    obtain rfl | hmem := List.mem_cons.mp (hsource e he)
    · exact absurd (by simpa using hvisited) (h.source_not_visited he)
    · exact hmem
  | case3 t a aliases hvisited steps t' hwalk ih =>
    have hfrontier := (h.start a).walk
    have hperm := perm_walk { t with visited := a :: t.visited } [a]
    have ha : a ∈ (walk { t with visited := a :: t.visited } [a]).2.visited :=
      mem_visited_walk_iff.mpr (.inr List.mem_cons_self)
    rw [hwalk] at hfrontier hperm ha
    have hrest := ih hfrontier fun e he => by
      obtain rfl | hmem := List.mem_cons.mp (hsource e (hperm.subset (List.mem_append_right _ he)))
      · exact absurd ha (hfrontier.source_not_visited he)
      · exact hmem
    exact (hrest.append_left _).trans hperm

theorem nodup_chains (h : t.Frontier []) (aliases : List Alias)
    : ((t.chains aliases).flatMap chainAliases).Nodup
        ∧ ∀ a ∈ (t.chains aliases).flatMap chainAliases, a ∉ t.visited := by
  fun_induction chains t aliases with
  | case1 t => simp
  | case2 t a aliases hvisited ih => exact ih h
  | case3 t a aliases hvisited steps t' hwalk ih =>
    have hfrontier := (h.start a).walk
    have hgrow := grow_walk (h.start a) (a :: t.visited) (by simp) (by simp)
    have hmem : ∀ b, b ∈ (walk { t with visited := a :: t.visited } [a]).2.visited ↔ _ :=
      fun b => mem_visited_walk_iff
    rw [hwalk] at hfrontier hgrow hmem
    obtain ⟨hnodup, hnew⟩ := ih hfrontier
    have hsteps : ∀ b ∈ JoinStep.introduced steps, b ≠ a ∧ b ∉ t.visited := by
      intro b hb
      simpa using hgrow.not_mem hb
    have hchain : (chainAliases (a, steps)).Nodup :=
      List.nodup_cons.mpr ⟨fun ha => (hsteps a ha).1 rfl, hgrow.nodup⟩
    have hchainVisited : ∀ b ∈ chainAliases (a, steps), b ∈ t'.visited := by
      intro b hb
      rw [hmem]
      unfold chainAliases at hb
      grind
    have hchainNew : ∀ b ∈ chainAliases (a, steps), b ∉ t.visited := by
      intro b hb
      obtain rfl | hb := List.mem_cons.mp hb
      · simpa using hvisited
      · exact (hsteps b hb).2
    rw [List.flatMap_cons, List.nodup_append]
    refine ⟨⟨hchain, hnodup, ?_⟩, ?_⟩
    · rintro b hb _ hb' rfl
      exact hnew b hb' (hchainVisited b hb)
    · intro b hb hold
      obtain hb | hb := List.mem_append.mp hb
      · exact hchainNew b hb hold
      · exact hnew b hb ((hmem b).mpr (.inr (List.mem_cons_of_mem _ hold)))

theorem mem_chains_of_mem {aliases : List Alias} {a : Alias} (ha : a ∈ aliases)
    (hnew : a ∉ t.visited) : a ∈ (t.chains aliases).flatMap chainAliases := by
  fun_induction chains t aliases with
  | case1 t => cases ha
  | case2 t b aliases hvisited ih =>
    obtain rfl | ha := List.mem_cons.mp ha
    · exact absurd (by simpa using hvisited) hnew
    · exact ih ha hnew
  | case3 t b aliases hvisited steps t' hwalk ih =>
    have hmem : a ∈ (walk { t with visited := b :: t.visited } [b]).2.visited ↔ _ :=
      mem_visited_walk_iff
    rw [hwalk] at hmem
    rw [List.flatMap_cons, List.mem_append]
    by_cases hchain : a ∈ chainAliases (b, steps)
    · exact .inl hchain
    · unfold chainAliases at hchain
      exact .inr (ih (by grind) (by grind))

theorem start_mem {aliases : List Alias} : ∀ c ∈ t.chains aliases, c.1 ∈ aliases := by
  fun_induction chains t aliases with
  | case1 t => simp
  | case2 t a aliases hvisited ih => exact fun c hc => List.mem_cons_of_mem _ (ih c hc)
  | case3 t a aliases hvisited steps t' hwalk ih =>
    intro c hc
    obtain rfl | hc := List.mem_cons.mp hc
    · exact List.mem_cons_self
    · exact List.mem_cons_of_mem _ (ih c hc)

/-! ### Chains from the start

The joins are those of one select, and join only its tables.
-/

section

variable {edges : List JoinEdge} {aliases : List Alias}

theorem frontier_start (edges : List JoinEdge) : Frontier { remaining := edges } [] where
  visited := by simp
  pending_of_touches := by simp

theorem mem_chains_iff (hends : ∀ e ∈ edges, e.source ∈ aliases ∧ e.target ∈ aliases) {a : Alias}
    : a ∈ (chains { remaining := edges } aliases).flatMap chainAliases ↔ a ∈ aliases := by
  have hperm := perm_chains (frontier_start edges) aliases fun e he => (hends e he).1
  constructor
  · intro ha
    obtain ⟨c, hc, ha⟩ := List.mem_flatMap.mp ha
    obtain rfl | ha := List.mem_cons.mp ha
    · exact start_mem c hc
    · obtain ⟨e, he, b, hjoins⟩ := (grow_chains (frontier_start edges) aliases c hc).exists_joins ha
      have hmem := hends e (hperm.subset (List.mem_flatMap.mpr ⟨c, hc, he⟩))
      obtain ⟨_, rfl⟩ | ⟨rfl, _⟩ := hjoins
      · exact hmem.2
      · exact hmem.1
  · intro ha
    exact mem_chains_of_mem ha List.not_mem_nil

theorem eq_of_mem_chainAliases {c d : Alias × List JoinStep}
    (hc : c ∈ chains { remaining := edges } aliases)
    (hd : d ∈ chains { remaining := edges } aliases) {a : Alias} (hac : a ∈ chainAliases c)
    (had : a ∈ chainAliases d) : c = d := by
  have hnodup := (nodup_chains (frontier_start edges) aliases).1
  rw [List.nodup_flatMap] at hnodup
  have : Std.Symm (Function.onFun List.Disjoint chainAliases) :=
    ⟨fun _ _ h _ hb ha => h ha hb⟩
  by_contra hne
  exact hnodup.2.forall hc hd hne hac had

theorem mem_chainAliases_iff (hends : ∀ e ∈ edges, e.source ∈ aliases ∧ e.target ∈ aliases)
    {c : Alias × List JoinStep} (hc : c ∈ chains { remaining := edges } aliases) {a b : Alias}
    (ha : a ∈ chainAliases c) : b ∈ chainAliases c ↔ Connected edges a b := by
  have hperm := perm_chains (frontier_start edges) aliases fun e he => (hends e he).1
  have hgrow := grow_chains (frontier_start edges) aliases
  constructor
  · intro hb
    have hsub : chainEdges c ⊆ edges := fun e he =>
      hperm.subset (List.mem_flatMap.mpr ⟨c, hc, he⟩)
    have hstart : ∀ x ∈ [c.1], Connected edges c.1 x :=
      fun x hx => List.mem_singleton.mp hx ▸ Relation.ReflTransGen.refl
    have hconnected := (hgrow c hc).connected hsub hstart
    exact (hconnected a ha).symm.trans (hconnected b hb)
  · intro h
    induction h with
    | refl => exact ha
    | @tail x y _ hlast ih =>
      obtain ⟨e, he, hjoins⟩ := hlast
      obtain ⟨d, hd, he⟩ := List.mem_flatMap.mp (hperm.symm.subset he)
      have hmem := (hgrow d hd).ends_mem he
      have hxy : x ∈ chainAliases d ∧ y ∈ chainAliases d := by
        obtain ⟨rfl, rfl⟩ | ⟨rfl, rfl⟩ := hjoins
        · exact hmem
        · exact hmem.symm
      obtain rfl := eq_of_mem_chainAliases hc hd ih hxy.1
      exact hxy.2

end

end Traversal

end SqlDialect
