import Mathlib.Data.Fintype.Card
import Mathlib.Order.Interval.Finset.Nat
import Mathlib.Order.Monotone.Basic
import SqlDialect.Proofs.Query.Run
import SqlDialect.Proofs.Query.Steps

/-!
This module contains the theory of nested selects. Rendering goes from select to select along the
references in their expressions, and gives up when it has gone too deep. As many selects as there
are is deep enough: going deeper changes nothing. If no select refers to itself, not even through
others, rendering never gives up. The root is never rendered inside of another select.
-/

namespace SqlDialect

open Compile (Avoids settles_iff)

namespace Query

/-! ## Depth -/

variable {q : Query} {id s t : ScopeId} {depth depth' : Nat}

theorem renderNested_root (q : Query) (depth : Nat)
    : q.renderNested depth .root = .error (.aliasing .nestedRoot) := by
  cases depth <;> rfl

theorem renderNested_succ (hid : id ≠ .root) (depth : Nat)
    : q.renderNested (depth + 1) id
        =
      q.renderScope id .unlocked { profile := q.profile, subselect := q.renderNested depth } := by
  rw [renderNested, if_neg hid]

theorem exists_renderScope_of_renderNested {r : Rendered} (h : q.renderNested depth id = .ok r)
    : ∃ depth', q.renderScope id .unlocked
        { profile := q.profile, subselect := q.renderNested depth' } = .ok r := by
  by_cases hid : id = .root
  · rw [hid, renderNested_root] at h
    cases h
  · cases depth with
    | zero =>
      rw [renderNested, if_neg hid] at h
      cases h
    | succ depth =>
      rw [renderNested_succ hid] at h
      exact ⟨depth, h⟩

-- Where rendering does not give up, it does the same if it may go one select deeper.
theorem below_renderNested (q : Query) (depth : Nat) (id : ScopeId)
    : Compile.Below (.aliasing .endlessNesting) (q.renderNested depth id)
        (q.renderNested (depth + 1) id) := by
  induction depth generalizing id with
  | zero =>
    by_cases hid : id = .root
    · rw [hid, renderNested_root, renderNested_root]
      exact .inr rfl
    · rw [renderNested, if_neg hid]
      exact .inl rfl
  | succ depth ih =>
    by_cases hid : id = .root
    · rw [hid, renderNested_root, renderNested_root]
      exact .inr rfl
    · rw [renderNested_succ hid, renderNested_succ hid]
      exact (q.sequenced_renderScope id .unlocked { profile := q.profile }).below ih

theorem renderNested_eq_of_settles (h : (q.renderNested depth id).Settles) (hle : depth ≤ depth')
    : q.renderNested depth' id = q.renderNested depth id := by
  induction depth', hle using Nat.le_induction with
  | base => rfl
  | succ depth' _ ih =>
    obtain hbelow | hbelow := q.below_renderNested depth' id
    · rw [ih] at hbelow
      exact absurd hbelow h
    · exact hbelow.symm.trans ih

theorem settles_renderNested_mono (hle : depth ≤ depth') (h : (q.renderNested depth id).Settles)
    : (q.renderNested depth' id).Settles := by
  rw [renderNested_eq_of_settles h hle]
  exact h

theorem settles_of_unknown (hid : id = .root ∨ q.select? id = none) (depth : Nat)
    : (q.renderNested (depth + 1) id).Settles := by
  by_cases hroot : id = .root
  · rw [hroot, renderNested_root]
    simp [Compile.Settles]
  · have hselect : q.select? id = none := hid.resolve_left hroot
    rw [renderNested_succ hroot, renderScope_eq, select, hselect]
    simp [Compile.Settles]

def settled (q : Query) (depth : Nat) : Finset Nat :=
  (Finset.Ico 1 q.selects.length).filter fun i => (q.renderNested depth ⟨i⟩).Settles

theorem settled_mono (q : Query) (hle : depth ≤ depth') : q.settled depth ⊆ q.settled depth' := by
  apply Finset.monotone_filter_right
  intro i _ h
  exact settles_renderNested_mono hle h

theorem mem_settled_iff (hid : id ≠ .root) (hselect : (q.select? id).isSome)
    : id.index ∈ q.settled depth ↔ (q.renderNested depth id).Settles := by
  have hroot : id.index ≠ 0 := fun h => hid (congrArg ScopeId.mk h)
  have hlt : id.index < q.selects.length := by
    simpa [select?] using hselect
  simp only [settled, Finset.mem_filter, Finset.mem_Ico]
  constructor
  · exact fun h => h.2
  · exact fun h => ⟨⟨by omega, hlt⟩, h⟩

theorem renderNested_eq_of_settled_eq (hle : depth ≤ depth')
    (h : q.settled (depth + 1) = q.settled (depth' + 1))
    : q.renderNested (depth' + 1) = q.renderNested (depth + 1) := by
  funext id
  by_cases hsettles : (q.renderNested (depth + 1) id).Settles
  · exact renderNested_eq_of_settles hsettles (by omega)
  · -- A select that is given up at first is a nested one, and is given up later too.
    have hid : ¬ (id = .root ∨ q.select? id = none) := fun hid =>
      hsettles (settles_of_unknown hid depth)
    rw [not_or, ← ne_eq, ← ne_eq, Option.ne_none_iff_isSome] at hid
    have hsettles' : ¬ (q.renderNested (depth' + 1) id).Settles := by
      rw [← mem_settled_iff hid.1 hid.2] at hsettles ⊢
      rw [← h]
      exact hsettles
    rw [Decidable.not_not.mp hsettles, Decidable.not_not.mp hsettles']

theorem renderNested_succ_congr (h : q.renderNested depth = q.renderNested depth')
    : q.renderNested (depth + 1) = q.renderNested (depth' + 1) := by
  funext id
  rw [renderNested, renderNested, h]

theorem renderNested_of_le (hne : q.selects ≠ []) (hle : q.selects.length ≤ depth)
    : q.renderNested depth = q.renderNested q.selects.length := by
  have hlength : 0 < q.selects.length := List.length_pos_iff.mpr hne
  obtain ⟨n, hn⟩ : ∃ n, q.selects.length = n + 1 := ⟨_, (Nat.sub_add_cancel hlength).symm⟩
  obtain ⟨m, rfl⟩ : ∃ m, depth = m + 1 := ⟨_, (Nat.sub_add_cancel (hlength.trans_le hle)).symm⟩
  -- While going deeper makes a difference, it makes one to a select that was given up before.
  have hcard : (q.settled (m + 1)).card = (q.settled (n + 1)).card := by
    apply Nat.stabilises_of_monotone (f := fun k => (q.settled (k + 1)).card)
    · intro k k' hk
      exact Finset.card_le_card (q.settled_mono (by omega))
    · intro k
      calc (q.settled (k + 1)).card
        _ ≤ (Finset.Ico 1 q.selects.length).card := Finset.card_filter_le _ _
        _ = n := by simp [hn]
    · intro k hk
      have hsame : q.settled (k + 1) = q.settled (k + 1 + 1) :=
        Finset.eq_of_subset_of_card_le (q.settled_mono (by omega)) hk.ge
      have hnext := renderNested_succ_congr (renderNested_eq_of_settled_eq (Nat.le_succ k) hsame)
      simp only [settled, hnext]
    · omega
  rw [hn]
  apply renderNested_eq_of_settled_eq (by omega)
  exact Finset.eq_of_subset_of_card_le (q.settled_mono (by omega)) hcard.le

theorem renderNested_length (hne : q.selects ≠ []) (hid : id ≠ .root)
    : q.renderNested q.selects.length id = q.renderUnlocked id := by
  rw [← renderNested_of_le hne (Nat.le_succ _), renderNested_succ hid]
  rfl

/-! ## Selects that do not refer to themselves -/

theorem Acyclic.wellFounded (h : q.Acyclic) : WellFounded fun t s => q.Refers s t := by
  -- Only finitely many selects refer to anything.
  have hlt : ∀ {s t}, q.Refers s t → s.index < q.selects.length := by
    rintro s t ⟨x, hx, _⟩
    exact (List.getElem?_eq_some_iff.mp hx).1
  let R : Fin q.selects.length → Fin q.selects.length → Prop :=
    fun i j => Relation.TransGen q.Refers ⟨j⟩ ⟨i⟩
  have : IsTrans _ R := ⟨fun _ _ _ hij hjk => hjk.trans hij⟩
  have : Std.Irrefl R := ⟨fun i hi => h ⟨i⟩ hi⟩
  have hR : WellFounded R := Finite.wellFounded_of_trans_of_irrefl R
  have hunknown : ∀ t : ScopeId, ¬ t.index < q.selects.length →
      Acc (fun t s => q.Refers s t) t :=
    fun t ht => ⟨t, fun u hu => absurd (hlt hu) ht⟩
  have hknown : ∀ i : Fin q.selects.length, Acc (fun t s => q.Refers s t) ⟨i⟩ := by
    intro i
    induction i using hR.induction with
    | _ i ih =>
      constructor
      intro t ht
      by_cases hlt : t.index < q.selects.length
      · exact ih ⟨t.index, hlt⟩ (.single ht)
      · exact hunknown t hlt
  constructor
  intro s
  by_cases hlt : s.index < q.selects.length
  · exact hknown ⟨s.index, hlt⟩
  · exact hunknown s hlt

theorem acyclic_of_rank (rank : ScopeId → Nat)
    (h : ∀ x ∈ q.selects.zipIdx, ∀ e ∈ x.1.exprs, ∀ t ∈ e.nestedSelects, rank ⟨x.2⟩ < rank t)
    : q.Acyclic := by
  have hrefers : ∀ {s t}, q.Refers s t → rank s < rank t := by
    rintro s t ⟨x, hx, e, he, ht⟩
    exact h (x, s.index) (List.mk_mem_zipIdx_iff_getElem?.mpr hx) e he t ht
  have hreaches : ∀ {s t}, Relation.TransGen q.Refers s t → rank s < rank t := by
    intro s t hst
    induction hst with
    | single hlast => exact hrefers hlast
    | tail _ hlast ih => exact ih.trans (hrefers hlast)
  exact fun s hs => lt_irrefl _ (hreaches hs)

theorem Acyclic.settles_renderNested (h : q.Acyclic) (hne : q.selects ≠ []) (id : ScopeId)
    : (q.renderNested q.selects.length id).Settles := by
  induction id using h.wellFounded.induction with
  | _ id ih =>
    by_cases hid : id = .root
    · rw [hid, renderNested_root]
      simp [Compile.Settles]
    · rw [renderNested_length hne hid, settles_iff]
      have hsteps := q.sequenced_renderScope id .unlocked q.context
      apply hsteps.avoids (q.avoids_steps id .unlocked)
      intro t ht
      exact settles_iff.mp (ih t (select_mem_steps_iff.mp ht).of_emitted)

/--
The equations by which the texts of nested selects are defined in terms of each other, with no bound
on the depth.
-/
def Unfolds (q : Query) (f : ScopeId → Compile Rendered) : Prop :=
  ∀ id, f id =
    if id = .root then
      .error (.aliasing .nestedRoot)
    else
      q.renderScope id .unlocked { profile := q.profile, subselect := f }

theorem unfolds_renderNested (hne : q.selects ≠ [])
    : q.Unfolds (q.renderNested q.selects.length) := by
  intro id
  rw [← renderNested_of_le hne (Nat.le_succ _)]
  conv_lhs => rw [renderNested]
  rw [renderNested_of_le hne (Nat.le_succ _)]

theorem Acyclic.eq_of_unfolds (h : q.Acyclic) {f g : ScopeId → Compile Rendered} (hf : q.Unfolds f)
    (hg : q.Unfolds g) : f = g := by
  funext id
  induction id using h.wellFounded.induction with
  | _ id ih =>
    rw [hf id, hg id]
    split
    · rfl
    · apply (q.sequenced_renderScope id .unlocked { profile := q.profile }).congr
      intro t ht
      exact ih t (select_mem_steps_iff.mp ht).of_emitted

/-! ## Statements -/

section

variable {b : Breakdown} (hnested : ∀ id, (q.renderNested q.selects.length id).Avoids b)

include hnested

theorem avoids_renderScope (id : ScopeId) (lock : LockRequest)
    : (q.renderScope id lock q.context).Avoids b :=
  (q.sequenced_renderScope id lock q.context).avoids (q.avoids_steps id lock) fun t _ => hnested t

theorem avoids_render (lock : LockRequest) : (q.render lock).Avoids b :=
  (avoids_renderScope hnested .root lock).bind fun _ => (q.avoids_select .root).map _

theorem avoids_mapM_fragment (es : List Expr) : Avoids b (es.mapM (·.fragment q.context)) :=
  .mapM fun e => e.avoids_fragment hnested

theorem avoids_source (id : ScopeId) (hint : Option String)
    : (q.source id q.context hint).Avoids b := by
  apply (q.avoids_select id).bind
  intro s
  apply (q.graph.avoids_fromClause id q.profile hint).bind
  intro tables
  exact Avoids.map (.mapM fun e => (e.avoids_sql hnested).map _) _

theorem avoids_body (id : ScopeId) (hint : Option String) (ordered : Bool)
    : (q.body id q.context hint ordered).Avoids b := by
  apply (q.avoids_select id).bind
  intro s
  apply (avoids_source hnested id hint).bind
  intro x
  apply (Avoids.ite (.ok _) ((avoids_mapM_fragment hnested s.groupBy).map _)).bind
  intro groupBy
  apply (Avoids.ite (.ok _) ((avoids_mapM_fragment hnested s.having).map _)).bind
  intro having
  cases ordered with
  | false => exact .ok _
  | true =>
    apply Avoids.map
    exact .map (.mapM fun item => (item.expr.avoids_fragment hnested).map _) _

theorem avoids_directCount? (s : Select) : (q.directCount? s).Avoids b := by
  have hcount : (countRows.fragment q.context).Avoids b := countRows.avoids_fragment hnested
  unfold directCount?
  refine .ite (.ok none) (.ite (hcount.map some) ?_)
  split
  · exact hcount.map some
  · exact (Expr.avoids_fragment _ hnested).map some
  · exact .ok none
  · exact Avoids.map (.mapM fun e => e.avoids_sql hnested) _

theorem avoids_renderCount : q.renderCount.Avoids b := by
  rw [renderCount_eq]
  apply (q.avoids_select .root).bind
  intro s
  apply (avoids_directCount? hnested s).bind
  intro count
  cases count with
  | some count => exact (avoids_body hnested .root none false).map _
  | none =>
    apply (q.profile.avoids_require .subselect).bind
    intro _
    exact (avoids_renderScope hnested .root .unlocked).map _

theorem avoids_setClause (action : BulkAction) (qualifier : Option Alias)
    : (action.setClause q.context qualifier).Avoids b := by
  cases action with
  | delete => exact .ok _
  | update assignments =>
    exact Avoids.map (.mapM fun x => (x.2.avoids_fragment hnested).map _) _

theorem avoids_aliasedBulk (action : BulkAction) (id : ScopeId) (table : Table)
    : (q.aliasedBulk action id table).Avoids b := by
  rw [aliasedBulk_eq]
  apply (q.graph.avoids_aliasOf id table .root).bind
  intro a
  apply (avoids_setClause hnested action a).bind
  intro set
  exact (avoids_source hnested id none).map _

theorem avoids_bulk? (action : BulkAction) (id : ScopeId) (table : Table)
    (hkey : (q.keyCondition id table table.primaryKeyColumns).Avoids b)
    : (q.bulk? action id table).Avoids b := by
  apply (q.avoids_tableCount id).bind
  intro tables
  refine .ite ((avoids_aliasedBulk hnested action id table).map some) ?_
  rw [nestedBulk?_eq_render]
  apply ((avoids_setClause hnested action none).map _).bind
  intro head
  exact .ite (.ok _) (.ite (hkey.map _) (.ok none))

end

-- The items and the condition that are put in have no nested selects.
theorem mem_exprs_keySelect {p : Profile} {a : Alias} {table : Table} {key : List String}
    {x : Select} {e : Expr} (h : e ∈ (keySelect p a table key x).exprs)
    : e ∈ x.exprs ∨ e.nestedSelects = [] := by
  have hcolumn : ∀ column, (Expr.column a column).nestedSelects = [] := fun _ => rfl
  have hone : (Expr.literal (.int 1)).nestedSelects = [] := rfl
  have hraw : ∀ text, (Expr.raw text).nestedSelects = [] := fun _ => rfl
  unfold keySelect at h
  simp only [Select.exprs, List.mem_append]
  split at h
  all_goals
    simp only [Select.exprs, List.map_cons, List.map_nil, List.mem_append, List.mem_singleton] at h
    grind

theorem Acyclic.modifySelect_keySelect (h : q.Acyclic) (id : ScopeId) (a : Alias) (table : Table)
    (key : List String) : (q.modifySelect id (keySelect q.profile a table key)).Acyclic := by
  intro s hs
  refine h s (Relation.TransGen.mono ?_ _ _ hs)
  rintro s t ⟨x, hx, e, he, ht⟩
  rw [select?_modifySelect] at hx
  split at hx
  · obtain ⟨y, hy, rfl⟩ := Option.map_eq_some_iff.mp hx
    obtain he | he := mem_exprs_keySelect he
    · exact ⟨y, hy, e, he, ht⟩
    · rw [he] at ht
      cases ht
  · exact ⟨x, hx, e, he, ht⟩

theorem avoids_keyCondition {b : Breakdown} {table : Table} {key : List String}
    (hnested : ∀ a t, let q' := q.modifySelect id (keySelect q.profile a table key)
      (q'.renderNested q'.selects.length t).Avoids b)
    : (q.keyCondition id table key).Avoids b := by
  rw [keyCondition_eq]
  apply (q.graph.avoids_aliasOf id table .root).bind
  intro a
  exact (avoids_renderScope (hnested a) id .unlocked).map _

theorem Acyclic.settles_bulk? (h : q.Acyclic) (hne : q.selects ≠ []) (action : BulkAction)
    (id : ScopeId) (table : Table) : (q.bulk? action id table).Settles := by
  rw [settles_iff]
  apply avoids_bulk? (fun t => settles_iff.mp (h.settles_renderNested hne t))
  apply avoids_keyCondition
  intro a t
  apply settles_iff.mp
  apply (h.modifySelect_keySelect id a table table.primaryKeyColumns).settles_renderNested
  simpa [modifySelect] using hne

/-! ## The root -/

def contextWithRoot (q : Query) (r : Rendered) : RenderContext :=
  { q.context with subselect := Function.update q.context.subselect .root (.ok r) }

theorem exists_error_of_reaches (hne : q.selects ≠ [])
    (h : Relation.TransGen q.emitted.Refers id .root) (lock : LockRequest)
    : ∃ e, q.renderScope id lock q.context = .error e := by
  induction h using Relation.TransGen.head_induction_on generalizing lock with
  | @single i hrefers =>
    have hsteps := q.sequenced_renderScope i lock q.context
    exact hsteps.exists_error (select_mem_steps_iff.mpr hrefers) (q.renderNested_root _)
  | @head i j hrefers _ ih =>
    -- The select that is referred to has no text, be it the root or not.
    have hnested : ∃ e, q.renderNested q.selects.length j = .error e := by
      by_cases hj : j = .root
      · rw [hj]
        exact ⟨_, q.renderNested_root _⟩
      · rw [renderNested_length hne hj]
        exact ih .unlocked
    obtain ⟨e, he⟩ := hnested
    have hsteps := q.sequenced_renderScope i lock q.context
    exact hsteps.exists_error (select_mem_steps_iff.mpr hrefers) he

theorem renderScope_of_refers_root (h : q.emitted.Refers id .root) {lock : LockRequest}
    {r x : Rendered} (hx : q.renderScope id lock (q.contextWithRoot r) = .ok x)
    : q.renderScope id lock q.context = .error (.aliasing .nestedRoot) :=
  (q.sequenced_renderScope id lock q.context).eq_error_of_update (select_mem_steps_iff.mpr h)
    (q.renderNested_root _) hx

theorem fragment_of_root_mem {e : Expr} (h : .root ∈ e.nestedSelects) (qualify : Bool)
    : (∃ err, e.fragment { q.context with qualify } = .error err)
        ∧ ∀ r f, e.fragment { q.contextWithRoot r with qualify } = .ok f →
            e.fragment { q.context with qualify } = .error (.aliasing .nestedRoot) := by
  have hmem := Expr.mem_nestedSelects_iff.mp h
  have hsteps := e.sequenced_fragment { q.context with qualify }
  refine ⟨hsteps.exists_error hmem (q.renderNested_root _), ?_⟩
  intro r f hf
  exact hsteps.eq_error_of_update hmem (q.renderNested_root _) hf

/--
Rendering ends if no select refers to itself, not even through others. Then the texts of all selects
are determined by those of the selects that they refer to, and rendering goes from select to select
no further than there are selects. A reference to the root has no text and is an error.
-/
theorem nesting_of_run (p : Profile) (calls : List QueryCall)
    : let q := (new p).afterAll calls
      (q.Acyclic →
        (∀ depth, q.selects.length ≤ depth →
            q.renderNested depth = q.renderNested q.selects.length)
          ∧ (∀ f, q.Unfolds f ↔ f = q.renderNested q.selects.length)
          ∧ (∀ id, (q.renderUnlocked id).Settles)
          ∧ (∀ lock, (q.render lock).Settles)
          ∧ q.renderCount.Settles
          ∧ ∀ action id table, (q.bulk? action id table).Settles)
        ∧ (∀ depth, q.renderNested depth .root = .error (.aliasing .nestedRoot))
        ∧ (∀ id lock, Relation.TransGen q.emitted.Refers id .root →
            ∃ e, q.renderScope id lock q.context = .error e)
        ∧ (∀ id lock, q.emitted.Refers id .root →
            ∀ r x, q.renderScope id lock (q.contextWithRoot r) = .ok x →
              q.renderScope id lock q.context = .error (.aliasing .nestedRoot))
        ∧ ∀ (e : Expr) qualify, .root ∈ e.nestedSelects →
            (∃ err, e.fragment { q.context with qualify } = .error err)
              ∧ ∀ r f, e.fragment { q.contextWithRoot r with qualify } = .ok f →
                  e.fragment { q.context with qualify } = .error (.aliasing .nestedRoot) := by
  intro q
  have hne : q.selects ≠ [] := selects_ne_nil_afterAll p calls
  refine ⟨?_, q.renderNested_root, ?_, ?_, ?_⟩
  · intro h
    have hnested := fun id => settles_iff.mp (h.settles_renderNested hne id)
    refine ⟨?_, ?_, ?_, ?_, ?_, ?_⟩
    · exact fun depth hle => renderNested_of_le hne hle
    · intro f
      constructor
      · exact fun hf => h.eq_of_unfolds hf (unfolds_renderNested hne)
      · rintro rfl
        exact unfolds_renderNested hne
    · exact fun id => settles_iff.mpr (avoids_renderScope hnested id .unlocked)
    · exact fun lock => settles_iff.mpr (avoids_render hnested lock)
    · exact settles_iff.mpr (avoids_renderCount hnested)
    · exact h.settles_bulk? hne
  · exact fun id lock h => exists_error_of_reaches hne h lock
  · exact fun id lock h r x hx => renderScope_of_refers_root h hx
  · exact fun e qualify h => fragment_of_root_mem h qualify

/--
The root refers to the first two of three nested selects, the first one to the second, and the last
one, which nothing refers to, to the root.
-/
def sharedSelects : List QueryCall :=
  [.subselect .root, .subselect .root, .subselect ⟨1⟩,
    .fromTable .root { name := "A" }, .addItem .root { expr := .column ⟨0⟩ "ID" },
    .fromTable ⟨1⟩ { name := "B" }, .addItem ⟨1⟩ { expr := .column ⟨1⟩ "ID" },
    .fromTable ⟨2⟩ { name := "C" }, .addItem ⟨2⟩ { expr := .column ⟨2⟩ "ID" },
    .fromTable ⟨3⟩ { name := "D" }, .addItem ⟨3⟩ { expr := .column ⟨3⟩ "ID" },
    .addCondition .root (.existsIn ⟨1⟩ false), .addCondition .root (.existsIn ⟨2⟩ true),
    .addCondition ⟨1⟩ (.inSelect (.column ⟨1⟩ "X") ⟨2⟩ false),
    .addCondition ⟨3⟩ (.existsIn .root false)]

theorem nesting_of_run_shared
    : let q := (new Vendor.generic.profile).afterAll sharedSelects
      q.Acyclic ∧ q.selects.length = 4 ∧ q.renderNested 9 = q.renderNested 4
        ∧ (q.render .unlocked).Settles
        ∧ (q.render .unlocked).toOption.map (·.sql)
            = some ("SELECT t0.ID FROM A t0 WHERE EXISTS (SELECT t1.ID FROM B t1 WHERE t1.X IN "
              ++ "(SELECT t2.ID FROM C t2)) AND NOT EXISTS (SELECT t2.ID FROM C t2)")
        ∧ q.emitted.Refers ⟨3⟩ .root
        ∧ q.renderUnlocked ⟨3⟩ = .error (.aliasing .nestedRoot) := by
  have hlength : ((new Vendor.generic.profile).afterAll sharedSelects).selects.length = 4 := by
    decide +kernel
  have hrefers : ((new Vendor.generic.profile).afterAll sharedSelects).emitted.Refers ⟨3⟩ .root :=
    ⟨_, rfl, .existsIn .root false, by simp [Select.exprs, Select.emitted], by decide⟩
  have hacyclic : ((new Vendor.generic.profile).afterAll sharedSelects).Acyclic :=
    acyclic_of_rank (fun i => (i.index + 1) % 4) (by decide +kernel)
  obtain ⟨hends, _, _, hroot, _⟩ := nesting_of_run Vendor.generic.profile sharedSelects
  obtain ⟨hdepth, _, _, hrender, _⟩ := hends hacyclic
  refine ⟨hacyclic, hlength, ?_, hrender .unlocked, by decide +kernel, hrefers, ?_⟩
  · rw [hdepth 9 (by omega), hlength]
  · refine hroot ⟨3⟩ .unlocked hrefers ⟨"ROOT", []⟩ ?_ ?_
    · exact ⟨"SELECT t3.ID FROM D t3 WHERE EXISTS (ROOT)", []⟩
    · decide +kernel

-- Two selects that refer to each other have no text.
example
    : ((new Vendor.generic.profile).afterAll
        [.subselect .root, .subselect .root,
          .fromTable ⟨1⟩ { name := "A" }, .addItem ⟨1⟩ { expr := .column ⟨0⟩ "ID" },
          .fromTable ⟨2⟩ { name := "B" }, .addItem ⟨2⟩ { expr := .column ⟨1⟩ "ID" },
          .addCondition ⟨1⟩ (.existsIn ⟨2⟩ false),
          .addCondition ⟨2⟩ (.existsIn ⟨1⟩ false)]).renderUnlocked ⟨1⟩
        = .error (.aliasing .endlessNesting) := by
  decide +kernel

end Query
end SqlDialect
