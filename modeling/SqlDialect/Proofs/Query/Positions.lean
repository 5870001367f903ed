import SqlDialect.Proofs.Expr.Equality
import SqlDialect.Proofs.Query.Run
import SqlDialect.Proofs.Query.Steps

/-!
This module contains where the items of a select are. An item that is added gets a position, and no
call ever moves it, changes its expression or its label, or takes back that it is an identifier. An
expression that is selected already is not added again, so the items of a select are all different.
-/

namespace SqlDialect

structure SelectItem.Kept (old new : SelectItem) : Prop where
  expr : new.expr = old.expr
  label : new.label = old.label
  identifier : old.identifier → new.identifier

theorem SelectItem.Kept.refl (item : SelectItem) : item.Kept item := ⟨rfl, rfl, id⟩

theorem SelectItem.Kept.trans {a b c : SelectItem} (h : a.Kept b) (h' : b.Kept c) : a.Kept c :=
  ⟨h'.expr.trans h.expr, h'.label.trans h.label, h'.identifier ∘ h.identifier⟩

theorem SelectItem.kept_mark (old : SelectItem) (mark : Bool)
    : old.Kept { old with identifier := old.identifier || mark } := by
  refine ⟨rfl, rfl, ?_⟩
  intro h
  simp [h]

/-! ## Adding an item -/

namespace Select

variable {s : Select} {item : SelectItem}

def Keeps (old new : List SelectItem) : Prop :=
  ∀ (i : Nat) (item : SelectItem), old[i]? = some item →
    ∃ now, new[i]? = some now ∧ item.Kept now

theorem Keeps.refl (items : List SelectItem) : Keeps items items :=
  fun _ item h => ⟨item, h, .refl item⟩

theorem Keeps.trans {a b c : List SelectItem} (h : Keeps a b) (h' : Keeps b c) : Keeps a c := by
  intro i item hitem
  obtain ⟨between, hbetween, hkept⟩ := h i item hitem
  obtain ⟨now, hnow, hkept'⟩ := h' i between hbetween
  exact ⟨now, hnow, hkept.trans hkept'⟩

def AllDifferent (items : List SelectItem) : Prop :=
  (items.map (·.expr)).Pairwise fun e f => e.equals f = false

theorem AllDifferent.equals_eq_false {items : List SelectItem} {i j : Nat} {a b : SelectItem}
    (h : AllDifferent items) (hij : i ≠ j) (ha : items[i]? = some a) (hb : items[j]? = some b)
    : a.expr.equals b.expr = false := by
  have hlt : ∀ {i j : Nat} {a b : SelectItem}, i < j → items[i]? = some a → items[j]? = some b →
      a.expr.equals b.expr = false := by
    intro i j a b hij ha hb
    obtain ⟨hi, rfl⟩ := List.getElem?_eq_some_iff.mp ha
    obtain ⟨hj, rfl⟩ := List.getElem?_eq_some_iff.mp hb
    have hpair := List.pairwise_iff_getElem.mp h i j (by simpa using hi) (by simpa using hj) hij
    simpa using hpair
  obtain hij | hji := Nat.lt_or_gt_of_ne hij
  · exact hlt hij ha hb
  · rw [Expr.equals_comm]
    exact hlt hji hb ha

theorem addItem_eq (s : Select) (item : SelectItem)
    : (∃ i old, s.items[i]? = some old ∧ old.expr.equals item.expr
        ∧ s.addItem item = (i + 1, { s with
            items := s.items.set i { old with identifier := old.identifier || item.identifier } }))
      ∨ (∀ old ∈ s.items, old.expr.equals item.expr = false)
        ∧ s.addItem item = (s.items.length + 1, { s with items := s.items ++ [item] }) := by
  unfold addItem
  cases h : s.items.findIdx? (·.expr.equals item.expr) with
  | some i =>
    obtain ⟨hi, hequal, _⟩ := List.findIdx?_eq_some_iff_getElem.mp h
    refine .inl ⟨i, _, List.getElem?_eq_getElem hi, hequal, ?_⟩
    simp only [List.modify_eq_set_getElem?, List.getElem?_eq_getElem hi]
    rfl
  | none => exact .inr ⟨List.findIdx?_eq_none_iff.mp h, rfl⟩

theorem keeps_addItem (s : Select) (item : SelectItem)
    : Keeps s.items (s.addItem item).2.items := by
  intro j a ha
  obtain ⟨i, old, hold, _, h⟩ | ⟨_, h⟩ := s.addItem_eq item
  · rw [h]
    obtain rfl | hij := eq_or_ne i j
    · rw [hold] at ha
      cases ha
      exact ⟨_, List.getElem?_set_self (List.getElem?_eq_some_iff.mp hold).1, a.kept_mark _⟩
    · exact ⟨a, by rwa [List.getElem?_set_ne hij], .refl a⟩
  · rw [h]
    refine ⟨a, ?_, .refl a⟩
    rwa [List.getElem?_append_left (List.getElem?_eq_some_iff.mp ha).1]

theorem allDifferent_addItem (item : SelectItem) (hs : AllDifferent s.items)
    : AllDifferent (s.addItem item).2.items := by
  unfold AllDifferent
  obtain ⟨i, old, hold, _, h⟩ | ⟨hnew, h⟩ := s.addItem_eq item
  · have hexprs : (s.addItem item).2.items.map (·.expr) = s.items.map (·.expr) := by
      obtain ⟨hi, rfl⟩ := List.getElem?_eq_some_iff.mp hold
      have hi' : i < (s.items.map (·.expr)).length := by simpa using hi
      have hset := List.set_getElem_self hi'
      rw [List.getElem_map] at hset
      rw [h, List.map_set]
      exact hset
    rwa [hexprs]
  · rw [h, List.map_append, List.pairwise_append]
    refine ⟨hs, List.pairwise_singleton _ _, ?_⟩
    simpa using hnew

theorem exists_getElem?_addItem (hfinite : item.expr.isFinite)
    : ∃ i found, (s.addItem item).1 = i + 1 ∧ (s.addItem item).2.items[i]? = some found
        ∧ found.expr.equals item.expr ∧ (item.identifier → found.identifier)
        ∧ (found = item ∨ ∃ old, s.items[i]? = some old ∧ old.Kept found) := by
  obtain ⟨i, old, hold, hequal, h⟩ | ⟨_, h⟩ := s.addItem_eq item
  · have hfound : (s.addItem item).2.items[i]?
        = some { old with identifier := old.identifier || item.identifier } := by
      rw [h]
      exact List.getElem?_set_self (List.getElem?_eq_some_iff.mp hold).1
    refine ⟨i, _, by rw [h], hfound, hequal, ?_, .inr ⟨old, hold, old.kept_mark _⟩⟩
    intro hmark
    simp [hmark]
  · refine ⟨s.items.length, item, by rw [h], ?_, Expr.equals_self hfinite, id, .inl rfl⟩
    rw [h]
    exact List.getElem?_concat_length

end Select

/-! ## Items of a run -/

namespace Query

variable {q q' : Query} {id : ScopeId} {s : Select} {item : SelectItem}

def items (q : Query) (id : ScopeId) : List SelectItem := ((q.select? id).map (·.items)).getD []

theorem items_new (p : Profile) (id : ScopeId) : (new p).items id = [] := by
  obtain ⟨_ | _⟩ := id <;> rfl

theorem items_eq (h : q.select? id = some s) : q.items id = s.items := by
  rw [items, h]
  rfl

theorem items_modifySelect (q : Query) (i j : ScopeId) {f : Select → Select}
    (hf : ∀ s, (f s).items = s.items) : (q.modifySelect i f).items j = q.items j := by
  unfold items
  rw [select?_modifySelect]
  split
  · rw [Option.map_map, Function.comp_def]
    simp only [hf]
  · rfl

theorem items_edit {i : ScopeId} {f : Select → Select} (h : q.edit i f = .ok q')
    (hf : ∀ s, (f s).items = s.items) (j : ScopeId) : q'.items j = q.items j := by
  rw [edit_eq_ok h]
  exact q.items_modifySelect i j hf

theorem addItem_of_select? (hs : q.select? id = some s) (item : SelectItem)
    : q.addItem id item
        =
      .ok ((s.addItem item).1, q.modifySelect id fun _ => (s.addItem item).2) := by
  rw [addItem, select_eq_ok_iff.mpr hs]
  rfl

theorem items_modifySelect_const (hs : q.select? id = some s) (s' : Select)
    : (q.modifySelect id fun _ => s').items id = s'.items := by
  simp [items, select?_modifySelect, hs]

theorem addOrder_of_select? (hs : q.select? id = some s) (order : OrderItem)
    : ∃ q', q.addOrder id order true = .ok q'
        ∧ q'.items id = (s.addItem { expr := order.expr }).2.items := by
  let q₁ := q.modifySelect id fun _ => (s.addItem { expr := order.expr }).2
  have hs₁ : q₁.select? id = some (s.addItem { expr := order.expr }).2 := by
    simp [q₁, select?_modifySelect, hs]
  refine ⟨q₁.modifySelect id fun s => { s with orderBy := s.orderBy ++ [order] }, ?_, ?_⟩
  · rw [addOrder, addItem_of_select? hs]
    change q₁.edit id _ = _
    rw [edit, select_eq_ok_iff.mpr hs₁]
    rfl
  · rw [items_modifySelect, items_eq hs₁]
    exact fun _ => rfl

def ItemsStep (q q' : Query) (id : ScopeId) : Prop :=
  q'.items id = q.items id
    ∨ ∃ s item, q.select? id = some s ∧ q'.items id = (s.addItem item).2.items

theorem itemsStep_addItem {i : ScopeId} (h : Prod.snd <$> q.addItem i item = .ok q') (j : ScopeId)
    : q.ItemsStep q' j := by
  cases hs : q.select? i with
  | none =>
    rw [addItem, select, hs] at h
    cases h
  | some s =>
    rw [addItem_of_select? hs] at h
    cases h
    obtain rfl | hij := eq_or_ne i j
    · exact .inr ⟨s, item, hs, items_modifySelect_const hs _⟩
    · left
      rw [items, select?_modifySelect, if_neg hij]
      rfl

theorem itemsStep_of_perform {call : QueryCall} (h : q.perform call = .ok q') (id : ScopeId)
    : q.ItemsStep q' id := by
  cases hjoins : call.joins? with
  | some joins =>
    rw [perform_of_joins? hjoins] at h
    obtain ⟨graph, _, rfl⟩ := Compile.map_eq_ok_iff.mp h
    exact .inl rfl
  | none =>
    cases call with
    | subselect parent =>
      -- The new select has no items, and neither has a scope that there is none of.
      simp only [perform, Query.subselect, Compile.map_eq_ok_iff, Compile.bind_eq_ok_iff] at h
      obtain ⟨_, ⟨_, _, _, _, _, _, h⟩, rfl⟩ := h
      cases h
      left
      simp only [items, select?, List.getElem?_append]
      split
      · rfl
      · next hge =>
        rw [List.getElem?_eq_none (Nat.le_of_not_lt hge)]
        cases id.index - q.selects.length <;> rfl
    | addItem => exact itemsStep_addItem h id
    | addOrder i item selected =>
      cases selected with
      | false => exact .inl (items_edit h (fun _ => rfl) id)
      | true =>
        obtain ⟨q₁, hitem, h⟩ := Compile.bind_eq_ok_iff.mp h
        unfold ItemsStep
        rw [items_edit h (fun _ => rfl) id]
        exact itemsStep_addItem hitem id
    | addHaving =>
      obtain ⟨_, _, h⟩ := Compile.bind_eq_ok_iff.mp h
      exact .inl (items_edit h (fun _ => rfl) id)
    | addCondition | addGrouping | setRange | setDistinct | setNotDistinct | setAutoDistinct
    | setAggregate => exact .inl (items_edit h (fun _ => rfl) id)
    | _ => cases hjoins

theorem itemsStep_after (q : Query) (call : QueryCall) (id : ScopeId)
    : q.ItemsStep (q.after call) id := by
  unfold after
  split
  · next h => exact itemsStep_of_perform h id
  · exact .inl rfl

theorem ItemsStep.keeps (h : q.ItemsStep q' id) : Select.Keeps (q.items id) (q'.items id) := by
  obtain h | ⟨s, item, hs, h⟩ := h
  · rw [h]
    exact .refl _
  · rw [h, items_eq hs]
    exact s.keeps_addItem item

theorem ItemsStep.allDifferent (h : q.ItemsStep q' id) (hq : Select.AllDifferent (q.items id))
    : Select.AllDifferent (q'.items id) := by
  obtain h | ⟨s, item, hs, h⟩ := h
  · rwa [h]
  · rw [items_eq hs] at hq
    rw [h]
    exact Select.allDifferent_addItem item hq

theorem keeps_afterAll (q : Query) (calls : List QueryCall) (id : ScopeId)
    : Select.Keeps (q.items id) ((q.afterAll calls).items id) := by
  induction calls generalizing q with
  | nil => exact .refl _
  | cons call calls ih => exact (q.itemsStep_after call id).keeps.trans (ih (q.after call))

theorem allDifferent_afterAll {q : Query} (calls : List QueryCall)
    (h : Select.AllDifferent (q.items id))
    : Select.AllDifferent ((q.afterAll calls).items id) := by
  induction calls generalizing q with
  | nil => exact h
  | cons call calls ih => exact ih ((q.itemsStep_after call id).allDifferent h)

theorem getElem?_columns {lock : LockRequest} {compiled : CompiledSelect}
    (h : q.render lock = .ok compiled) (i : Nat)
    : compiled.columns[i]? = ((q.items .root)[i]?).map fun item => ⟨i + 1, item⟩ := by
  simp only [render, Compile.bind_eq_ok_iff] at h
  obtain ⟨_, _, s, hs, h⟩ := h
  cases h
  rw [items_eq (select_eq_ok_iff.mp hs)]
  simp [List.getElem?_map, List.getElem?_zipIdx, Option.map_map, Function.comp_def]

/-! ## Positions -/

def KeepsItem (q : Query) (id : ScopeId) (i : Nat) (item : SelectItem) : Prop :=
  ∀ calls, ∃ now, ((q.afterAll calls).items id)[i]? = some now ∧ item.Kept now
    ∧ (id = .root → ∀ lock compiled, (q.afterAll calls).render lock = .ok compiled →
        compiled.columns[i]? = some ⟨i + 1, now⟩)

theorem keepsItem_of_getElem? {i : Nat} (h : (q.items id)[i]? = some item)
    : q.KeepsItem id i item := by
  intro calls
  obtain ⟨now, hnow, hkept⟩ := q.keeps_afterAll calls id i item h
  refine ⟨now, hnow, hkept, ?_⟩
  rintro rfl lock compiled hrender
  rw [getElem?_columns hrender, hnow]
  rfl

/--
Selecting `item` takes `q` to `q'`, which has `found` for it at index `i`. That is the item itself,
or one with an equal expression that was there before, and it keeps its index from then on.
-/
structure Selected (q q' : Query) (id : ScopeId) (item : SelectItem) (i : Nat)
    (found : SelectItem) : Prop where
  getElem? : (q'.items id)[i]? = some found
  equals : found.expr.equals item.expr
  identifier : item.identifier → found.identifier
  origin : found = item ∨ ∃ old, (q.items id)[i]? = some old ∧ old.Kept found
  keepsItem : q'.KeepsItem id i found

theorem exists_selected (hs : q.select? id = some s) (hfinite : item.expr.isFinite)
    (hitems : q'.items id = (s.addItem item).2.items)
    : ∃ i found, (s.addItem item).1 = i + 1 ∧ q.Selected q' id item i found := by
  obtain ⟨i, found, hposition, hfound, hequals, hidentifier, horigin⟩ :=
    Select.exists_getElem?_addItem (s := s) hfinite
  rw [← hitems] at hfound
  rw [← items_eq hs] at horigin
  exact ⟨i, found, hposition, hfound, hequals, hidentifier, horigin, keepsItem_of_getElem? hfound⟩

/--
The positions of a run: the items of a scope are different, every item that is selected has a
position, counted from one, and positions are never given up.
-/
theorem positions_of_run (p : Profile) (calls : List QueryCall) (id : ScopeId)
    : let q := (new p).afterAll calls
      (∀ (i j : Nat) a b, i ≠ j → (q.items id)[i]? = some a → (q.items id)[j]? = some b →
        a.expr.equals b.expr = false)
      ∧ ((q.select? id).isSome →
        (∀ item : SelectItem, item.expr.isFinite → ∃ i found q', q.addItem id item = .ok (i + 1, q')
          ∧ q.Selected q' id item i found)
        ∧ ∀ order : OrderItem, order.expr.isFinite → ∃ i found q', q.addOrder id order true = .ok q'
          ∧ q.Selected q' id { expr := order.expr } i found) := by
  intro q
  refine ⟨?_, ?_⟩
  · intro i j a b hij ha hb
    have hnew : Select.AllDifferent ((new p).items id) := by
      rw [items_new]
      exact .nil
    exact (allDifferent_afterAll calls hnew).equals_eq_false hij ha hb
  · intro hscope
    obtain ⟨s, hs⟩ := Option.isSome_iff_exists.mp hscope
    refine ⟨?_, ?_⟩
    · intro item hfinite
      obtain ⟨i, found, hposition, hselected⟩ :=
        exists_selected hs hfinite (items_modifySelect_const hs _)
      refine ⟨i, found, _, ?_, hselected⟩
      rw [addItem_of_select? hs, hposition]
    · intro order hfinite
      obtain ⟨q', hq', hitems⟩ := addOrder_of_select? hs order
      obtain ⟨i, found, _, hselected⟩ := exists_selected hs hfinite hitems
      exact ⟨i, found, q', hq', hselected⟩

-- The two zeros are one item, which keeps the label that it has. An order by it adds nothing.
theorem positions_of_run_zeros
    : let zero : Expr := .literal (.float ⟨0⟩)
      let minusZero : Expr := .literal (.float ⟨0x8000000000000000⟩)
      let one : Expr := .literal (.int 1)
      let q := (new Vendor.generic.profile).afterAll [.fromTable .root { name := "T" },
        .addItem .root { expr := minusZero, label := some "zero" }, .addItem .root { expr := one }]
      one.equals minusZero = false ∧ zero.isFinite ∧ (q.select? .root).isSome
        ∧ (∃ q' compiled now, q.addItem .root { expr := zero, identifier := true } = .ok (1, q')
          ∧ q'.render .unlocked = .ok compiled ∧ compiled.columns[0]? = some ⟨1, now⟩
          ∧ now.expr = minusZero ∧ now.label = some "zero" ∧ now.identifier)
        ∧ ∃ q', q.addOrder .root { expr := zero } true = .ok q'
          ∧ q.Selected q' .root { expr := zero } 0 { expr := minusZero, label := some "zero" } := by
  intro zero minusZero one q
  have hfinite : zero.isFinite := by decide +kernel
  have hscope : (q.select? .root).isSome := by decide +kernel
  obtain ⟨hdiffer, hselect⟩ := positions_of_run Vendor.generic.profile
    [.fromTable .root { name := "T" }, .addItem .root { expr := minusZero, label := some "zero" },
      .addItem .root { expr := one }] .root
  obtain ⟨hitem, horder⟩ := hselect hscope
  have hsql : ((q.after (.addItem .root { expr := zero, identifier := true })).render
      .unlocked).toOption.map (·.sql) = some "SELECT -0.0 AS zero, 1 FROM T t0" := by decide +kernel
  refine ⟨hdiffer 1 0 _ _ (by decide) rfl rfl, hfinite, hscope, ?_, ?_⟩
  · obtain ⟨i, found, q', hq', hselected⟩ := hitem { expr := zero, identifier := true } hfinite
    cases hq'
    cases hselected.getElem?
    obtain ⟨now, _, hkept, hcolumns⟩ := hselected.keepsItem []
    obtain ⟨compiled, hrender, _⟩ := Compile.exists_of_toOption hsql
    exact ⟨_, compiled, now, rfl, hrender, hcolumns rfl .unlocked compiled hrender, hkept.expr,
      hkept.label, hkept.identifier rfl⟩
  · obtain ⟨i, found, q', hq', hselected⟩ := horder { expr := zero } hfinite
    cases hq'
    obtain _ | _ | i := i
    · cases hselected.getElem?
      exact ⟨_, rfl, hselected⟩
    · cases hselected.getElem?
      exact absurd hselected.equals (by decide +kernel)
    · cases hselected.getElem?

end Query
end SqlDialect
