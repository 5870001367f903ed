import Mathlib.Data.Finset.Card
import SqlDialect.Profile.Default
import SqlDialect.Proofs.Query.Rows

/-!
This module contains the statement that counts the rows of a select, and the number that it
computes. A select that is nested in the statement is counted as it is. A count in place of the
items of the select is one of the rows of its tables, and those of the select may be fewer.
-/

namespace SqlDialect

open Compile (Agree)

/-! ## Counts -/

inductive Counted (α : Type) where
  | rows
  | distinct (columns : List α) (separator : String)

def Rendered.listed (separator : String) (rs : List Rendered) : Rendered :=
  ⟨(" " ++ separator ++ " ").intercalate (rs.map (·.sql)), rs.flatMap (·.params)⟩

section Numbers

variable {ρ ν : Type} [DecidableEq ν] (db : Database ρ ν)

/--
The number that is counted in a group of rows. The list of columns is one expression for the
database, and its different values are counted.
-/
def Counted.number : Counted Rendered → List ρ → Nat
  | .rows, group => group.length
  | .distinct columns separator, group =>
    (group.filterMap (db.value (.listed separator columns))).dedup.length

inductive CountStatement where
  | direct (counted : Counted Rendered) (body : SelectBody)
  | nested (select : SelectStatement)

def CountStatement.numbers : CountStatement → List Nat
  | .direct counted body => (body.keptGroups db (body.matched db)).map (counted.number db)
  | .nested select => [(select.rows db).length]

end Numbers

namespace Counted

def fragment : Counted Rendered → Fragment
  | .rows => .ofTokens [.raw "COUNT(*)"]
  | .distinct columns separator =>
    let list := Rendered.listed separator columns
    ⟨[.raw s!"COUNT(DISTINCT {list.sql})"], list.params⟩

def sql (ctx : RenderContext) : Counted Expr → Compile (Counted Rendered)
  | .rows => return .rows
  | .distinct columns separator => return .distinct (← columns.mapM (·.sql ctx)) separator

end Counted

def CountStatement.render (p : Profile) : CountStatement → Rendered
  | .direct counted body =>
    (.ofTokens [.keyword .select, .space] ++ counted.fragment ++ .ofTokens [.space]
      ++ body.fragment none : Fragment).render p
  | .nested select =>
    let inner := select.render p
    let name := if p.requirements.aliasForSubselect then " s" else ""
    { inner with sql := s!"SELECT COUNT(*) FROM ({inner.sql}){name}" }

def Fragment.WritesCount (p : Profile) (f : Fragment) (counted : Counted Rendered) : Prop :=
  f.render p = counted.fragment.render p

namespace Query

def counted? (q : Query) (s : Select) : Option (Counted Expr) :=
  if !s.groupBy.isEmpty || !s.range.isAll then
    none
  else if q.profile.requirements.wildcardForCount then
    some .rows
  else
    match q.identifiers s, q.profile.clauses.distinctCountColumnSeparator with
    | [], _ => some .rows
    | [e], separator => some (.distinct [e] (separator.getD ""))
    | _, none => none
    | es, some separator => some (.distinct es separator)

def countStatement (q : Query) : Compile CountStatement := do
  let s ← q.select .root
  match ← (q.counted? s).mapM (·.sql q.context) with
  | some counted => return .direct counted (← q.selectBody false)
  | none =>
    q.profile.require .subselect
    return .nested (← q.selectStatement)

/-! ## The text of the count of a query -/

theorem agree_countRows (q : Query)
    : Agree (Fragment.WritesCount q.profile) (countRows.fragment q.context)
        (Counted.rows.sql q.context) := by
  refine .ok ?_
  rfl

theorem agree_countDistinct (q : Query) (e : Expr) (separator : String)
    : Agree (Fragment.WritesCount q.profile) ((Expr.aggregate .count e true).fragment q.context)
        ((Counted.distinct [e] separator).sql q.context) := by
  unfold Counted.sql
  simp only [List.mapM_cons, List.mapM_nil, Expr.fragment, bind_assoc, pure_bind]
  refine (e.agree_render q.context).map fun f r (hf : f.render q.profile = r) => ?_
  unfold Fragment.WritesCount Counted.fragment
  rw [Fragment.render_append, Fragment.render_parens, Fragment.render_append, hf,
    Fragment.render_raw]
  refine congrArg₂ Rendered.mk ?_ (List.append_nil r.params).symm
  change "COUNT" ++ ("(" ++ ("DISTINCT " ++ r.sql) ++ ")") = "COUNT(DISTINCT " ++ r.sql ++ ")"
  apply String.toList_injective
  simp

theorem agree_directCount? (q : Query) (s : Select)
    : Agree
        (fun f counted => Option.Rel (Fragment.WritesCount q.profile) f counted
          ∧ (counted.isSome = true → s.range.isAll = true))
        (q.directCount? s) ((q.counted? s).mapM (·.sql q.context)) := by
  unfold directCount? counted?
  by_cases hwhole : (!s.groupBy.isEmpty || !s.range.isAll) = true
  · simp only [hwhole, if_true]
    exact .ok ⟨.none, fun h => by cases h⟩
  · obtain ⟨_, hall⟩ : s.groupBy = [] ∧ s.range.isAll = true := by simpa using hwhole
    simp only [hwhole]
    cases q.profile.requirements.wildcardForCount with
    | true => exact (agree_countRows q).map fun f counted h => ⟨.some h, fun _ => hall⟩
    | false =>
      simp only [Bool.false_eq_true, if_false]
      cases q.identifiers s with
      | nil => exact (agree_countRows q).map fun f counted h => ⟨.some h, fun _ => hall⟩
      | cons e es =>
        cases es with
        | nil =>
          exact (agree_countDistinct q e _).map fun f counted h => ⟨.some h, fun _ => hall⟩
        | cons e' es =>
          cases q.profile.clauses.distinctCountColumnSeparator with
          | none => exact .ok ⟨.none, fun h => by cases h⟩
          | some separator =>
            simp only [Option.mapM_some, Counted.sql, bind_assoc, map_eq_pure_bind, pure_bind]
            exact .bind_same fun columns => .ok ⟨.some rfl, fun _ => hall⟩

theorem agree_renderCount (q : Query)
    : Agree (fun c count => c.rendered = count.render q.profile) q.renderCount
        q.countStatement := by
  rw [renderCount_eq]
  unfold countStatement
  cases hs : q.select .root with
  | error e => exact .error e
  | ok s =>
    simp only [Compile.ok_bind]
    refine (agree_directCount? q s).bind fun f counted ⟨hf, hall⟩ => ?_
    cases hf with
    | some hf =>
      have hbody := agree_selectBody hs false (fun h => by cases h)
      refine hbody.map fun g body hg => ?_
      have hrange : RowCondition.ofRange? q.profile.paging s.range (q.shape .root s) = none := by
        rw [← Option.map_eq_none_iff, RowCondition.text_ofRange?]
        exact condition?_of_isAll (hall rfl) _ _
      rw [hrange] at hg
      exact Fragment.render_congr_append (Fragment.render_congr_append
        (Fragment.render_congr_append rfl hf) rfl) hg
    | none =>
      refine .bind_same fun _ => (agree_selectStatement q).map fun r st hr => ?_
      rw [hr]
      rfl

end Query

/-! ## Rows of the tables and of the select -/

section

variable {ρ ν : Type} {db : Database ρ ν}

/--
A list of expressions has a value where all of them do, and that value is computed from theirs. This
is so for tuples, and for values that are put together to one.
-/
structure Database.Combines (db : Database ρ ν) (separator : String) (rs : List Rendered) : Prop
    where
  isSome : ∀ {a}, (∀ r ∈ rs, (db.value r a).isSome) → (db.value (.listed separator rs) a).isSome
  congr : ∀ {a b}, db.values rs a = db.values rs b →
    db.value (.listed separator rs) a = db.value (.listed separator rs) b

theorem Database.combines_singleton (db : Database ρ ν) (separator : String) (r : Rendered)
    : db.Combines separator [r] := by
  have hlisted : Rendered.listed separator [r] = r := by simp [Rendered.listed]
  constructor
  · intro a h
    rw [hlisted]
    exact h r (List.mem_singleton_self r)
  · intro a b h
    rw [hlisted]
    exact Database.values_eq_iff.mp h r (List.mem_singleton_self r)

namespace SelectStatement

variable (s : SelectStatement) (db)

def CountedBy : Counted Rendered → Prop
  | .rows => s.distinct = true → ((s.matched db).map (s.row db)).Nodup
  | .distinct columns separator =>
    ∀ a ∈ s.matched db, ∀ b ∈ s.matched db,
      db.value (.listed separator columns) a = db.value (.listed separator columns) b →
        s.row db a = s.row db b

end SelectStatement

variable [DecidableEq ν] (db)

theorem length_dedup_eq_iff {α : Type} [DecidableEq α] (as : List α)
    : as.length = as.dedup.length ↔ as.Nodup := by
  constructor
  · intro h
    rw [← List.dedup_eq_self]
    exact (List.dedup_sublist as).eq_of_length h.symm
  · intro h
    rw [h.dedup]

theorem length_dedup_map_eq_iff {α β : Type} [DecidableEq α] [DecidableEq β] (f : α → β)
    (as : List α)
    : (as.map f).dedup.length = as.dedup.length ↔ ∀ a ∈ as, ∀ b ∈ as, f a = f b → a = b := by
  have himage : (as.map f).toFinset = as.toFinset.image f := by
    ext b
    simp
  rw [← List.card_toFinset, ← List.card_toFinset, himage, Finset.card_image_iff]
  simp [Set.InjOn]

theorem length_dedup_filterMap {α β : Type} [DecidableEq β] {f : α → Option β} {as : List α}
    (h : ∀ a ∈ as, (f a).isSome) : (as.filterMap f).dedup.length = (as.map f).dedup.length := by
  have hmap : (as.filterMap f).map some = as.map f := by
    rw [List.map_filterMap, List.filterMap_eq_map_iff_forall_eq_some]
    intro a ha
    obtain ⟨b, hb⟩ := Option.isSome_iff_exists.mp (h a ha)
    rw [hb]
    rfl
  rw [← hmap, List.dedup_map_of_injective (Option.some_injective β), List.length_map]

namespace SelectStatement

variable {s : SelectStatement}

theorem number_rows_eq_iff (h : s.range = {}) (hgrouped : s.isGrouped db = false)
    : Counted.number db .rows (s.matched db) = (s.rows db).length ↔ s.CountedBy db .rows := by
  rw [length_rows_of_not_isGrouped db h hgrouped]
  unfold Counted.number CountedBy
  cases s.distinct with
  | true =>
    have hiff := length_dedup_eq_iff ((s.matched db).map (s.row db))
    rw [List.length_map] at hiff
    simpa using hiff
  | false => simp

variable {db} in
theorem number_distinct_eq_iff (h : s.range = {}) (hgrouped : s.isGrouped db = false)
    (hdistinct : s.distinct = true) {keys : List Rendered} {separator : String}
    (hkeys : keys ⊆ s.items.map (·.value))
    (hpresent : ∀ a ∈ s.matched db, ∀ r ∈ keys, (db.value r a).isSome)
    (hcombines : db.Combines separator keys)
    : Counted.number db (.distinct keys separator) (s.matched db) = (s.rows db).length
        ↔
      s.CountedBy db (.distinct keys separator) := by
  have hvalues := length_dedup_filterMap fun a ha => hcombines.isSome (hpresent a ha)
  -- The identifiers are among the items, so their values can be read off a selected row.
  have hfactors : Function.FactorsThrough (db.value (.listed separator keys)) (s.row db) := by
    intro a b hab
    refine hcombines.congr (Database.values_eq_iff.mpr fun r hr => ?_)
    exact Database.values_eq_iff.mp hab r (hkeys hr)
  obtain ⟨f, hf⟩ := (Function.factorsThrough_iff _).mp hfactors
  rw [length_rows_of_not_isGrouped db h hgrouped, if_pos hdistinct]
  unfold Counted.number CountedBy
  simp only [hvalues]
  rw [hf, ← List.map_map, length_dedup_map_eq_iff]
  simp

end SelectStatement

end

/-! ## The statements of a query and its count -/

namespace Query

variable {q : Query} {s : Select}

theorem of_counted? {counted : Counted Expr} (h : q.counted? s = some counted)
    : s.groupBy = [] ∧ s.range.isAll = true
        ∧ ∀ es separator, counted = .distinct es separator →
            q.isDistinct .root = true ∧ es = (s.items.filter (·.identifier)).map (·.expr)
              ∧ (es.length = 1
                  ∨ q.profile.clauses.distinctCountColumnSeparator = some separator) := by
  unfold counted? at h
  split at h
  · cases h
  · next hwhole =>
    obtain ⟨hgroupBy, hall⟩ : s.groupBy = [] ∧ s.range.isAll = true := by simpa using hwhole
    refine ⟨hgroupBy, hall, ?_⟩
    rintro es separator rfl
    have hidentifiers : q.identifiers s = es ∧ es ≠ []
        ∧ (es.length = 1 ∨ q.profile.clauses.distinctCountColumnSeparator = some separator) := by
      split at h
      · cases h
      · split at h
        · cases h
        · next hes =>
          cases h
          exact ⟨hes, by simp, .inl rfl⟩
        · cases h
        · next hseparator hes _ =>
          cases h
          exact ⟨rfl, hes, .inr hseparator⟩
    obtain ⟨rfl, hne, hseparator⟩ := hidentifiers
    cases hdistinct : q.isDistinct .root with
    | true => exact ⟨rfl, by simp [identifiers, hdistinct], hseparator⟩
    | false => simp [identifiers, hdistinct] at hne

theorem of_countStatement {count : CountStatement} (hs : q.select .root = .ok s)
    (h : q.countStatement = .ok count)
    : (∃ inner, q.selectStatement = .ok inner ∧ count = .nested inner)
        ∨ ∃ counted written body, q.counted? s = some counted
            ∧ counted.sql q.context = .ok written ∧ q.selectBody false = .ok body
            ∧ count = .direct written body := by
  unfold countStatement at h
  simp only [hs, Compile.ok_bind] at h
  cases hcounted : q.counted? s with
  | none =>
    simp only [hcounted, Option.mapM_none, Compile.pure_eq_ok, Compile.ok_bind] at h
    obtain ⟨_, _, h⟩ := Compile.bind_eq_ok_iff.mp h
    obtain ⟨inner, hinner, h⟩ := Compile.bind_eq_ok_iff.mp h
    cases h
    exact .inl ⟨inner, hinner, rfl⟩
  | some counted =>
    simp only [hcounted, Option.mapM_some] at h
    obtain ⟨x, hx, h⟩ := Compile.bind_eq_ok_iff.mp h
    obtain ⟨written, hwritten, rfl⟩ := Compile.map_eq_ok_iff.mp hx
    obtain ⟨body, hbody, h⟩ := Compile.bind_eq_ok_iff.mp h
    cases h
    exact .inr ⟨counted, written, body, rfl, hwritten, hbody, rfl⟩

section

variable {ρ ν : Type} [DecidableEq ν] {db : Database ρ ν} {st : SelectStatement}
  {counted : Counted Expr} {written : Counted Rendered} {body : SelectBody}

theorem numbers_direct (hs : q.select .root = .ok s) (hst : q.selectStatement = .ok st)
    (hbody : q.selectBody false = .ok body)
    : (CountStatement.direct written body).numbers db
        =
      (st.keptGroups db (st.matched db)).map (written.number db) := by
  obtain ⟨_, hstbody, _⟩ := of_selectStatement hs hst
  obtain ⟨hunordered, _⟩ := of_selectBody hs hstbody
  rw [hbody] at hunordered
  cases hunordered
  rfl

theorem ungrouped_of_counted? (hs : q.select .root = .ok s) (hst : q.selectStatement = .ok st)
    (hcounted : q.counted? s = some counted) : st.range = {} ∧ st.groupBy = [] := by
  obtain ⟨_, hstbody, _, hrange⟩ := of_selectStatement hs hst
  obtain ⟨_, hgroupBy, _⟩ := of_selectBody hs hstbody
  obtain ⟨hnil, hall, _⟩ := of_counted? hcounted
  rw [hnil, List.isEmpty_nil, List.isEmpty_iff] at hgroupBy
  refine ⟨?_, hgroupBy⟩
  rw [hrange, RangeReading.ofRange_of_isAll hall]

theorem number_eq_length_rows_iff (hs : q.select .root = .ok s)
    (hst : q.selectStatement = .ok st) (hcounted : q.counted? s = some counted)
    (hwritten : counted.sql q.context = .ok written) (hgrouped : st.isGrouped db = false)
    {keys : List Rendered} (hkeys : s.identifierTexts q.context = .ok keys)
    (hsubset : keys ⊆ st.items.map (·.value))
    (hpresent : ∀ a ∈ st.matched db, ∀ r ∈ keys, (db.value r a).isSome)
    (hcombines : ∀ separator ∈ q.profile.clauses.distinctCountColumnSeparator,
      db.Combines separator keys)
    : written.number db (st.matched db) = (st.rows db).length ↔ st.CountedBy db written := by
  obtain ⟨hrange, _⟩ := ungrouped_of_counted? hs hst hcounted
  obtain ⟨_, _, hdistinct, _⟩ := of_selectStatement hs hst
  cases counted with
  | rows =>
    cases hwritten
    exact SelectStatement.number_rows_eq_iff db hrange hgrouped
  | distinct es separator =>
    obtain ⟨hisDistinct, rfl, hseparator⟩ := (of_counted? hcounted).2.2 es separator rfl
    rw [Select.identifierTexts] at hkeys
    rw [Counted.sql, hkeys] at hwritten
    cases hwritten
    rw [hisDistinct] at hdistinct
    have hlist : db.Combines separator keys := by
      rcases hseparator with hone | hseparator
      · obtain ⟨r, rfl⟩ := List.length_eq_one_iff.mp
          ((Compile.mapM_eq_ok_iff.mp hkeys).length_eq.symm.trans hone)
        exact db.combines_singleton separator r
      · exact hcombines separator hseparator
    exact SelectStatement.number_distinct_eq_iff hrange hgrouped hdistinct hsubset hpresent hlist

end

/-! ## Rows that are left to the caller -/

theorem skipRows_eq_zero_iff (paging : Paging) (r : RowRange) {shape : SelectShape}
    (hnested : shape.nested = false)
    : paging.skipRows r shape = 0
        ↔
      (paging = .byCaller ∨ paging = .fetchFirst ∨ paging = .top → r.start = 0) := by
  cases paging <;> simp [Paging.skipRows, hnested]

theorem maxRows?_eq_none_iff (paging : Paging) (r : RowRange)
    : paging.maxRows? r = none ↔ (paging = .byCaller → r.stop = none) := by
  cases paging <;> simp [Paging.maxRows?, RowRange.count?, RowRange.upper?]

theorem agree_render_unlocked (hs : q.select .root = .ok s)
    : Agree (fun c st => c.rendered = st.render q.profile) (q.render .unlocked)
        q.selectStatement := by
  unfold render
  simp only [hs, Compile.ok_bind]
  exact (agree_selectStatement q).map_left fun r st hr => hr

theorem of_render_unlocked {c : CompiledSelect} (hs : q.select .root = .ok s)
    (h : q.render .unlocked = .ok c)
    : c.skipRows = q.profile.paging.skipRows s.range (q.shape .root s)
        ∧ c.maxRows = q.profile.paging.maxRows? s.range := by
  unfold render at h
  simp only [hs, Compile.ok_bind] at h
  obtain ⟨r, _, h⟩ := Compile.bind_eq_ok_iff.mp h
  cases h
  exact ⟨rfl, rfl⟩

/--
The number that counts the rows of a query, compared with the rows that the query returns. A count
of the query as a nested select is right, up to rows that are left to the caller. A count in place
of the items is that of the rows of the tables, or of the identifiers in them, also for an
aggregate, which returns one row.
-/
theorem numbers_of_renderCount {c c' : CompiledSelect} (hs : q.select .root = .ok s)
    (hrender : q.render .unlocked = .ok c) (hcount : q.renderCount = .ok c')
    : ∃ st count keys, q.selectStatement = .ok st ∧ c.rendered = st.render q.profile
        ∧ q.countStatement = .ok count ∧ c'.rendered = count.render q.profile
        ∧ s.identifierTexts q.context = .ok keys
        ∧ (s.groupBy ≠ [] ∨ s.range.isAll = false → count = .nested st)
        ∧ (c.skipRows = 0
            ↔
          (q.profile.paging = .byCaller ∨ q.profile.paging = .fetchFirst ∨ q.profile.paging = .top →
            s.range.start = 0))
        ∧ (c.maxRows = none ↔ (q.profile.paging = .byCaller → s.range.stop = none))
        ∧ ∀ {ρ ν : Type} [DecidableEq ν] (db : Database ρ ν),
            (∀ a ∈ st.matched db, ∀ r ∈ keys, (db.value r a).isSome) →
            (∀ separator ∈ q.profile.clauses.distinctCountColumnSeparator,
              db.Combines separator keys) →
            match count with
            | .nested inner => inner = st ∧ count.numbers db = [(st.rows db).length]
            | .direct counted _ =>
              let n := counted.number db (st.matched db)
              if st.isGrouped db then
                (st.rows db).length ≤ 1 ∧ count.numbers db = (st.rows db).map fun _ => n
              else
                count.numbers db = [n]
                  ∧ (n = (st.rows db).length ↔ st.CountedBy db counted) := by
  have hselect := agree_render_unlocked hs
  have hnumber := agree_renderCount q
  obtain ⟨st, hst⟩ := hselect.exists_ok_iff.mp ⟨c, hrender⟩
  obtain ⟨count, hcounts⟩ := hnumber.exists_ok_iff.mp ⟨c', hcount⟩
  obtain ⟨⟨numbered, hitems⟩, _⟩ := of_selectStatement hs hst
  obtain ⟨keys, hkeys, hsubset⟩ := exists_identifierTexts hitems
  obtain ⟨hskip, hmax⟩ := of_render_unlocked hs hrender
  refine ⟨st, count, keys, hst, hselect.of_eq_ok hrender hst, hcounts,
    hnumber.of_eq_ok hcount hcounts, hkeys, ?_, ?_, ?_, ?_⟩
  · intro hwhole
    obtain ⟨inner, hinner, rfl⟩ | ⟨counted, _, _, hcounted, _⟩ := of_countStatement hs hcounts
    · rw [hst] at hinner
      cases hinner
      rfl
    · obtain ⟨hgroupBy, hall, _⟩ := of_counted? hcounted
      simp [hgroupBy, hall] at hwhole
  · rw [hskip]
    exact skipRows_eq_zero_iff _ _ rfl
  · rw [hmax]
    exact maxRows?_eq_none_iff _ _
  · intro ρ ν _ db hpresent hcombines
    obtain ⟨inner, hinner, rfl⟩ | ⟨counted, written, body, hcounted, hwritten, hbody, rfl⟩ :=
      of_countStatement hs hcounts
    · rw [hst] at hinner
      cases hinner
      exact ⟨rfl, rfl⟩
    · obtain ⟨hrange, hgroupBy⟩ := ungrouped_of_counted? hs hst hcounted
      simp only [numbers_direct hs hst hbody]
      split
      · next hgrouped =>
        refine ⟨SelectStatement.length_rows_le_one db hrange hgrouped hgroupBy, ?_⟩
        exact SelectStatement.map_keptGroups db hrange hgrouped hgroupBy _
      · next hplain =>
        rw [Bool.not_eq_true] at hplain
        rw [SelectStatement.keptGroups_of_not_isGrouped db hplain]
        refine ⟨rfl, ?_⟩
        exact number_eq_length_rows_iff hs hst hcounted hwritten hplain hkeys hsubset hpresent
          hcombines

-- Two of three columns tell rows apart, and one row is there twice.
theorem numbers_of_renderCount_columns
    : let build : Compile Query := do
        let q := Query.new { Vendor.mySql.profile with joinSyntax := .traditional }
        let (t, q) ← q.fromTable .root { name := "T" }
        let (_, q) ← q.addItem .root { expr := .column t "A", identifier := true }
        let (_, q) ← q.addItem .root { expr := .column t "B", identifier := true }
        let (_, q) ← q.addItem .root { expr := .column t "C" }
        q.setDistinct .root true
      let db : Database (Nat × Nat × Nat) (List Nat) :=
        { rows := fun _ => [(1, 1, 7), (1, 2, 8), (1, 1, 7)]
          holds := fun _ _ => true
          value := fun r (a, b, c) =>
            if r.sql = "t0.A , t0.B" then
              some [a, b]
            else
              some [if r.sql = "t0.A" then a else if r.sql = "t0.B" then b else c]
          aggregates := fun _ => false
          groupHolds := fun _ _ => true
          groupValue := fun _ _ => none
          arrange := fun _ rows => rows
          arrange_perm := fun _ rows => .refl rows }
      ∃ q s c c' st count, build = .ok q ∧ q.select .root = .ok s
        ∧ q.render .unlocked = .ok c ∧ q.renderCount = .ok c'
        ∧ c'.sql = "SELECT COUNT(DISTINCT t0.A , t0.B) FROM T t0"
        ∧ q.selectStatement = .ok st ∧ q.countStatement = .ok count
        ∧ count.numbers db = [2] ∧ (st.rows db).length = 2 := by
  intro build db
  obtain ⟨q, s, c, c', st, counted, body, hbuild, hs, hc, hc', hsql, hst, hcount, hkeys, hseparator,
      hplain, hcounted, hnumber⟩
      : ∃ q s c c' st counted body, build = .ok q ∧ q.select .root = .ok s
          ∧ q.render .unlocked = .ok c ∧ q.renderCount = .ok c'
          ∧ c'.sql = "SELECT COUNT(DISTINCT t0.A , t0.B) FROM T t0"
          ∧ q.selectStatement = .ok st ∧ q.countStatement = .ok (.direct counted body)
          ∧ s.identifierTexts q.context = .ok [⟨"t0.A", []⟩, ⟨"t0.B", []⟩]
          ∧ q.profile.clauses.distinctCountColumnSeparator = some ","
          ∧ st.isGrouped db = false
          ∧ st.CountedBy db counted ∧ counted.number db (st.matched db) = 2 := by
    refine ⟨_, _, _, _, _, _, _, rfl, rfl, rfl, rfl, rfl, rfl, rfl, rfl, rfl, ?_, ?_, ?_⟩
    · decide +kernel
    · dsimp only [SelectStatement.CountedBy]
      decide +kernel
    · decide +kernel
  obtain ⟨st', count', keys, hst', _, hcount', _, hkeys', _, _, _, h⟩ :=
    numbers_of_renderCount hs hc hc'
  rw [hst] at hst'
  rw [hcount] at hcount'
  rw [hkeys] at hkeys'
  cases hst'
  cases hcount'
  cases hkeys'
  have hpresent (r : Rendered) (a : Nat × Nat × Nat) : (db.value r a).isSome := by
    dsimp only [db]
    split <;> rfl
  have hcombines : db.Combines "," [⟨"t0.A", []⟩, ⟨"t0.B", []⟩] := by
    refine ⟨fun _ => hpresent _ _, fun {a b} hab => ?_⟩
    simpa [Database.values, Rendered.listed, db] using hab
  have hlists : ∀ separator ∈ q.profile.clauses.distinctCountColumnSeparator,
      db.Combines separator [⟨"t0.A", []⟩, ⟨"t0.B", []⟩] := by
    rw [hseparator]
    rintro _ ⟨⟩
    exact hcombines
  replace h := h db (fun a _ r _ => hpresent r a) hlists
  simp only [hplain, Bool.false_eq_true, if_false, hnumber] at h
  exact ⟨q, s, c, c', st, _, hbuild, hs, hc, hc', hsql, hst, hcount, h.1, (h.2.mpr hcounted).symm⟩

-- The largest value is one row, and the count is that of the rows it is taken from.
theorem numbers_of_renderCount_aggregate
    : let build : Compile Query := do
        let q := Query.new { Vendor.generic.profile with joinSyntax := .traditional }
        let (t, q) ← q.fromTable .root { name := "T" }
        let (_, q) ← q.addItem .root { expr := .aggregate .max (.column t "A") false }
        return q
      let db : Database Nat Nat :=
        { rows := fun _ => [4, 9]
          holds := fun _ _ => true
          value := fun _ a => some a
          aggregates := fun r => r.sql = "MAX(t0.A)"
          groupHolds := fun _ _ => true
          groupValue := fun _ group => group.max?
          arrange := fun _ rows => rows
          arrange_perm := fun _ rows => .refl rows }
      ∃ q s c c' st count, build = .ok q ∧ q.select .root = .ok s
        ∧ q.render .unlocked = .ok c ∧ c.sql = "SELECT MAX(t0.A) FROM T t0"
        ∧ q.renderCount = .ok c' ∧ c'.sql = "SELECT COUNT(*) FROM T t0"
        ∧ q.selectStatement = .ok st ∧ s.identifierTexts q.context = .ok []
        ∧ q.countStatement = .ok count ∧ count.numbers db = [2]
        ∧ takeAtMost c.maxRows ((st.rows db).drop c.skipRows) = [[some 9]] := by
  refine ⟨_, _, _, _, _, _, rfl, rfl, rfl, rfl, rfl, rfl, rfl, rfl, rfl, ?_, ?_⟩
  · decide +kernel
  · decide +kernel

end Query

end SqlDialect
