import SqlDialect.Profile.Default
import SqlDialect.Proofs.Expr.Length
import SqlDialect.Proofs.Query.Branches
import SqlDialect.Proofs.Query.Locking

/-!
This module contains what becomes of the range of a select when its rows are deleted or updated. A
range can only add to the text of a statement, so it has become part of the statement if that is
longer than without the range. It has not if the statement has no condition, if the select keeps its
alias and has its range in a clause, or if the dialect leaves the range to the caller.
-/

namespace SqlDialect

open Compile (Agree)

/-! ## Ranges -/

namespace Paging

variable {paging : Paging} {r : RowRange} {shape : SelectShape}

def expresses (paging : Paging) (r : RowRange) (nested : Bool) : Bool :=
  match paging with
  | .byCaller => false
  | .limitOffset | .limitStartCount | .rowNum => true
  | .fetchFirst | .top => r.stop.isSome && !nested

theorem clause_of_isAll (h : r.isAll) : paging.clause r shape = [] := by
  have hrange : r = {} := by
    cases r
    simpa [RowRange.isAll] using h
  subst hrange
  cases paging <;> rfl

theorem wraps_of_isAll (h : r.isAll) : paging.wraps r shape = false := by
  cases paging <;> simp [wraps, h]

theorem wrap_of_not_wraps (h : paging.wraps r shape = false) (inner : String)
    : paging.wrap inner r shape = inner := by
  rw [wrap, h, if_neg (by simp)]

theorem parts_of_expresses (hr : r.isAll = false) (h : paging.expresses r shape.nested = true)
    : (∃ ts, paging.clause r shape = .space :: ts)
        ∨ (∃ c, paging.condition? r shape = some c)
        ∨ paging.wraps r shape = true := by
  cases paging with
  | byCaller => cases h
  | limitOffset =>
    left
    rcases r with ⟨start, _ | stop⟩
    · have hstart : 0 < start := by
        simp [RowRange.isAll] at hr
        omega
      simp only [clause, hstart, if_true]
      exact ⟨_, rfl⟩
    · exact ⟨_, rfl⟩
  | limitStartCount =>
    left
    simp only [clause, hr]
    exact ⟨_, rfl⟩
  | fetchFirst | top =>
    left
    obtain ⟨hstop, hnested⟩ : r.stop.isSome = true ∧ shape.nested = false := by
      simpa [expresses] using h
    obtain ⟨stop, hstop⟩ := Option.isSome_iff_exists.mp hstop
    simp only [clause, RowRange.upper?, hstop, hnested]
    exact ⟨_, rfl⟩
  | rowNum =>
    right
    cases hdirect : isDirect r shape with
    | false =>
      right
      simp [wraps, hr, hdirect]
    | true =>
      left
      rcases r with ⟨start, _ | stop⟩
      · have hstart : start = 0 := by
          simp [isDirect] at hdirect
          omega
        simp [RowRange.isAll, hstart] at hr
      · simp only [condition?, hdirect, if_true]
        exact ⟨_, rfl⟩

theorem parts_of_not_expresses (h : paging.expresses r shape.nested = false)
    : paging.clause r shape = [] ∧ paging.condition? r shape = none
        ∧ paging.wraps r shape = false := by
  cases paging with
  | byCaller => exact ⟨rfl, rfl, rfl⟩
  | limitOffset | limitStartCount | rowNum => cases h
  | fetchFirst | top =>
    refine ⟨?_, rfl, rfl⟩
    rcases r with ⟨start, _ | stop⟩
    · rfl
    · have hnested : shape.nested = true := by simpa [expresses] using h
      simp only [clause, hnested]
      rfl

theorem exists_length_wrap (paging : Paging) (r : RowRange) (shape : SelectShape)
    : ∃ n, (∀ inner, (paging.wrap inner r shape).length = inner.length + n)
        ∧ (paging.wraps r shape = true → 0 < n) := by
  obtain ⟨before, after, hwrap⟩ := Query.wrap_eq_append paging r shape
  refine ⟨before.length + after.length, fun inner => ?_, fun hwraps => ?_⟩
  · rw [hwrap, String.length_append, String.length_append]
    omega
  · have hpos : 0 < (paging.wrap "" r shape).length := by
      unfold wrap
      rw [if_pos hwraps]
      split
      · have hopening : 0 < (toString "SELECT * FROM (").length := by decide
        simp only [String.length_append]
        omega
      · have hopening : 0 < (toString "SELECT * FROM (SELECT r.*, ROWNUM RNUM FROM (").length := by
          decide
        simp only [String.length_append]
        omega
    rw [hwrap, String.length_append, String.length_append] at hpos
    simpa using hpos

end Paging

/-! ## Selects -/

-- Parentheses can only be added.
theorem Rendered.Grows.parensIf {r s : Rendered} (h : r.Grows s) {c c' : Prop} [Decidable c]
    [Decidable c'] (hc : c → c')
    : (if c then r.parens else r).Grows (if c' then s.parens else s) := by
  have hparens : ∀ r : Rendered, r.parens.sql.length = r.sql.length + 2 := by
    intro r
    simp only [Rendered.parens, String.length_append]
    change 1 + r.sql.length + 1 = _
    omega
  unfold Rendered.Grows at h ⊢
  by_cases hneeded : c
  · rw [if_pos hneeded, if_pos (hc hneeded), hparens, hparens]
    omega
  · rw [if_neg hneeded]
    split
    · rw [hparens]
      omega
    · exact h

namespace Select

variable {s : Select} {ctx : RenderContext} {nested : ScopeId → Compile Rendered}

theorem grows_itemList
    (hnested : ∀ scope, Agree Rendered.Grows (ctx.subselect scope) (nested scope))
    {numbered numbered' : Bool} (h : numbered = true → numbered' = true)
    : Agree (Fragment.Grows ctx.profile) (s.itemList ctx numbered)
        (s.itemList { ctx with subselect := nested } numbered') := by
  have hlabel : ∀ item place, Fragment.Grows ctx.profile
      (.ofTokens (labelTokens item place numbered))
      (.ofTokens (labelTokens item place numbered')) := by
    intro item place
    unfold labelTokens
    cases item.label with
    | some label => exact .refl _
    | none =>
      cases numbered with
      | true =>
        rw [h rfl]
        exact .refl _
      | false => exact Nat.zero_le _
  unfold itemList
  refine (Agree.mapM fun x _ => ?_).map fun fs gs hfs => .separated hfs _
  exact (Expr.grows_fragment hnested x.1.expr).map fun f g hf => hf.append (hlabel x.1 x.2)

theorem grows_conditionList
    (hnested : ∀ scope, Agree Rendered.Grows (ctx.subselect scope) (nested scope))
    {others others' : Nat} (h : others ≤ others')
    : Agree (List.Forall₂ Rendered.Grows) (s.conditionList ctx others)
        (s.conditionList { ctx with subselect := nested } others') := by
  unfold conditionList
  refine .mapM fun e _ => ?_
  refine (Expr.grows_sql hnested e).map fun x y hxy => Rendered.Grows.parensIf hxy ?_
  rintro ⟨hlength, hor⟩
  exact ⟨by omega, hor⟩

theorem grows_groupByClause
    (hnested : ∀ scope, Agree Rendered.Grows (ctx.subselect scope) (nested scope))
    : Agree (Fragment.Grows ctx.profile) (s.groupByClause ctx)
        (s.groupByClause { ctx with subselect := nested }) := by
  unfold groupByClause
  refine .ite (.ok (.refl _)) ?_
  refine (Agree.mapM fun e _ => Expr.grows_fragment hnested e).map fun fs gs hfs => ?_
  exact .append (.refl _) (.separated hfs _)

theorem grows_havingClause
    (hnested : ∀ scope, Agree Rendered.Grows (ctx.subselect scope) (nested scope))
    : Agree (Fragment.Grows ctx.profile) (s.havingClause ctx)
        (s.havingClause { ctx with subselect := nested }) := by
  unfold havingClause
  refine .ite (.ok (.refl _)) ?_
  refine (Agree.mapM fun e _ => Expr.grows_fragment hnested e).map fun fs gs hfs => ?_
  exact .append (.refl _) (.separated hfs _)

theorem grows_orderByClause
    (hnested : ∀ scope, Agree Rendered.Grows (ctx.subselect scope) (nested scope))
    : Agree (Fragment.Grows ctx.profile) (s.orderByClause ctx)
        (s.orderByClause { ctx with subselect := nested }) := by
  unfold orderByClause
  refine (Agree.mapM fun item _ => ?_).map fun fs gs hfs => .append (.refl _) (.separated hfs _)
  exact (Expr.grows_fragment hnested item.expr).map fun f g hf => hf.append (.refl _)

end Select

/-! ## Queries with ranges -/

namespace Query

variable {q : Query} {id j : ScopeId} {r : RowRange} {s : Select}

def withRange (q : Query) (id : ScopeId) (r : RowRange) : Query :=
  q.modifySelect id fun s => { s with range := r }

def rangeAt (id : ScopeId) (r : RowRange) (j : ScopeId) (s : Select) : RowRange :=
  if j = id then r else s.range

theorem withRange_of_setRange {q' : Query} (h : q.setRange id r = .ok q')
    : q' = q.withRange id r := by
  unfold setRange edit at h
  obtain ⟨_, _, h⟩ := Compile.bind_eq_ok_iff.mp h
  cases h
  rfl

theorem select?_withRange (q : Query) (id j : ScopeId) (r : RowRange)
    : (q.withRange id r).select? j
        =
      (q.select? j).map fun s => { s with range := rangeAt id r j s } := by
  have hindex : id.index = j.index ↔ j = id := by
    cases id
    cases j
    simp [eq_comm]
  simp only [withRange, modifySelect, select?, List.getElem?_modify, hindex, rangeAt]
  cases q.selects[j.index]? <;> split <;> simp_all

@[simp]
theorem profile_withRange : (q.withRange id r).profile = q.profile := rfl

@[simp]
theorem isDistinct_withRange : (q.withRange id r).isDistinct j = q.isDistinct j := by
  simp only [isDistinct, select?_withRange]
  cases q.select? j <;> rfl

@[simp]
theorem shape_withRange (range : RowRange)
    : (q.withRange id r).shape j { s with range } = q.shape j s := by
  simp only [shape, isDistinct_withRange]
  rfl

/-! ### Sources -/

theorem source_withRange (hs : q.select? j = some s) (ctx : RenderContext) (hint : Option String)
    : (q.withRange id r).source j ctx hint = do
        let tables ← q.graph.fromClause j q.profile hint
        let implied := tables.conditions
          ++ (q.profile.paging.condition? (rangeAt id r j s) (q.shape j s)).toList
        let explicit ← s.conditionList ctx implied.length
        return {
          tables := tables.sql
          condition := Rendered.conjunction? (explicit ++ implied.map (⟨·, []⟩)) } := by
  simp only [source, select, select?_withRange, hs, Option.map_some, Compile.ok_bind,
    shape_withRange]
  rfl

def rangeConditions (q : Query) (id : ScopeId) (r : RowRange) (j : ScopeId) (s : Select) :
    List String :=
  if j = id then (q.profile.paging.condition? r (q.shape j s)).toList else []

theorem condition?_rangeAt (q : Query) (id : ScopeId) (r : RowRange) (j : ScopeId) (s : Select)
    : (q.profile.paging.condition? (rangeAt id r j s) (q.shape j s)).toList
        =
      (q.profile.paging.condition? (rangeAt id {} j s) (q.shape j s)).toList
        ++ q.rangeConditions id r j s := by
  unfold rangeAt rangeConditions
  split
  · rw [condition?_of_isAll (r := {}) rfl]
    rfl
  · rw [List.append_nil]

def furtherLength : List String → Nat
  | [] => 0
  | t :: ts => 5 + t.length + furtherLength ts

theorem furtherLength_append (ss ts : List String)
    : furtherLength (ss ++ ts) = furtherLength ss + furtherLength ts := by
  induction ss with
  | nil => simp [furtherLength]
  | cons s ss ih =>
    rw [List.cons_append, furtherLength, furtherLength, ih]
    omega

theorem length_le_furtherLength (ts : List String) : ts.length ≤ furtherLength ts := by
  induction ts with
  | nil => exact Nat.le_refl _
  | cons t ts ih =>
    rw [List.length_cons, furtherLength]
    omega

theorem furtherLength_le {ss ts : List String}
    (h : List.Forall₂ (fun s t => s.length ≤ t.length) ss ts)
    : furtherLength ss ≤ furtherLength ts := by
  induction h with
  | nil => exact Nat.le_refl _
  | cons head _ ih =>
    rw [furtherLength, furtherLength]
    omega

theorem length_whereClause_cons (t : String) (ts : List String)
    : (whereClause (t :: ts)).length = 7 + t.length + furtherLength ts := by
  have hlist : (" AND ".intercalate (t :: ts)).length = t.length + furtherLength ts := by
    induction ts generalizing t with
    | nil => simp [furtherLength]
    | cons u ts ih =>
      rw [String.intercalate_cons_cons, String.length_append, String.length_append, ih,
        furtherLength]
      change t.length + 5 + _ = _
      omega
  rw [whereClause, if_neg (by simp), String.length_append, hlist]
  change 7 + _ = _
  omega

theorem length_whereClause_le {ss ts : List String}
    (h : List.Forall₂ (fun s t => s.length ≤ t.length) ss ts) (more : List String)
    : (whereClause ss).length + more.length ≤ (whereClause (ts ++ more)).length := by
  cases h with
  | nil =>
    cases more with
    | nil => exact Nat.le_refl _
    | cons t more =>
      have hmore := length_le_furtherLength more
      rw [List.nil_append, length_whereClause_cons, List.length_cons]
      change 0 + _ ≤ _
      omega
  | cons head tail =>
    have hfurther := furtherLength_le tail
    have hmore := length_le_furtherLength more
    rw [List.cons_append, length_whereClause_cons, length_whereClause_cons, furtherLength_append]
    omega

end Query

namespace SelectSource

def whereText (x : SelectSource) : String := x.condition.elim "" (" WHERE " ++ ·.sql)

theorem size_whereFragment (p : Profile) (x : SelectSource)
    : x.whereFragment.size p = x.whereText.length := by
  unfold whereFragment whereText
  cases x.condition with
  | none => rfl
  | some c =>
    rw [Fragment.size_append, Fragment.size_ofRendered, Option.elim_some, String.length_append]
    rfl

end SelectSource

namespace Query

variable {q : Query} {id j : ScopeId} {r : RowRange} {s : Select} {ctx : RenderContext}
  {nested : ScopeId → Compile Rendered}

theorem grows_source
    (hnested : ∀ scope, Agree Rendered.Grows (ctx.subselect scope) (nested scope))
    (hs : q.select? j = some s) (hint : Option String)
    : Agree
        (fun x y => y.tables = x.tables
          ∧ x.whereText.length + (q.rangeConditions id r j s).length ≤ y.whereText.length)
        ((q.withRange id {}).source j ctx hint)
        ((q.withRange id r).source j { ctx with subselect := nested } hint) := by
  rw [source_withRange hs, source_withRange hs, condition?_rangeAt q id r]
  refine .bind_same fun tables => ?_
  refine (Select.grows_conditionList hnested (by simp)).map fun xs ys hxs => ⟨rfl, ?_⟩
  have himplied : ∀ ts : List String, (ts.map (⟨·, []⟩ : String → Rendered)).map (·.sql) = ts := by
    intro ts
    rw [List.map_map]
    exact List.map_id ts
  have htexts : ∀ ts : List String, List.Forall₂ (fun s t => s.length ≤ t.length)
      (xs.map (·.sql) ++ ts) (ys.map (·.sql) ++ ts) := fun ts =>
    List.rel_append (Rendered.Grows.texts hxs) (List.forall₂_same.mpr fun _ _ => Nat.le_refl _)
  simp only [SelectSource.whereText, sql_conjunction?, List.map_append, himplied]
  simp only [← List.append_assoc]
  rw [List.append_assoc (xs.map _), List.append_assoc (ys.map _)]
  exact length_whereClause_le (htexts _) _

theorem body_withRange (hs : q.select? j = some s) (ctx : RenderContext) (hint : Option String)
    (ordered : Bool)
    : (q.withRange id r).body j ctx hint ordered = do
        let source ← (q.withRange id r).source j ctx hint
        let groupBy ← s.groupByClause ctx
        let having ← s.havingClause ctx
        let orderBy ← (if ordered then s.orderByClause ctx else pure .empty : Compile Fragment)
        return bodyText source groupBy having orderBy := by
  have hselect : (q.withRange id r).select j = .ok { s with range := rangeAt id r j s } := by
    simp only [select, select?_withRange, hs, Option.map_some]
  exact body_eq hselect ctx hint ordered

theorem grows_body (id : ScopeId) (r : RowRange)
    (hnested : ∀ scope, Agree Rendered.Grows (ctx.subselect scope) (nested scope))
    (hs : q.select? j = some s) (hint : Option String) (ordered : Bool)
    : Agree
        (fun f g => f.size ctx.profile + (q.rangeConditions id r j s).length
          ≤ g.size ctx.profile)
        ((q.withRange id {}).body j ctx hint ordered)
        ((q.withRange id r).body j { ctx with subselect := nested } hint ordered) := by
  have horderBy : Agree (Fragment.Grows ctx.profile)
      (if ordered then s.orderByClause ctx else pure .empty)
      (if ordered then s.orderByClause { ctx with subselect := nested } else pure .empty) :=
    .ite (Select.grows_orderByClause hnested) (.ok (.refl _))
  rw [body_withRange hs, body_withRange hs]
  refine (grows_source hnested hs hint).bind fun x y hxy => ?_
  refine (Select.grows_groupByClause hnested).bind fun g g' hg => ?_
  refine (Select.grows_havingClause hnested).bind fun h h' hh => ?_
  refine horderBy.map fun o o' ho => ?_
  obtain ⟨htables, hwhere⟩ := hxy
  unfold Fragment.Grows at hg hh ho
  simp only [bodyText, Fragment.size_append, SelectSource.size_whereFragment, htables]
  omega

/-! ### Whole selects -/

-- The clause of a range stands at one of four places, which does not matter here.
theorem length_selectText (p : Profile) (shape : SelectShape)
    : ∃ fixed, ∀ r items body, ∃ inner,
        (selectText p r shape none items body).sql = p.paging.wrap inner r shape
          ∧ inner.length = fixed + (Token.writeAll p (p.paging.clause r shape)).length
              + items.size p + body.size p := by
  have htokens : ∀ ts, (Fragment.ofTokens ts).size p = (Token.writeAll p ts).length := fun _ => rfl
  refine ⟨(Token.writeAll p [.keyword .select]).length
    + (Token.writeAll p (if shape.distinct then [.space, .keyword .distinct] else [])).length
    + (Token.writeAll p [.space]).length + (Token.writeAll p [.space]).length, ?_⟩
  refine fun r items body => ⟨_, rfl, ?_⟩
  change Fragment.size p (selectFragment p r shape none items body) = _
  unfold selectFragment
  simp only [Fragment.size_append, htokens, Token.writeAll_append, String.length_append]
  have hnil : (Token.writeAll p []).length = 0 := rfl
  cases p.rangePosition <;> simp only [reduceCtorEq, if_true, if_false, hnil] <;> omega

theorem length_selectText_le {p : Profile} {shape : SelectShape}
    {items items' body body' : Fragment} (r : RowRange) (hitems : Fragment.Grows p items items')
    (hbody : Fragment.Grows p body body')
    : (selectText p r shape none items body).Grows (selectText p r shape none items' body') := by
  obtain ⟨fixed, hfixed⟩ := length_selectText p shape
  obtain ⟨inner, hsql, hlength⟩ := hfixed r items body
  obtain ⟨inner', hsql', hlength'⟩ := hfixed r items' body'
  obtain ⟨n, hwrap, _⟩ := p.paging.exists_length_wrap r shape
  unfold Fragment.Grows at hitems hbody
  unfold Rendered.Grows
  rw [hsql, hsql', hwrap, hwrap]
  omega

theorem length_selectText_add_le {p : Profile} {shape : SelectShape}
    {items items' body body' : Fragment} (hr : r.isAll = false)
    (hitems : Fragment.Grows p items items')
    (hbody : body.size p + (p.paging.condition? r shape).toList.length ≤ body'.size p)
    : (selectText p {} shape none items body).sql.length
          + (p.paging.expresses r shape.nested).toNat
        ≤ (selectText p r shape none items' body').sql.length := by
  obtain ⟨fixed, hfixed⟩ := length_selectText p shape
  obtain ⟨inner, hsql, hlength⟩ := hfixed {} items body
  obtain ⟨inner', hsql', hlength'⟩ := hfixed r items' body'
  obtain ⟨n, hwrap, hpos⟩ := p.paging.exists_length_wrap r shape
  have hplain : p.paging.wrap inner {} shape = inner :=
    Paging.wrap_of_not_wraps (Paging.wraps_of_isAll rfl) inner
  have hclause : (Token.writeAll p (p.paging.clause {} shape)).length = 0 := by
    rw [Paging.clause_of_isAll rfl]
    rfl
  unfold Fragment.Grows at hitems
  rw [hsql, hsql', hwrap, hplain]
  cases hexpresses : p.paging.expresses r shape.nested with
  | false =>
    change _ + 0 ≤ _
    omega
  | true =>
    change _ + 1 ≤ _
    obtain ⟨ts, hts⟩ | ⟨c, hc⟩ | hwraps := Paging.parts_of_expresses hr hexpresses
    · have hblank : 0 < (Token.writeAll p (p.paging.clause r shape)).length := by
        have hspace : Token.writeAll p [.space] = " " := by simp [Token.writeAll, Token.write]
        rw [hts, ← List.singleton_append, Token.writeAll_append, String.length_append, hspace]
        exact Nat.lt_add_right _ Nat.one_pos
      omega
    · rw [hc] at hbody
      change _ + 1 ≤ _ at hbody
      omega
    · have := hpos hwraps
      omega

def textGains (q : Query) (id : ScopeId) (r : RowRange) (j : ScopeId) : Bool :=
  j = id && q.profile.paging.expresses r (j ≠ .root)

theorem renderScope_withRange (hs : q.select? j = some s) (ctx : RenderContext)
    : (q.withRange id r).renderScope j .unlocked ctx = do
        if s.items.isEmpty then
          throw (.aliasing (.noItems j))
        let tables ← q.tableCount j
        let items ← s.itemList ctx
          (q.profile.paging.wraps (rangeAt id r j s) (q.shape j s) && 1 < tables)
        let body ← (q.withRange id r).body j ctx none (q.shape j s).ordered
        return selectText q.profile (rangeAt id r j s) (q.shape j s) none items body := by
  simp only [renderScope_eq, lockClause?_unlocked, select, select?_withRange, hs, Option.map_some,
    Compile.ok_bind, shape_withRange]
  rfl

theorem grows_renderScope (id : ScopeId)
    (hnested : ∀ scope, Agree Rendered.Grows (ctx.subselect scope) (nested scope))
    (hprofile : ctx.profile = q.profile) (hr : r.isAll = false) (j : ScopeId)
    : Agree (fun x y => x.sql.length + (q.textGains id r j).toNat ≤ y.sql.length)
        ((q.withRange id {}).renderScope j .unlocked ctx)
        ((q.withRange id r).renderScope j .unlocked { ctx with subselect := nested }) := by
  cases hs : q.select? j with
  | none =>
    simp only [renderScope_eq, select, select?_withRange, hs, Option.map_none, Compile.error_bind]
    exact .error _
  | some s =>
    rw [renderScope_withRange hs, renderScope_withRange hs]
    refine .ite (.error _) (.bind_same fun tables => ?_)
    have hbody := grows_body id r hnested hs none (q.shape j s).ordered
    by_cases hj : j = id
    · subst hj
      have hplain : rangeAt j {} j s = {} := if_pos rfl
      have hranged : rangeAt j r j s = r := if_pos rfl
      rw [hplain, hranged, Paging.wraps_of_isAll rfl]
      refine (Select.grows_itemList hnested (by simp)).bind fun f f' hf => ?_
      refine hbody.map fun g g' hg => ?_
      have hgains : q.textGains j r j = q.profile.paging.expresses r (q.shape j s).nested := by
        simp [textGains, shape]
      rw [rangeConditions, if_pos rfl] at hg
      rw [hgains]
      rw [hprofile] at hf hg
      exact length_selectText_add_le hr hf hg
    · have hplain : rangeAt id {} j s = s.range := if_neg hj
      have hranged : rangeAt id r j s = s.range := if_neg hj
      rw [hplain, hranged]
      refine (Select.grows_itemList hnested fun h => h).bind fun f f' hf => ?_
      refine hbody.map fun g g' hg => ?_
      have hgains : q.textGains id r j = false := by simp [textGains, hj]
      rw [rangeConditions, if_neg hj] at hg
      rw [hgains]
      rw [hprofile] at hf hg
      exact length_selectText_le s.range hf hg

/-! ### Nested selects -/

theorem grows_renderNested (q : Query) (id : ScopeId) (hr : r.isAll = false) (depth : Nat)
    (j : ScopeId)
    : Agree Rendered.Grows ((q.withRange id {}).renderNested depth j)
        ((q.withRange id r).renderNested depth j) := by
  induction depth generalizing j with
  | zero =>
    unfold renderNested
    exact .ite (.error _) (.error _)
  | succ depth ih =>
    unfold renderNested
    refine .ite (.error _) ?_
    let inner : RenderContext := ⟨q.profile, true, (q.withRange id {}).renderNested depth⟩
    have hinner : ∀ scope, Agree Rendered.Grows (inner.subselect scope)
        ((q.withRange id r).renderNested depth scope) := ih
    refine (grows_renderScope id hinner rfl hr j).mono fun x y hxy => ?_
    exact Nat.le_of_add_right_le hxy

theorem context_withRange (q : Query) (id : ScopeId) (r : RowRange)
    : (q.withRange id r).context
        =
      { q.context with subselect := (q.withRange id r).renderNested q.selects.length } := by
  unfold context withRange modifySelect
  rw [List.length_modify]

theorem grows_context (q : Query) (id : ScopeId) (hr : r.isAll = false) (scope : ScopeId)
    : Agree Rendered.Grows ((q.withRange id {}).context.subselect scope)
        ((q.withRange id r).context.subselect scope) := by
  rw [context_withRange, context_withRange]
  exact q.grows_renderNested id hr _ scope

theorem grows_renderUnlocked (q : Query) (id : ScopeId) (hr : r.isAll = false)
    : Agree
        (fun x y => x.sql.length + (q.profile.paging.expresses r (id ≠ .root)).toNat
          ≤ y.sql.length)
        ((q.withRange id {}).renderUnlocked id) ((q.withRange id r).renderUnlocked id) := by
  have h := grows_renderScope (q := q) id (q.grows_context id hr) rfl hr id
  have hgains : q.textGains id r id = q.profile.paging.expresses r (id ≠ .root) := by
    simp [textGains]
  rwa [hgains] at h

/-! ### Statements -/

theorem grows_setClause
    (hnested : ∀ scope, Agree Rendered.Grows (ctx.subselect scope) (nested scope))
    (action : BulkAction) (qualifier : Option Alias)
    : Agree (Fragment.Grows ctx.profile) (action.setClause ctx qualifier)
        (action.setClause { ctx with subselect := nested } qualifier) := by
  cases action with
  | delete => exact .ok (.refl _)
  | update assignments =>
    simp only [BulkAction.setClause]
    refine (Agree.mapM fun a _ => ?_).map fun fs gs hfs => .append (.refl _) (.separated hfs _)
    let here : RenderContext := { ctx with qualify := qualifier.isSome }
    have hhere : ∀ scope, Agree Rendered.Grows (here.subselect scope) (nested scope) := hnested
    exact (Expr.grows_fragment hhere a.2).map fun f g hf => .append (.refl _) hf

theorem modifySelect_keySelect (q : Query) (id : ScopeId) (r : RowRange) (a : Alias) (table : Table)
    (key : List String)
    : (q.withRange id r).modifySelect id (keySelect (q.withRange id r).profile a table key)
        =
      (q.modifySelect id (keySelect q.profile a table key)).withRange id r := by
  have hkey : ∀ s, keySelect q.profile a table key { s with range := r }
      = { keySelect q.profile a table key s with range := r } := by
    intro s
    unfold keySelect
    split <;> rfl
  simp only [withRange, modifySelect, List.modify_modify_eq, Function.comp_def, hkey]

theorem grows_keyCondition (q : Query) (id : ScopeId) (hr : r.isAll = false) (table : Table)
    (key : List String)
    : Agree
        (fun f g => f.size q.profile + (q.profile.paging.expresses r (id ≠ .root)).toNat
          ≤ g.size q.profile)
        ((q.withRange id {}).keyCondition id table key)
        ((q.withRange id r).keyCondition id table key) := by
  rw [keyCondition_eq, keyCondition_eq]
  refine .bind_same fun a => ?_
  rw [modifySelect_keySelect, modifySelect_keySelect]
  refine (grows_renderUnlocked _ id hr).map fun x y hxy => ?_
  simp only [Fragment.size_append, Fragment.size_parens, Fragment.size_ofRendered]
  change _ + (q.profile.paging.expresses r (id ≠ .root)).toNat ≤ _ at hxy
  omega

/--
Whether the table of a select with so many tables keeps its alias in a statement that changes it.
-/
def keepsAlias (q : Query) (tables : Nat) : Bool :=
  tables = 1 && q.profile.supports .subselect && q.profile.requirements.allowsAliasInBulkClause

/--
Whether the range of a select becomes part of the statement that changes its rows. If the table
keeps its alias, only a condition on row numbers does. Without conditions the statement has no
nested select that could have a range.
-/
def carriesRange (q : Query) (id : ScopeId) (r : RowRange) : Bool :=
  match q.graph.scope? id, q.select? id with
  | some scope, some s =>
    if q.keepsAlias scope.entries.length then
      (q.profile.paging.condition? r (q.shape id s)).isSome
    else if scope.entries.length = 1 ∧ ¬ q.hasConditions id then
      false
    else
      q.profile.paging.expresses r (id ≠ .root)
  | _, _ => false

theorem grows_aliasedBulk (hs : q.select? id = some s) (hr : r.isAll = false) (action : BulkAction)
    (table : Table)
    : Agree
        (fun x y => x.sql.length + (q.profile.paging.condition? r (q.shape id s)).isSome.toNat
          ≤ y.sql.length)
        ((q.withRange id {}).aliasedBulk action id table)
        ((q.withRange id r).aliasedBulk action id table) := by
  rw [aliasedBulk_eq, aliasedBulk_eq]
  refine .bind_same fun a => ?_
  refine (grows_setClause (q.grows_context id hr) action (some a)).bind fun f g hfg => ?_
  refine (grows_source (q.grows_context id hr) hs none).map fun x y hxy => ?_
  obtain ⟨htables, hwhere⟩ := hxy
  have hconditions : (q.profile.paging.condition? r (q.shape id s)).isSome.toNat
      = (q.rangeConditions id r id s).length := by
    rw [rangeConditions, if_pos rfl]
    cases q.profile.paging.condition? r (q.shape id s) <;> rfl
  have hset : f.size q.profile ≤ g.size q.profile := hfg
  rw [htables, hconditions, profile_withRange, profile_withRange]
  change Fragment.size q.profile (.ofTokens _ ++ f ++ x.whereFragment) + _
    ≤ Fragment.size q.profile (.ofTokens _ ++ g ++ y.whereFragment)
  simp only [Fragment.size_append, SelectSource.size_whereFragment]
  omega

theorem grows_bulkHead (q : Query) (id : ScopeId) (hr : r.isAll = false) (action : BulkAction)
    (table : Table)
    : Agree (Fragment.Grows q.profile) ((q.withRange id {}).bulkHead action table)
        ((q.withRange id r).bulkHead action table) := by
  unfold bulkHead
  refine (grows_setClause (q.grows_context id hr) action none).map fun f g hfg => ?_
  exact .append (.refl _) hfg

theorem hasConditions_withRange (q : Query) (id j : ScopeId) (r : RowRange)
    : (q.withRange id r).hasConditions j = q.hasConditions j := by
  simp only [hasConditions, select?_withRange]
  cases q.select? j <;> rfl

theorem grows_nestedBulk? (q : Query) (id : ScopeId) (hr : r.isAll = false) (action : BulkAction)
    (table : Table) (tables : Nat)
    : Agree
        (Option.Rel fun x y => x.sql.length
          + (if tables = 1 ∧ ¬ q.hasConditions id then false
              else q.profile.paging.expresses r (id ≠ .root)).toNat ≤ y.sql.length)
        ((q.withRange id {}).nestedBulk? action id table tables)
        ((q.withRange id r).nestedBulk? action id table tables) := by
  rw [nestedBulk?_eq_render, nestedBulk?_eq_render]
  simp only [hasConditions_withRange]
  refine (q.grows_bulkHead id hr action table).bind fun f g (hfg : f.size _ ≤ g.size _) => ?_
  by_cases hplain : tables = 1 ∧ ¬ q.hasConditions id
  · rw [if_pos hplain, if_pos hplain, if_pos hplain]
    exact .ok (.some hfg)
  · rw [if_neg hplain, if_neg hplain, if_neg hplain]
    refine .ite ?_ (.ok .none)
    refine (q.grows_keyCondition id hr table _).map fun h h' hh => .some ?_
    change Fragment.size q.profile (f ++ h) + _ ≤ Fragment.size q.profile (g ++ h')
    simp only [Fragment.size_append]
    omega

theorem bulk?_eq {scope : Scope} (hscope : q.graph.scope? id = some scope) (action : BulkAction)
    (table : Table)
    : q.bulk? action id table
        =
      if q.keepsAlias scope.entries.length then
        q.aliasedBulk action id table >>= fun x => .ok (some x)
      else
        q.nestedBulk? action id table scope.entries.length := by
  have htables : q.tableCount id = .ok scope.entries.length := by
    rw [tableCount, JoinGraph.scope_eq_ok_iff.mpr hscope]
    rfl
  rw [bulk?, htables]
  rfl

theorem bulk?_withRange {scope : Scope} (hscope : q.graph.scope? id = some scope) (r : RowRange)
    (action : BulkAction) (table : Table)
    : (q.withRange id r).bulk? action id table
        =
      if q.keepsAlias scope.entries.length then
        (q.withRange id r).aliasedBulk action id table >>= fun x => .ok (some x)
      else
        (q.withRange id r).nestedBulk? action id table scope.entries.length :=
  bulk?_eq (q := q.withRange id r) hscope action table

theorem bulk?_of_unknownScope (hscope : q.graph.scope? id = none) (r : RowRange)
    (action : BulkAction) (table : Table)
    : (q.withRange id r).bulk? action id table = .error (.aliasing (.unknownScope id)) := by
  have htables : (q.withRange id r).tableCount id = .error (.aliasing (.unknownScope id)) := by
    change q.tableCount id = _
    rw [tableCount, JoinGraph.scope, hscope]
    rfl
  rw [bulk?, htables, Compile.error_bind]

theorem grows_bulk? (hs : q.select? id = some s) (hr : r.isAll = false) (action : BulkAction)
    (table : Table)
    : Agree (Option.Rel fun x y => x.sql.length + (q.carriesRange id r).toNat ≤ y.sql.length)
        ((q.withRange id {}).bulk? action id table) ((q.withRange id r).bulk? action id table) := by
  cases hscope : q.graph.scope? id with
  | none =>
    rw [bulk?_of_unknownScope hscope, bulk?_of_unknownScope hscope]
    exact .error _
  | some scope =>
    rw [bulk?_withRange hscope, bulk?_withRange hscope]
    simp only [carriesRange, hscope, hs]
    split
    · exact (grows_aliasedBulk hs hr action table).map fun x y hxy => .some hxy
    · exact q.grows_nestedBulk? id hr action table _

/-! ### Ranges without text -/

theorem selectText_of_not_expresses {p : Profile} {shape : SelectShape}
    (h : p.paging.expresses r shape.nested = false) (items body : Fragment)
    : selectText p r shape none items body = selectText p {} shape none items body := by
  obtain ⟨hclause, _, hwraps⟩ := Paging.parts_of_not_expresses h
  simp only [selectText, selectFragment, hclause, Paging.clause_of_isAll (r := {}) rfl,
    Paging.wrap_of_not_wraps hwraps, Paging.wrap_of_not_wraps (Paging.wraps_of_isAll (r := {}) rfl)]

theorem source_withRange_eq (id : ScopeId) (hs : q.select? j = some s)
    (h : j = id → q.profile.paging.condition? r (q.shape j s) = none) (ctx : RenderContext)
    (hint : Option String)
    : (q.withRange id r).source j ctx hint = (q.withRange id {}).source j ctx hint := by
  have hnew : q.rangeConditions id r j s = [] := by
    unfold rangeConditions
    split
    · next hj => rw [h hj]; rfl
    · rfl
  rw [source_withRange hs, source_withRange hs, condition?_rangeAt q id r, hnew, List.append_nil]

theorem renderScope_withRange_eq
    (h : j = id → q.profile.paging.expresses r (j ≠ .root) = false) (ctx : RenderContext)
    : (q.withRange id r).renderScope j .unlocked ctx
        =
      (q.withRange id {}).renderScope j .unlocked ctx := by
  cases hs : q.select? j with
  | none =>
    simp only [renderScope_eq, select, select?_withRange, hs, Option.map_none, Compile.error_bind]
  | some s =>
    have hcondition : j = id → q.profile.paging.condition? r (q.shape j s) = none :=
      fun hj => (Paging.parts_of_not_expresses (h hj)).2.1
    have hsource := source_withRange_eq id hs hcondition ctx none
    rw [renderScope_withRange hs, renderScope_withRange hs, body_withRange hs, body_withRange hs,
      hsource]
    by_cases hj : j = id
    · subst hj
      have hshape : q.profile.paging.expresses r (q.shape j s).nested = false := h rfl
      have hplain : rangeAt j {} j s = {} := if_pos rfl
      have hranged : rangeAt j r j s = r := if_pos rfl
      simp only [hplain, hranged, selectText_of_not_expresses hshape,
        (Paging.parts_of_not_expresses hshape).2.2, Paging.wraps_of_isAll (r := {}) rfl]
    · simp only [rangeAt, if_neg hj]

-- No expression sees the text of the outermost select.
theorem context_withRange_root (q : Query) (r : RowRange)
    : (q.withRange .root r).context = (q.withRange .root {}).context := by
  refine context_congr rfl ?_ fun id hid ctx => ?_
  · simp only [withRange, modifySelect, List.length_modify]
  · exact renderScope_withRange_eq (fun h => absurd h hid) ctx

theorem keyCondition_withRange_root (h : q.profile.paging.expresses r false = false)
    (table : Table) (key : List String)
    : (q.withRange .root r).keyCondition .root table key
        =
      (q.withRange .root {}).keyCondition .root table key := by
  rw [keyCondition_eq, keyCondition_eq]
  refine congrArg (q.graph.aliasOf .root table .root >>= ·) (funext fun a => ?_)
  rw [modifySelect_keySelect, modifySelect_keySelect]
  refine congrArg (· >>= _) ?_
  rw [renderUnlocked, renderUnlocked, context_withRange_root, renderScope_withRange_eq fun _ => h]

theorem bulk?_withRange_root (hs : q.select? .root = some s) (h : q.carriesRange .root r = false)
    (action : BulkAction) (table : Table)
    : (q.withRange .root r).bulk? action .root table
        =
      (q.withRange .root {}).bulk? action .root table := by
  cases hscope : q.graph.scope? .root with
  | none => rw [bulk?_of_unknownScope hscope, bulk?_of_unknownScope hscope]
  | some scope =>
    simp only [carriesRange, hscope, hs] at h
    rw [bulk?_withRange hscope, bulk?_withRange hscope]
    split at h
    · next halias =>
      have hnone : q.profile.paging.condition? r (q.shape .root s) = none := by simpa using h
      have hsource := source_withRange_eq .root hs fun _ => hnone
      rw [if_pos halias, if_pos halias]
      simp only [aliasedBulk, context_withRange_root, hsource]
      rfl
    · next halias =>
      rw [if_neg halias, if_neg halias]
      simp only [nestedBulk?, bulkHead, context_withRange_root, hasConditions_withRange]
      split at h
      · next hplain =>
        simp only [if_pos hplain]
        rfl
      · next hplain =>
        simp only [if_neg hplain, keyCondition_withRange_root h]
        rfl

/-! ## Statements with and without ranges -/

/--
Whether there is a statement that changes the rows of a select does not depend on its range. The
range becomes part of the statement unless it is one of those that leave it out, and for the
outermost select these are the same as without the range.
-/
theorem bulk?_range (q plain ranged : Query) (action : BulkAction) (id : ScopeId) (table : Table)
    (r : RowRange) (hr : r.isAll = false) (hplain : q.setRange id {} = .ok plain)
    (hranged : q.setRange id r = .ok ranged)
    : Agree (fun x y => x.isSome = y.isSome) (plain.bulk? action id table)
          (ranged.bulk? action id table)
        ∧ (q.carriesRange id r = true →
            ∀ x y, plain.bulk? action id table = .ok (some x) →
              ranged.bulk? action id table = .ok (some y) → x.sql ≠ y.sql)
        ∧ (q.carriesRange id r = false → id = .root →
            ranged.bulk? action id table = plain.bulk? action id table) := by
  obtain ⟨s, hs⟩ : ∃ s, q.select? id = some s := by
    unfold setRange edit select at hplain
    cases hs : q.select? id with
    | none =>
      rw [hs] at hplain
      cases hplain
    | some s => exact ⟨s, rfl⟩
  obtain rfl := withRange_of_setRange hplain
  obtain rfl := withRange_of_setRange hranged
  have hgrows := grows_bulk? hs hr action table
  refine ⟨?_, ?_, ?_⟩
  · refine hgrows.mono fun x y hxy => ?_
    cases hxy <;> rfl
  · intro hcarries x y hx hy heq
    cases hgrows.of_eq_ok hx hy with
    | some hlength =>
      rw [heq, hcarries] at hlength
      exact Nat.lt_irrefl _ hlength
  · rintro hcarries rfl
    exact bulk?_withRange_root hs hcarries action table

-- There are two tables, and the nested select is wrapped in others for its range.
theorem bulk?_range_wrapped
    : let table : Table := { name := "O", primaryKey := some { columns := ["ID"] } }
      let build : Compile Query := do
        let q := Query.new Vendor.oracle.profile
        let (o, q) ← q.fromTable .root table
        let (_, q) ← q.crossJoin .root table .root { name := "C" } "c"
        q.addCondition .root (.binary .eq (.column o "NAME") (.param "name"))
      let r : RowRange := { start := 2, stop := some 5 }
      ∃ q plain ranged x y, build = .ok q ∧ r.isAll = false ∧ q.setRange .root {} = .ok plain
        ∧ q.setRange .root r = .ok ranged ∧ q.carriesRange .root r = true
        ∧ plain.bulk? .delete .root table = .ok (some x)
        ∧ ranged.bulk? .delete .root table = .ok (some y) ∧ x.sql ≠ y.sql := by
  intro table build r
  obtain ⟨q, plain, ranged, x, y, hq, hplain, hranged, hcarries, hx, hy⟩ :
      ∃ q plain ranged x y, build = .ok q ∧ q.setRange .root {} = .ok plain
        ∧ q.setRange .root r = .ok ranged ∧ q.carriesRange .root r = true
        ∧ plain.bulk? .delete .root table = .ok (some x)
        ∧ ranged.bulk? .delete .root table = .ok (some y) :=
    ⟨_, _, _, _, _, rfl, rfl, rfl, rfl, rfl, rfl⟩
  have hdiffer :=
    (bulk?_range q plain ranged .delete .root table r rfl hplain hranged).2.1 hcarries x y hx hy
  exact ⟨q, plain, ranged, x, y, hq, rfl, hplain, hranged, hcarries, hx, hy, hdiffer⟩

-- Without conditions all rows are deleted, and not only those in the range.
theorem bulk?_range_ignored
    : let table : Table := { name := "O", primaryKey := some { columns := ["ID"] } }
      let build : Compile Query := do
        let q := Query.new Vendor.postgres.profile
        let (_, q) ← q.fromTable .root table
        q.setRange .root { stop := some 10 }
      (build >>= fun q => q.bulk? .delete .root table) = .ok (some ⟨"DELETE FROM O", []⟩) := by
  intro table build
  decide +kernel

end Query

end SqlDialect
