import SqlDialect.Proofs.Query.Locking
import SqlDialect.Proofs.Query.Places
import SqlDialect.Proofs.RowRange

/-!
This module contains selects as data. A statement keeps the expressions and conditions apart that it
is written with, so that it can be read as SQL. The statement of a query has the text that the query
is rendered to.
-/

namespace SqlDialect

open Compile (Agree)

structure StatementItem where
  value : Rendered
  label : List Token

structure OrderKey where
  value : Rendered
  descending : Bool

structure SelectBody where
  tables : String
  conditions : List Rendered
  groupBy : List Rendered
  having : List Rendered
  orderBy : List OrderKey

structure SelectStatement extends SelectBody where
  distinct : Bool
  items : List StatementItem
  range : RangeReading

/-! ## Text -/

namespace Fragment

def listClause (opening separator : List Token) (rs : List Rendered) : Fragment :=
  if rs.isEmpty then .empty else .ofTokens opening ++ .separated separator (rs.map .ofRendered)

variable {p : Profile}

theorem render_congr_append {f f' g g' : Fragment} (hf : f.render p = f'.render p)
    (hg : g.render p = g'.render p) : (f ++ g).render p = (f' ++ g').render p := by
  rw [render_append, render_append, hf, hg]

theorem render_congr_separated {fs gs : List Fragment} (h : fs.map (render p) = gs.map (render p))
    (separator : List Token)
    : (separated separator fs).render p = (separated separator gs).render p := by
  rw [render_separated, render_separated, h]

theorem map_render_ofRendered (rs : List Rendered) : (rs.map ofRendered).map (render p) = rs := by
  simp [Function.comp_def]

def WritesList (p : Profile) (opening separator : List Token) (f : Fragment) (rs : List Rendered)
    : Prop :=
  f.render p = (listClause opening separator rs).render p

theorem writesList_separated {fs : List Fragment} {rs : List Rendered} (h : fs.map (render p) = rs)
    (hne : rs ≠ []) (opening separator : List Token)
    : WritesList p opening separator (ofTokens opening ++ separated separator fs) rs := by
  have hfalse : rs.isEmpty = false := by simpa using hne
  simp only [WritesList, listClause, hfalse, Bool.false_eq_true, if_false]
  refine render_congr_append rfl (render_congr_separated ?_ separator)
  rw [h, map_render_ofRendered]

end Fragment

def StatementItem.fragment (item : StatementItem) : Fragment :=
  .ofRendered item.value ++ .ofTokens item.label

def OrderKey.rendered (key : OrderKey) : Rendered :=
  { key.value with sql := key.value.sql ++ if key.descending then " DESC" else " ASC" }

def SelectBody.fragment (b : SelectBody) (c : Option RowCondition) : Fragment :=
  .ofTokens [.keyword .from_, .space, .raw b.tables]
    ++ .listClause [.space, .keyword .where_, .space] [.space, .keyword .and, .space]
      (b.conditions ++ c.toList.map fun c => ⟨c.text, []⟩)
    ++ .listClause [.space, .keyword .groupBy, .space] [.symbol .comma, .space] b.groupBy
    ++ .listClause [.space, .keyword .having, .space] [.space, .keyword .and, .space] b.having
    ++ .listClause [.space, .keyword .orderBy, .space] [.symbol .comma, .space]
      (b.orderBy.map (·.rendered))

def SelectStatement.render (p : Profile) (s : SelectStatement) : Rendered :=
  let rangeAt (position : RangePosition) : List Token :=
    if p.rangePosition = position then s.range.clause.tokens else []
  let distinct : List Token := if s.distinct then [.space, .keyword .distinct] else []
  let head : List Token :=
    .keyword .select :: rangeAt .preDistinct ++ distinct ++ rangeAt .postDistinct ++ [.space]
  let tail := rangeAt .postSelect ++ rangeAt .postLock
  let inner :=
    (.ofTokens head ++ .commaSep (s.items.map (·.fragment)) ++ .ofTokens [.space]
      ++ s.toSelectBody.fragment s.range.condition ++ .ofTokens tail : Fragment).render p
  { inner with sql := s.range.select.text inner.sql }

/-! ## Statements of queries -/

namespace Select

def statementItems (s : Select) (ctx : RenderContext) (numbered : Bool) :
    Compile (List StatementItem) :=
  s.items.zipIdx.mapM fun (item, place) => do
    return { value := ← item.expr.sql ctx, label := labelTokens item place numbered }

def orderList (s : Select) (ctx : RenderContext) : Compile (List OrderKey) :=
  s.orderBy.mapM fun item => do
    return { value := ← item.expr.sql ctx, descending := item.descending }

def identifierTexts (s : Select) (ctx : RenderContext) : Compile (List Rendered) :=
  ((s.items.filter (·.identifier)).map (·.expr)).mapM (·.sql ctx)

end Select

namespace Query

def selectBody (q : Query) (ordered : Bool) : Compile SelectBody := do
  let s ← q.select .root
  let tables ← q.graph.fromClause .root q.profile none
  let range := (q.profile.paging.condition? s.range (q.shape .root s)).toList
  let explicit ← s.conditionList q.context (tables.conditions ++ range).length
  let groupBy ← s.groupBy.mapM (·.sql q.context)
  let having ← s.having.mapM (·.sql q.context)
  let orderBy ← (if ordered then s.orderList q.context else pure [] : Compile (List OrderKey))
  return {
    tables := tables.sql
    conditions := explicit ++ tables.conditions.map (⟨·, []⟩)
    groupBy
    having
    orderBy }

def selectStatement (q : Query) : Compile SelectStatement := do
  let s ← q.select .root
  if s.items.isEmpty then
    throw (.aliasing (.noItems .root))
  let shape := q.shape .root s
  let tables ← q.tableCount .root
  let items ← s.statementItems q.context (q.profile.paging.wraps s.range shape && 1 < tables)
  let body ← q.selectBody shape.ordered
  return { body with
    distinct := shape.distinct
    items
    range := .ofRange q.profile.paging s.range shape }

end Query

/-! ## The text of a query is that of its statement -/

theorem map_eq_map_of_forall₂ {α β γ : Type} {f : α → γ} {g : β → γ} {as : List α} {bs : List β}
    (h : List.Forall₂ (fun a b => f a = g b) as bs) : as.map f = bs.map g := by
  induction h with
  | nil => rfl
  | cons head _ ih => rw [List.map_cons, List.map_cons, head, ih]

theorem Expr.agree_render (e : Expr) (ctx : RenderContext)
    : Agree (fun f r => f.render ctx.profile = r) (e.fragment ctx) (e.sql ctx) := by
  rw [sql_eq]
  cases e.fragment ctx with
  | ok f => exact .ok rfl
  | error err => exact .error err

namespace Fragment

theorem agree_listClause {α β : Type} {p : Profile} {f : α → Compile Fragment} {g : α → Compile β}
    (text : β → Rendered) (hfg : ∀ a, Agree (fun f b => f.render p = text b) (f a) (g a))
    {as : List α} (h : as ≠ []) (opening separator : List Token)
    : Agree (fun f bs => WritesList p opening separator f (bs.map text))
        (do return .ofTokens opening ++ .separated separator (← as.mapM f)) (as.mapM g) := by
  cases as with
  | nil => exact absurd rfl h
  | cons a as =>
    rw [List.mapM_cons, List.mapM_cons]
    simp only [bind_assoc]
    refine (hfg a).bind fun x b hx => ?_
    refine (Agree.mapM fun a _ => hfg a).map fun xs bs hxs => ?_
    have hmap : (x :: xs).map (render p) = (b :: bs).map text := by
      rw [List.map_cons, List.map_cons, hx, map_eq_map_of_forall₂ hxs]
    exact writesList_separated hmap (by simp) _ _

end Fragment

namespace Select

variable {s : Select} {ctx : RenderContext}

theorem agree_groupByClause
    : Agree
        (Fragment.WritesList ctx.profile [.space, .keyword .groupBy, .space]
          [.symbol .comma, .space])
        (s.groupByClause ctx) (s.groupBy.mapM (·.sql ctx)) := by
  unfold groupByClause
  cases s.groupBy with
  | nil => exact .ok rfl
  | cons e es =>
    have hlist := Fragment.agree_listClause id
      (fun e : Expr => e.agree_render ctx) (List.cons_ne_nil e es)
    simp only [List.map_id] at hlist
    exact hlist _ _

theorem agree_havingClause
    : Agree
        (Fragment.WritesList ctx.profile [.space, .keyword .having, .space]
          [.space, .keyword .and, .space])
        (s.havingClause ctx) (s.having.mapM (·.sql ctx)) := by
  unfold havingClause
  cases s.having with
  | nil => exact .ok rfl
  | cons e es =>
    have hlist := Fragment.agree_listClause id
      (fun e : Expr => e.agree_render ctx) (List.cons_ne_nil e es)
    simp only [List.map_id] at hlist
    exact hlist _ _

theorem render_direction (f : Fragment) (item : OrderItem) {r : Rendered}
    (h : f.render ctx.profile = r)
    : (f ++ .ofTokens [.space, item.direction]).render ctx.profile
        =
      OrderKey.rendered { value := r, descending := item.descending } := by
  subst h
  rw [Fragment.render_append]
  unfold OrderKey.rendered OrderItem.direction
  cases item.descending <;>
    exact congrArg (Rendered.mk _) (List.append_nil _)

theorem agree_orderByClause (h : s.orderBy ≠ [])
    : Agree
        (fun f keys => Fragment.WritesList ctx.profile [.space, .keyword .orderBy, .space]
          [.symbol .comma, .space] f (keys.map (·.rendered)))
        (s.orderByClause ctx) (s.orderList ctx) := by
  have hkeys (item : OrderItem) : Agree
      (fun f key => f.render ctx.profile = OrderKey.rendered key)
      (do return (← item.expr.fragment ctx) ++ .ofTokens [.space, item.direction])
      (do return { value := ← item.expr.sql ctx, descending := item.descending }) :=
    (item.expr.agree_render ctx).map fun f r hf => render_direction f item hf
  exact Fragment.agree_listClause _ hkeys h _ _

theorem agree_itemList (numbered : Bool)
    : Agree
        (fun f items =>
          f.render ctx.profile
            =
          (Fragment.commaSep (items.map (·.fragment))).render ctx.profile)
        (s.itemList ctx numbered) (s.statementItems ctx numbered) := by
  unfold itemList statementItems
  have hitems : Agree
      (List.Forall₂ fun f i => f.render ctx.profile = i.fragment.render ctx.profile)
      (s.items.zipIdx.mapM fun (item, place) => do
        return (← item.expr.fragment ctx) ++ .ofTokens (labelTokens item place numbered))
      (s.statementItems ctx numbered) := by
    refine Agree.mapM fun a _ => ?_
    refine (a.1.expr.agree_render ctx).map fun f r hf => ?_
    exact Fragment.render_congr_append (by rw [hf, Fragment.render_ofRendered]) rfl
  refine hitems.map_left fun fs items h => Fragment.render_congr_separated ?_ _
  rw [map_eq_map_of_forall₂ h, List.map_map]
  rfl

end Select

namespace Query

variable {q : Query} {s : Select}

theorem render_whereFragment (p : Profile) {x : SelectSource} {rs : List Rendered}
    (h : x.condition = Rendered.conjunction? rs)
    : Fragment.WritesList p [.space, .keyword .where_, .space] [.space, .keyword .and, .space]
        x.whereFragment rs := by
  unfold SelectSource.whereFragment Fragment.WritesList
  rw [h]
  cases rs with
  | nil => rfl
  | cons r rs =>
    have hand : Token.writeAll p [.space, .keyword .and, .space] = " AND " := rfl
    simp only [Rendered.conjunction?, Fragment.listClause, List.isEmpty_cons, Bool.false_eq_true,
      if_false]
    refine Fragment.render_congr_append rfl ?_
    rw [Fragment.render_ofRendered, Fragment.render_separated, Fragment.map_render_ofRendered, hand]

theorem agree_selectBody (hs : q.select .root = .ok s) (ordered : Bool)
    (hordered : ordered = true → s.orderBy ≠ [])
    : Agree
        (fun f b =>
          f.render q.profile
            =
          (b.fragment (RowCondition.ofRange? q.profile.paging s.range
            (q.shape .root s))).render q.profile)
        (q.body .root q.context none ordered) (q.selectBody ordered) := by
  have horderBy : Agree
      (fun f keys => Fragment.WritesList q.profile [.space, .keyword .orderBy, .space]
        [.symbol .comma, .space] f (keys.map (·.rendered)))
      (if ordered then s.orderByClause q.context else pure .empty)
      (if ordered then s.orderList q.context else pure []) := by
    cases ordered with
    | true => exact @Select.agree_orderByClause s q.context (hordered rfl)
    | false => exact .ok rfl
  rw [body_eq hs]
  unfold source selectBody
  simp only [hs, Compile.ok_bind, bind_assoc]
  refine .bind_same fun tables => .bind_same fun explicit => ?_
  refine Select.agree_groupByClause.bind fun f groupBy hf => ?_
  refine Select.agree_havingClause.bind fun g having hg => ?_
  refine horderBy.map fun h orderBy hh => ?_
  have hrange : (RowCondition.ofRange? q.profile.paging s.range (q.shape .root s)).toList.map
      (fun c => (⟨c.text, []⟩ : Rendered))
        =
      (q.profile.paging.condition? s.range (q.shape .root s)).toList.map (⟨·, []⟩) := by
    rw [← RowCondition.text_ofRange?]
    cases RowCondition.ofRange? q.profile.paging s.range (q.shape .root s) <;> rfl
  unfold bodyText SelectBody.fragment
  refine Fragment.render_congr_append (Fragment.render_congr_append (Fragment.render_congr_append
    (Fragment.render_congr_append rfl (render_whereFragment q.profile ?_)) hf) hg) hh
  rw [hrange, List.map_append, List.append_assoc]

theorem selectText_eq {p : Profile} {r : RowRange} {shape : SelectShape} {items body : Fragment}
    {st : SelectStatement} (hdistinct : st.distinct = shape.distinct)
    (hrange : st.range = .ofRange p.paging r shape)
    (hitems : items.render p = (Fragment.commaSep (st.items.map (·.fragment))).render p)
    (hbody : body.render p = (st.toSelectBody.fragment st.range.condition).render p)
    : selectText p r shape none items body = st.render p := by
  have hreads := RangeReading.reads_ofRange p.paging r shape
  have hclause := (hreads "").clause
  unfold selectText selectFragment SelectStatement.render
  simp only [hdistinct, hrange, hclause, fun text => (hreads text).select, List.append_nil]
  rw [hrange] at hbody
  refine congrArg (fun x : Rendered => { x with sql := p.paging.wrap x.sql r shape }) ?_
  exact Fragment.render_congr_append (Fragment.render_congr_append (Fragment.render_congr_append
    (Fragment.render_congr_append rfl hitems) rfl) hbody) rfl

theorem agree_selectStatement (q : Query)
    : Agree (fun r st => r = st.render q.profile) (q.renderUnlocked .root) q.selectStatement := by
  unfold renderUnlocked selectStatement
  simp only [renderScope_eq, lockClause?_unlocked, Compile.ok_bind]
  cases hs : q.select .root with
  | error e => exact .error e
  | ok s =>
    simp only [Compile.ok_bind]
    refine .ite (.error _) (.bind_same fun tables => ?_)
    refine (Select.agree_itemList _).bind fun f items hf => ?_
    have hordered : (q.shape .root s).ordered = true → s.orderBy ≠ [] := by
      simp only [shape, Select.isOrdered]
      intro h hnil
      simp [hnil] at h
    refine (agree_selectBody hs _ hordered).map fun g body hg => ?_
    exact selectText_eq rfl rfl hf hg

/-! ## What a statement has of its query -/

theorem of_selectStatement {st : SelectStatement} (hs : q.select .root = .ok s)
    (h : q.selectStatement = .ok st)
    : (∃ numbered, s.statementItems q.context numbered = .ok st.items)
        ∧ q.selectBody (q.shape .root s).ordered = .ok st.toSelectBody
        ∧ st.distinct = q.isDistinct .root
        ∧ st.range = .ofRange q.profile.paging s.range (q.shape .root s) := by
  unfold selectStatement at h
  simp only [hs, Compile.ok_bind] at h
  split at h
  · cases h
  · obtain ⟨tables, _, h⟩ := Compile.bind_eq_ok_iff.mp h
    obtain ⟨items, hitems, h⟩ := Compile.bind_eq_ok_iff.mp h
    obtain ⟨body, hbody, h⟩ := Compile.bind_eq_ok_iff.mp h
    cases h
    exact ⟨⟨_, hitems⟩, hbody, rfl, rfl⟩

theorem of_selectBody {ordered : Bool} {b : SelectBody} (hs : q.select .root = .ok s)
    (h : q.selectBody ordered = .ok b)
    : q.selectBody false = .ok { b with orderBy := [] }
        ∧ b.groupBy.isEmpty = s.groupBy.isEmpty ∧ b.having.isEmpty = s.having.isEmpty := by
  unfold selectBody at h ⊢
  simp only [hs, Compile.ok_bind] at h ⊢
  obtain ⟨tables, htables, h⟩ := Compile.bind_eq_ok_iff.mp h
  obtain ⟨explicit, hexplicit, h⟩ := Compile.bind_eq_ok_iff.mp h
  obtain ⟨groupBy, hgroupBy, h⟩ := Compile.bind_eq_ok_iff.mp h
  obtain ⟨having, hhaving, h⟩ := Compile.bind_eq_ok_iff.mp h
  obtain ⟨orderBy, _, h⟩ := Compile.bind_eq_ok_iff.mp h
  cases h
  simp only [htables, hexplicit, hgroupBy, hhaving, Compile.ok_bind]
  have hlength : ∀ {es : List Expr} {rs : List Rendered}, es.mapM (·.sql q.context) = .ok rs →
      rs.isEmpty = es.isEmpty := by
    intro es rs h
    cases Compile.mapM_eq_ok_iff.mp h <;> rfl
  exact ⟨rfl, hlength hgroupBy, hlength hhaving⟩

theorem forall₂_statementItems {ctx : RenderContext} {numbered : Bool} {items : List StatementItem}
    (h : s.statementItems ctx numbered = .ok items)
    : List.Forall₂ (fun item x => item.expr.sql ctx = .ok x.value) s.items items := by
  rw [← List.zipIdx_map_fst 0 s.items, List.forall₂_map_left_iff]
  refine (Compile.mapM_eq_ok_iff.mp h).imp fun a x hx => ?_
  obtain ⟨value, hvalue, hx⟩ := Compile.bind_eq_ok_iff.mp hx
  cases hx
  exact hvalue

theorem exists_identifierTexts {ctx : RenderContext} {numbered : Bool} {items : List StatementItem}
    (h : s.statementItems ctx numbered = .ok items)
    : ∃ keys, s.identifierTexts ctx = .ok keys ∧ keys ⊆ items.map (·.value) := by
  replace h := forall₂_statementItems h
  unfold Select.identifierTexts
  generalize s.items = as at h
  induction h with
  | nil => exact ⟨[], rfl, List.nil_subset _⟩
  | @cons item x _ _ hx _ ih =>
    obtain ⟨keys, hkeys, hsubset⟩ := ih
    cases hidentifier : item.identifier with
    | true =>
      refine ⟨x.value :: keys, by simp [hidentifier, List.mapM_cons, hx, hkeys], ?_⟩
      exact List.cons_subset_cons _ hsubset
    | false =>
      refine ⟨keys, by simp [hidentifier, hkeys], ?_⟩
      exact List.subset_cons_of_subset _ hsubset

end Query

end SqlDialect
