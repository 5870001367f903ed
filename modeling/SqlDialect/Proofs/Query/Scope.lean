import SqlDialect.Proofs.Expr.Assembly
import SqlDialect.Query.Bulk
import SqlDialect.Query.Count

/-!
This module contains what the text of a select consists of, and which parts of a query have no text:
the order of the single row of an aggregate, and what a query selects when its rows are counted.
-/

namespace SqlDialect

/-! ## Clauses that can be written -/

theorem Paging.isWritable_clause (paging : Paging) (r : RowRange) (shape : SelectShape)
    : ∀ t ∈ paging.clause r shape, t.isWritable = true := by
  unfold clause
  cases paging with
  | byCaller | rowNum => simp
  | limitOffset =>
    simp only [List.forall_mem_append]
    constructor <;> split <;> simp [Token.isWritable]
  | limitStartCount =>
    dsimp only
    split
    · simp
    · simp only [List.forall_mem_append]
      refine ⟨⟨by simp [Token.isWritable], ?_⟩, by simp [Token.isWritable]⟩
      split <;> simp [Token.isWritable]
  | fetchFirst | top =>
    dsimp only
    split <;> simp [Token.isWritable]

namespace Select

variable {s : Select} {ctx : RenderContext} {f : Fragment}

theorem writable_of_mapM {α : Type} {g : α → Compile Fragment} {as : List α} {fs : List Fragment}
    (hg : ∀ a f, g a = .ok f → f.Writable) (h : as.mapM g = .ok fs) : ∀ f ∈ fs, f.Writable := by
  intro f hf
  obtain ⟨a, _, ha⟩ := Compile.exists_of_mem_forall₂ (Compile.mapM_eq_ok_iff.mp h) f hf
  exact hg a f ha

theorem writable_itemList {numbered : Bool} (h : s.itemList ctx numbered = .ok f) : f.Writable := by
  obtain ⟨fs, hfs, h⟩ := Compile.bind_eq_ok_iff.mp h
  cases h
  refine .commaSep (writable_of_mapM (fun a f hf => ?_) hfs)
  obtain ⟨g, hg, hf⟩ := Compile.bind_eq_ok_iff.mp hf
  cases hf
  refine Fragment.writable_append.mpr ⟨Expr.writable_fragment _ hg, ?_⟩
  unfold labelTokens
  split <;> simp [Token.isWritable]

theorem writable_groupByClause (h : s.groupByClause ctx = .ok f) : f.Writable := by
  unfold groupByClause at h
  split at h
  · cases h
    exact Fragment.writable_empty
  · obtain ⟨fs, hfs, h⟩ := Compile.bind_eq_ok_iff.mp h
    cases h
    refine Fragment.writable_append.mpr ⟨by simp [Token.isWritable], .commaSep ?_⟩
    exact writable_of_mapM (fun e f => Expr.writable_fragment e) hfs

theorem writable_havingClause (h : s.havingClause ctx = .ok f) : f.Writable := by
  unfold havingClause at h
  split at h
  · cases h
    exact Fragment.writable_empty
  · obtain ⟨fs, hfs, h⟩ := Compile.bind_eq_ok_iff.mp h
    cases h
    refine Fragment.writable_append.mpr
      ⟨by simp [Token.isWritable], .separated (by simp [Token.isWritable]) ?_⟩
    exact writable_of_mapM (fun e f => Expr.writable_fragment e) hfs

theorem writable_orderByClause (h : s.orderByClause ctx = .ok f) : f.Writable := by
  obtain ⟨fs, hfs, h⟩ := Compile.bind_eq_ok_iff.mp h
  cases h
  refine Fragment.writable_append.mpr
    ⟨by simp [Token.isWritable], .commaSep (writable_of_mapM (fun a f hf => ?_) hfs)⟩
  obtain ⟨g, hg, hf⟩ := Compile.bind_eq_ok_iff.mp hf
  cases hf
  refine Fragment.writable_append.mpr ⟨Expr.writable_fragment _ hg, ?_⟩
  simp [OrderItem.direction, Token.isWritable]

end Select

/-! ## The parts of a select -/

def SelectSource.whereFragment (x : SelectSource) : Fragment :=
  match x.condition with
  | some c => .ofTokens [.space, .keyword .where_, .space] ++ .ofRendered c
  | none => .empty

namespace Query

def bodyText (x : SelectSource) (groupBy having orderBy : Fragment) : Fragment :=
  .ofTokens [.keyword .from_, .space, .raw x.tables] ++ x.whereFragment ++ groupBy ++ having
    ++ orderBy

theorem body_eq {q : Query} {id : ScopeId} {s : Select} (hs : q.select id = .ok s)
    (ctx : RenderContext) (hint : Option String) (ordered : Bool)
    : q.body id ctx hint ordered = do
        let source ← q.source id ctx hint
        let groupBy ← s.groupByClause ctx
        let having ← s.havingClause ctx
        let orderBy ← (if ordered then s.orderByClause ctx else pure .empty : Compile Fragment)
        return bodyText source groupBy having orderBy := by
  simp only [body, hs, Compile.ok_bind]
  cases ordered <;> rfl

def forUpdate (id : ScopeId) (lock : LockRequest) : Bool := lock.forUpdate && id == .root

def lockClause? (q : Query) (id : ScopeId) (lock : LockRequest) : Compile (Option String) := do
  if forUpdate id lock then
    (← q.lockTarget id lock).check q.profile
  q.profile.locking.clause? q.profile lock.effectiveIsolation? (forUpdate id lock) (id ≠ .root)

def tableHint (p : Profile) (id : ScopeId) (lock : LockRequest) : Option String :=
  if forUpdate id lock && !p.requirements.simulateLocking then p.clauses.tableForUpdate else none

def selectFragment (p : Profile) (range : RowRange) (shape : SelectShape)
    (lockClause : Option String) (items body : Fragment) : Fragment :=
  let rangeAt (position : RangePosition) : List Token :=
    if p.rangePosition = position then p.paging.clause range shape else []
  let head :=
    [.keyword .select] ++ rangeAt .preDistinct
      ++ (if shape.distinct then [.space, .keyword .distinct] else [])
      ++ rangeAt .postDistinct ++ [.space]
  let lockTokens :=
    match lockClause with
    | some clause => [.space, .raw clause]
    | none => []
  let tail := rangeAt .postSelect ++ lockTokens ++ rangeAt .postLock
  .ofTokens head ++ items ++ .ofTokens [.space] ++ body ++ .ofTokens tail

def selectText (p : Profile) (range : RowRange) (shape : SelectShape) (lockClause : Option String)
    (items body : Fragment) : Rendered :=
  let inner := (selectFragment p range shape lockClause items body).render p
  { inner with sql := p.paging.wrap inner.sql range shape }

theorem writable_selectFragment {p : Profile} {range : RowRange} {shape : SelectShape}
    {lockClause : Option String} {items body : Fragment} (hitems : items.Writable)
    (hbody : body.Writable)
    : (selectFragment p range shape lockClause items body).Writable := by
  have hrange (position : RangePosition)
      : ∀ t ∈ (if p.rangePosition = position then p.paging.clause range shape else []),
        t.isWritable = true := by
    split
    · exact p.paging.isWritable_clause range shape
    · simp
  simp only [selectFragment, Fragment.writable_append, Fragment.writable_ofTokens,
    List.forall_mem_append]
  refine ⟨⟨⟨⟨⟨⟨⟨⟨by simp [Token.isWritable], hrange _⟩, ?_⟩, hrange _⟩, ?_⟩, hitems⟩, ?_⟩, hbody⟩,
    ⟨hrange _, ?_⟩, hrange _⟩
  · split <;> simp [Token.isWritable]
  · simp [Token.isWritable]
  · simp [Token.isWritable]
  · split <;> simp [Token.isWritable]

theorem writable_whereFragment (x : SelectSource) : x.whereFragment.Writable := by
  unfold SelectSource.whereFragment
  split <;> simp [Token.isWritable]

theorem writable_body {q : Query} {id : ScopeId} {ctx : RenderContext} {hint : Option String}
    {ordered : Bool} {f : Fragment} (h : q.body id ctx hint ordered = .ok f) : f.Writable := by
  obtain ⟨s, hs, _⟩ := Compile.bind_eq_ok_iff.mp h
  rw [body_eq hs] at h
  obtain ⟨source, _, h⟩ := Compile.bind_eq_ok_iff.mp h
  obtain ⟨groupBy, hgroupBy, h⟩ := Compile.bind_eq_ok_iff.mp h
  obtain ⟨having, hhaving, h⟩ := Compile.bind_eq_ok_iff.mp h
  obtain ⟨orderBy, horderBy, h⟩ := Compile.bind_eq_ok_iff.mp h
  cases h
  have hordered : orderBy.Writable := by
    split at horderBy
    · exact Select.writable_orderByClause horderBy
    · cases horderBy
      exact Fragment.writable_empty
  simp only [bodyText, Fragment.writable_append]
  exact ⟨⟨⟨⟨by simp [Token.isWritable], writable_whereFragment source⟩,
    Select.writable_groupByClause hgroupBy⟩, Select.writable_havingClause hhaving⟩, hordered⟩

theorem renderScope_eq (q : Query) (id : ScopeId) (lock : LockRequest) (ctx : RenderContext)
    : q.renderScope id lock ctx = do
        let s ← q.select id
        if s.items.isEmpty then
          throw (.aliasing (.noItems id))
        let lockClause ← q.lockClause? id lock
        let tables ← q.tableCount id
        let items ← s.itemList ctx (q.profile.paging.wraps s.range (q.shape id s) && 1 < tables)
        let body ← q.body id ctx (tableHint q.profile id lock) (q.shape id s).ordered
        return selectText q.profile s.range (q.shape id s) lockClause items body := by
  have hparts : q.renderScope id lock ctx = do
      let s ← q.select id
      if s.items.isEmpty then
        throw (.aliasing (.noItems id))
      let lockClause ← q.lockClause? id lock
      let tables ← q.tableCount id
      let items ← s.itemList ctx (q.profile.paging.wraps s.range (q.shape id s) && 1 < tables)
      let body ← q.body id ctx (tableHint q.profile id lock) (q.shape id s).ordered
      let select := selectFragment q.profile s.range (q.shape id s) lockClause items body
      let inner ← select.serialize q.profile
      return { inner with sql := q.profile.paging.wrap inner.sql s.range (q.shape id s) } := by
    unfold renderScope lockClause?
    cases hselect : q.select id with
    | error e => rfl
    | ok s =>
      simp only [Compile.ok_bind]
      split
      · rfl
      · change (if forUpdate id lock then _ else _) = _
        split
        · simp only [bind_assoc]
          rfl
        · rfl
  rw [hparts]
  refine Compile.bind_congr_of_ok fun s _ => ?_
  split
  · exact (Compile.error_bind _ _).trans (Compile.error_bind _ _).symm
  · refine Compile.bind_congr_of_ok fun lockClause _ => Compile.bind_congr_of_ok fun tables _ => ?_
    refine Compile.bind_congr_of_ok fun items hitems => ?_
    refine Compile.bind_congr_of_ok fun body hbody => ?_
    have hselect
        : (selectFragment q.profile s.range (q.shape id s) lockClause items body).Writable :=
      writable_selectFragment (Select.writable_itemList hitems) (writable_body hbody)
    simp only [Fragment.serialize_eq_ok hselect]
    rfl

theorem renderNested_congr {q q' : Query} (hprofile : q'.profile = q.profile)
    (h : ∀ id, id ≠ .root → ∀ ctx, q'.renderScope id .unlocked ctx = q.renderScope id .unlocked ctx)
    (depth : Nat) : q'.renderNested depth = q.renderNested depth := by
  funext id
  induction depth generalizing id with
  | zero => rfl
  | succ depth ih =>
    have hnested : q'.renderNested depth = q.renderNested depth := funext ih
    rw [renderNested, renderNested, hnested, hprofile]
    split
    · rfl
    · next hid => rw [h id hid]

-- Expressions never see the text of the root.
theorem context_congr {q q' : Query} (hprofile : q'.profile = q.profile)
    (hlength : q'.selects.length = q.selects.length)
    (h : ∀ id, id ≠ .root → ∀ ctx, q'.renderScope id .unlocked ctx = q.renderScope id .unlocked ctx)
    : q'.context = q.context := by
  rw [context, context, renderNested_congr hprofile h, hlength, hprofile]

def keyComparisonText (p : Profile) (a : Alias) (table : Table) (column : String) : String :=
  Token.writeAll p
    (Token.column a column ++ [.raw " = ", .ident table.fullName, .symbol .dot, .ident column])

theorem keyComparison_eq_ok (p : Profile) (a : Alias) (table : Table) (column : String)
    : keyComparison p a table column = .ok (keyComparisonText p a table column) :=
  Token.serializeAll_eq_ok (by simp [Token.column, Token.isWritable])

def keySelect (p : Profile) (a : Alias) (table : Table) (key : List String) (s : Select) : Select :=
  match key with
  | [column] =>
    { s with items := [{ expr := .column a column }], orderBy := [], distinct := true }
  | _ =>
    let correlation := " AND ".intercalate (key.map (keyComparisonText p a table))
    { s with
      items := [{ expr := .literal (.int 1) }]
      orderBy := []
      distinct := false
      autoDistinct := false
      conditions := s.conditions ++ [.raw s!"({correlation})"] }

def keyOpening : List String → List Token
  | [column] => [.space, .keyword .where_, .space, .ident column, .space, .keyword .in_, .space]
  | _ => [.space, .keyword .where_, .space, .keyword .exists_, .space]

theorem keyCondition_eq (q : Query) (id : ScopeId) (table : Table) (key : List String)
    : q.keyCondition id table key = do
        let a ← q.graph.aliasOf id table .root
        let inner ← (q.modifySelect id (keySelect q.profile a table key)).renderUnlocked id
        return .ofTokens (keyOpening key) ++ (Fragment.ofRendered inner).parens := by
  have hkey (a : Alias) : key.mapM (keyComparison q.profile a table)
      = .ok (key.map (keyComparisonText q.profile a table)) :=
    Compile.mapM_eq_ok_map fun column => keyComparison_eq_ok q.profile a table column
  unfold keyCondition keySelect keyOpening
  match key with
  | [_] => rfl
  | [] => rfl
  | _ :: _ :: _ =>
    simp only [hkey, Compile.ok_bind]
    rfl

/-! ## Counts and changes of rows -/

theorem writable_directCount? {q : Query} {s : Select} {count : Fragment}
    (h : q.directCount? s = .ok (some count)) : count.Writable := by
  have hexpr : ∀ {e : Expr}, (do return some (← e.fragment q.context)) = Except.ok (some count) →
      count.Writable := by
    intro e h
    obtain ⟨f, hf, h⟩ := Compile.bind_eq_ok_iff.mp h
    cases h
    exact Expr.writable_fragment e hf
  unfold directCount? at h
  split at h
  · cases h
  · split at h
    · exact hexpr h
    · split at h
      · exact hexpr h
      · exact hexpr h
      · cases h
      · obtain ⟨columns, _, h⟩ := Compile.bind_eq_ok_iff.mp h
        cases h
        simp [Fragment.Writable, Token.isWritable]

theorem renderCount_eq (q : Query)
    : q.renderCount = do
        let s ← q.select .root
        let r : Rendered ←
          match ← q.directCount? s with
          | some count => do
            let body ← q.body .root q.context none false
            let head : Fragment :=
              .ofTokens [.keyword .select, .space] ++ count ++ .ofTokens [.space]
            pure ((head ++ body).render q.profile)
          | none => do
            q.profile.require .subselect
            let inner ← q.renderUnlocked .root
            let name := if q.profile.requirements.aliasForSubselect then " s" else ""
            pure { inner with sql := s!"SELECT COUNT(*) FROM ({inner.sql}){name}" }
        return {
          sql := r.sql
          params := r.params
          columns := [⟨1, { expr := countRows }⟩]
          skipRows := 0
          maxRows := none } := by
  unfold renderCount
  refine Compile.bind_congr_of_ok fun s _ => Compile.bind_congr_of_ok fun count hcount => ?_
  cases count with
  | none => rfl
  | some count =>
    refine Compile.bind_congr_of_ok fun body hbody => ?_
    have hselect : (.ofTokens [.keyword .select, .space] ++ count ++ .ofTokens [.space] ++ body
        : Fragment).Writable := by
      simp only [Fragment.writable_append]
      exact ⟨⟨⟨by simp [Token.isWritable], writable_directCount? hcount⟩,
        by simp [Token.isWritable]⟩, writable_body hbody⟩
    simp only [Fragment.serialize_eq_ok hselect]
    rfl

theorem writable_setClause {action : BulkAction} {ctx : RenderContext} {qualifier : Option Alias}
    {set : Fragment} (h : action.setClause ctx qualifier = .ok set) : set.Writable := by
  cases action with
  | delete =>
    cases h
    exact Fragment.writable_empty
  | update assignments =>
    obtain ⟨parts, hparts, h⟩ := Compile.bind_eq_ok_iff.mp h
    cases h
    refine Fragment.writable_append.mpr ⟨by simp [Token.isWritable], .commaSep fun part hpart => ?_⟩
    obtain ⟨⟨column, value⟩, _, hpart⟩ :=
      Compile.exists_of_mem_forall₂ (Compile.mapM_eq_ok_iff.mp hparts) part hpart
    obtain ⟨f, hf, hpart⟩ := Compile.bind_eq_ok_iff.mp hpart
    cases hpart
    refine Fragment.writable_append.mpr ⟨?_, Expr.writable_fragment value hf⟩
    cases qualifier <;> simp [Token.column, Token.isWritable]

theorem writable_bulkHead {q : Query} {action : BulkAction} {table : Table} {head : Fragment}
    (h : q.bulkHead action table = .ok head) : head.Writable := by
  obtain ⟨set, hset, h⟩ := Compile.bind_eq_ok_iff.mp h
  cases h
  refine Fragment.writable_append.mpr ⟨?_, writable_setClause hset⟩
  cases action <;> simp [Token.isWritable]

theorem aliasedBulk_eq (q : Query) (action : BulkAction) (id : ScopeId) (table : Table)
    : q.aliasedBulk action id table = do
        let a ← q.graph.aliasOf id table .root
        let set ← action.setClause q.context a
        let source ← q.source id q.context none
        let head :=
          match action with
          | .update _ => [.keyword .update, .space, .raw source.tables]
          | .delete =>
            let target :=
              if q.profile.requirements.targetForDelete then [.tableAlias a, .space] else []
            [.keyword .delete, .space] ++ target ++ [.keyword .from_, .space, .raw source.tables]
        return (.ofTokens head ++ set ++ source.whereFragment : Fragment).render
          q.profile := by
  refine Compile.bind_congr_of_ok fun a _ => Compile.bind_congr_of_ok fun set hset =>
    Compile.bind_congr_of_ok fun source _ => Fragment.serialize_eq_ok ?_
  refine Fragment.writable_append.mpr ⟨Fragment.writable_append.mpr ⟨?_, writable_setClause hset⟩,
    writable_whereFragment source⟩
  cases action with
  | update => simp [Token.isWritable]
  | delete => cases q.profile.requirements.targetForDelete <;> simp [Token.isWritable]

theorem nestedBulk?_eq_render (q : Query) (action : BulkAction) (id : ScopeId) (table : Table)
    (tables : Nat)
    : q.nestedBulk? action id table tables = do
        let p := q.profile
        let head ← q.bulkHead action table
        let key := table.primaryKeyColumns
        if tables = 1 ∧ ¬ q.hasConditions id then
          return some (head.render p)
        if p.supports .subselect && p.supports .correlatedSubselect && !key.isEmpty then
          return some ((head ++ (← q.keyCondition id table key)).render p)
        else
          return none := by
  refine Compile.bind_congr_of_ok fun head hhead => ?_
  have hhead := writable_bulkHead hhead
  simp only [Fragment.serialize_eq_ok hhead]
  split
  · rfl
  · split
    · rw [keyCondition_eq]
      simp only [bind_assoc]
      refine Compile.bind_congr_of_ok fun a _ => Compile.bind_congr_of_ok fun inner _ => ?_
      have hkey : (head ++ (.ofTokens (keyOpening table.primaryKeyColumns)
          ++ (Fragment.ofRendered inner).parens)).Writable := by
        simp only [Fragment.writable_append, Fragment.writable_parens, Fragment.writable_ofRendered,
          and_true]
        refine ⟨hhead, ?_⟩
        unfold keyOpening
        split <;> simp [Token.isWritable]
      simp only [Compile.pure_eq_ok, Compile.ok_bind, Fragment.serialize_eq_ok hkey]
    · rfl

end Query

/-! ## Orders without text -/

theorem modify_map_of_comm {α : Type} {f g : α → α} (h : ∀ a, f (g a) = g (f a)) (as : List α)
    (i : Nat) : (as.map g).modify i f = (as.modify i f).map g := by
  apply List.ext_getElem?
  intro j
  simp only [List.getElem?_modify, List.getElem?_map]
  cases as[j]? with
  | none => rfl
  | some a =>
    split
    · exact congrArg some (h a)
    · rfl

/--
A select without its order if that does not matter.
-/
def Select.emitted (s : Select) : Select :=
  { s with orderBy := if s.isOrdered then s.orderBy else [] }

def Query.emitted (q : Query) : Query := { q with selects := q.selects.map (·.emitted) }

@[simp]
theorem Select.isOrdered_emitted (s : Select) : s.emitted.isOrdered = s.isOrdered := by
  unfold emitted
  cases h : s.isOrdered with
  | true => exact h
  | false => rfl

namespace Query

variable {q : Query}

theorem select?_emitted (q : Query) (id : ScopeId)
    : q.emitted.select? id = (q.select? id).map (·.emitted) :=
  List.getElem?_map

@[simp]
theorem isDistinct_emitted (id : ScopeId) : q.emitted.isDistinct id = q.isDistinct id := by
  simp only [isDistinct, select?_emitted]
  cases q.select? id <;> rfl

@[simp]
theorem shape_emitted (id : ScopeId) (s : Select)
    : q.emitted.shape id s.emitted = q.shape id s := by
  simp only [shape, isDistinct_emitted, Select.isOrdered_emitted]
  rfl

theorem lockClause?_emitted (id : ScopeId) (lock : LockRequest)
    : q.emitted.lockClause? id lock = q.lockClause? id lock := by
  have htarget : q.emitted.lockTarget id lock = q.lockTarget id lock := by
    simp only [lockTarget, select, select?_emitted]
    cases q.select? id with
    | none => rfl
    | some s =>
      simp only [Option.map_some, Compile.ok_bind, shape_emitted]
      rfl
  simp only [lockClause?, htarget]
  rfl

theorem source_emitted (id : ScopeId) (ctx : RenderContext) (hint : Option String)
    : q.emitted.source id ctx hint = q.source id ctx hint := by
  simp only [source, select, select?_emitted]
  cases q.select? id with
  | none => rfl
  | some s =>
    simp only [Option.map_some, Compile.ok_bind, shape_emitted]
    rfl

theorem body_emitted {id : ScopeId} {s : Select} (hs : q.select? id = some s) (ordered : Bool)
    (hordered : ordered → s.isOrdered) (ctx : RenderContext) (hint : Option String)
    : q.emitted.body id ctx hint ordered = q.body id ctx hint ordered := by
  simp only [body, source_emitted, select, select?_emitted, hs]
  -- Only an order that is asked for is looked at, and then it has been kept.
  cases ordered with
  | false => rfl
  | true =>
    have hs : s.emitted = s := by simp [Select.emitted, hordered rfl]
    simp only [Option.map_some, hs]

theorem renderScope_emitted (id : ScopeId) (lock : LockRequest) (ctx : RenderContext)
    : q.emitted.renderScope id lock ctx = q.renderScope id lock ctx := by
  rw [renderScope_eq, renderScope_eq, lockClause?_emitted]
  simp only [select, select?_emitted]
  cases hs : q.select? id with
  | none => rfl
  | some s =>
    have hbody := body_emitted hs (q.shape id s).ordered (fun h => h)
    simp only [Option.map_some, Compile.ok_bind, shape_emitted, hbody]
    rfl

theorem context_emitted : q.emitted.context = q.context :=
  context_congr rfl (List.length_map _) fun id _ ctx => renderScope_emitted id .unlocked ctx

theorem render_emitted (lock : LockRequest) : q.emitted.render lock = q.render lock := by
  simp only [render, context_emitted, renderScope_emitted, select, select?_emitted]
  cases hs : q.select? .root with
  | none => rfl
  | some s =>
    simp only [Option.map_some, Compile.ok_bind, shape_emitted]
    rfl

theorem renderCount_emitted : q.emitted.renderCount = q.renderCount := by
  simp only [renderCount, directCount?, identifiers, isDistinct_emitted, renderUnlocked,
    context_emitted, renderScope_emitted, select, select?_emitted]
  cases hs : q.select? .root with
  | none => rfl
  | some s =>
    have hbody := body_emitted hs false (fun h => by cases h)
    simp only [Option.map_some, Compile.ok_bind, hbody]
    rfl

theorem modifySelect_emitted (id : ScopeId) {f : Select → Select}
    (hf : ∀ s, f s.emitted = (f s).emitted)
    : q.emitted.modifySelect id f = (q.modifySelect id f).emitted := by
  simp only [modifySelect, emitted, modify_map_of_comm hf]

theorem hasConditions_emitted (id : ScopeId) : q.emitted.hasConditions id = q.hasConditions id := by
  simp only [hasConditions, select?_emitted]
  cases q.select? id <;> rfl

theorem keyCondition_emitted (id : ScopeId) (table : Table) (key : List String)
    : q.emitted.keyCondition id table key = q.keyCondition id table key := by
  have hkey : ∀ a s, keySelect q.profile a table key s.emitted
      = (keySelect q.profile a table key s).emitted := by
    intro a s
    unfold keySelect Select.emitted
    split <;> simp
  have hrender : ∀ a,
      (q.emitted.modifySelect id (keySelect q.profile a table key)).renderUnlocked id
        =
      (q.modifySelect id (keySelect q.profile a table key)).renderUnlocked id := by
    intro a
    rw [modifySelect_emitted id (hkey a), renderUnlocked, context_emitted, renderScope_emitted]
    rfl
  rw [keyCondition_eq, keyCondition_eq]
  change (q.graph.aliasOf id table .root >>= fun a =>
    (q.emitted.modifySelect id (keySelect q.profile a table key)).renderUnlocked id >>= _) = _
  simp only [hrender]

theorem nestedBulk?_emitted (action : BulkAction) (id : ScopeId) (table : Table) (tables : Nat)
    : q.emitted.nestedBulk? action id table tables = q.nestedBulk? action id table tables := by
  simp only [nestedBulk?, bulkHead, context_emitted, hasConditions_emitted, keyCondition_emitted]
  rfl

theorem bulk?_emitted (action : BulkAction) (id : ScopeId) (table : Table)
    : q.emitted.bulk? action id table = q.bulk? action id table := by
  have haliased : q.emitted.aliasedBulk action id table = q.aliasedBulk action id table := by
    simp only [aliasedBulk, context_emitted, source_emitted]
    rfl
  simp only [bulk?, haliased, nestedBulk?_emitted]
  rfl

/-! ## Items without text -/

def countedItems (q : Query) (s : Select) : List SelectItem :=
  if q.profile.requirements.wildcardForCount || !q.isDistinct .root then
    []
  else
    s.items.filter (·.identifier)

def counted (q : Query) : Query :=
  q.modifySelect .root fun s => { s with items := q.countedItems s }

theorem select?_counted_root
    : q.counted.select? .root
        =
      (q.select? .root).map fun s => { s with items := q.countedItems s } := by
  simp only [counted, modifySelect, select?, List.getElem?_modify, if_true]
  rfl

theorem select?_counted {id : ScopeId} (h : id ≠ .root) : q.counted.select? id = q.select? id := by
  have hindex : ScopeId.root.index ≠ id.index := by
    intro hindex
    cases id
    exact h (congrArg ScopeId.mk hindex.symm)
  simp only [counted, modifySelect, select?, List.getElem?_modify, hindex, if_false]
  exact Option.map_id'

theorem renderScope_counted {id : ScopeId} (h : id ≠ .root) (lock : LockRequest)
    (ctx : RenderContext) : q.counted.renderScope id lock ctx = q.renderScope id lock ctx := by
  have hdistinct : q.counted.isDistinct id = q.isDistinct id := by
    simp only [isDistinct, select?_counted h]
    rfl
  simp only [renderScope_eq, lockClause?, lockTarget, body, source, shape, select, hdistinct,
    select?_counted h]
  rfl

theorem context_counted : q.counted.context = q.context :=
  context_congr rfl (List.length_modify _ _ _) fun _ h ctx => renderScope_counted h .unlocked ctx

theorem isDistinct_counted : q.counted.isDistinct .root = q.isDistinct .root := by
  simp only [isDistinct, select?_counted_root]
  cases q.select? .root <;> rfl

theorem directCount?_counted (s : Select)
    : q.counted.directCount? { s with items := q.countedItems s } = q.directCount? s := by
  -- Without a wildcard the count refers to the identifiers, which are all among the counted items.
  cases hwildcard : q.profile.requirements.wildcardForCount with
  | true =>
    have hwildcard' : q.counted.profile.requirements.wildcardForCount = true := hwildcard
    simp only [directCount?, context_counted, hwildcard, hwildcard', if_true]
  | false =>
    have hidentifiers : q.counted.identifiers { s with items := q.countedItems s }
        = q.identifiers s := by
      simp only [identifiers, isDistinct_counted, countedItems, hwildcard]
      cases q.isDistinct .root <;> simp
    simp only [directCount?, context_counted, hidentifiers]
    rfl

theorem isAll_of_directCount? {s : Select} {count : Fragment}
    (h : q.directCount? s = .ok (some count)) : s.range.isAll := by
  cases hrange : s.range.isAll with
  | true => rfl
  | false => simp [directCount?, hrange] at h

theorem condition?_of_isAll {r : RowRange} (h : r.isAll) (paging : Paging) (shape : SelectShape)
    : paging.condition? r shape = none := by
  have hstop : r.stop = none := by
    simp only [RowRange.isAll, Bool.and_eq_true, Option.isNone_iff_eq_none] at h
    exact h.2
  cases paging <;> simp [Paging.condition?, RowRange.upper?, hstop]

theorem renderCount_counted {s : Select} {count : Fragment} (hs : q.select .root = .ok s)
    (hcount : q.directCount? s = .ok (some count)) : q.counted.renderCount = q.renderCount := by
  have hs? : q.select? .root = some s := by
    unfold select at hs
    cases hs? : q.select? .root with
    | none => simp [hs?] at hs
    | some s' => simp_all
  have hselect : q.counted.select .root = .ok { s with items := q.countedItems s } := by
    rw [select, select?_counted_root, hs?]
    rfl
  have hrange := condition?_of_isAll (isAll_of_directCount? hcount)
  have hbody : q.counted.body .root q.context none false = q.body .root q.context none false := by
    simp only [body, source, hs, hselect, Compile.ok_bind, hrange]
    rfl
  simp only [renderCount, hs, hselect, Compile.ok_bind, directCount?_counted, hcount,
    context_counted, hbody]
  rfl

end Query
end SqlDialect
