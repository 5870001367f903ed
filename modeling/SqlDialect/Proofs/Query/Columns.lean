import SqlDialect.Profile.Default
import SqlDialect.Proofs.Query.BulkRange
import SqlDialect.Proofs.Query.Nesting
import SqlDialect.Proofs.Query.Statement

/-!
This module contains the columns of selects. A select has a column for each of its items. If a range
that leaves out the first rows is expressed by row numbers, the outermost of the selects around it
passes on the numbers as well, as one more column.
-/

namespace SqlDialect

open Compile (Agree)

/-! ## Selects around a select -/

def Paging.selectsNumber (paging : Paging) (r : RowRange) : Bool :=
  paging = .rowNum && 0 < r.start

def RowNumColumns.columns {α : Type} (cs : List (Option α)) : RowNumColumns → List (Option α)
  | .all => cs
  | .numbered => cs ++ [none]

theorem snd_mem_of_mem_numberRows {α : Type} {condition : Nat → α → Bool} {k : Nat} {as : List α}
    {x : Nat × α} (h : x ∈ numberRows condition k as) : x.2 ∈ as := by
  induction as generalizing k with
  | nil => cases h
  | cons a as ih =>
    rw [numberRows] at h
    split at h
    · rcases List.mem_cons.mp h with rfl | h
      · exact List.mem_cons_self
      · exact List.mem_cons_of_mem a (ih h)
    · exact List.mem_cons_of_mem a (ih h)

namespace RowNumSelect

def columns {α : Type} (items : List α) : RowNumSelect → List (Option α)
  | .inner => items.map some
  | .outer c source _ => c.columns (source.columns items)

theorem of_mem_numberedRows {α β : Type} (items : List β) {rows : List α} {w : RowNumSelect}
    {row : NumberedRow α} (h : row ∈ w.numberedRows rows)
    : row.row ∈ rows ∧ (row.number.isSome = true ↔ none ∈ w.columns items) := by
  induction w generalizing row with
  | inner =>
    obtain ⟨a, ha, rfl⟩ := List.mem_map.mp h
    exact ⟨ha, by simp [columns]⟩
  | outer c source condition ih =>
    obtain ⟨x, hx, rfl⟩ := List.mem_map.mp h
    obtain ⟨hrow, hnumber⟩ := ih (snd_mem_of_mem_numberRows hx)
    cases c with
    | all => exact ⟨hrow, hnumber⟩
    | numbered => exact ⟨hrow, by simp [columns, RowNumColumns.columns, RowNumColumns.row]⟩

theorem columns_ofRange {α : Type} (items : List α) (paging : Paging) (r : RowRange)
    (shape : SelectShape)
    : (ofRange paging r shape).columns items
        =
      items.map some ++ if paging.selectsNumber r then [none] else [] := by
  cases paging with
  | byCaller | limitOffset | limitStartCount | fetchFirst | top =>
    simp [ofRange, Paging.wraps, Paging.selectsNumber, columns]
  | rowNum =>
    by_cases hstart : r.start = 0
    · simp only [ofRange, Paging.selectsNumber, hstart]
      split <;> simp [columns, RowNumColumns.columns]
    · have hwraps : Paging.rowNum.wraps r shape = true := by
        simp [Paging.wraps, Paging.isDirect, RowRange.isAll, hstart]
      have hpos : 0 < r.start := Nat.pos_of_ne_zero hstart
      simp [ofRange, hwraps, Paging.selectsNumber, hstart, hpos, columns, RowNumColumns.columns]

end RowNumSelect

/-! ## Selects without the selects around them -/

structure PlainSelect where
  head : List Token
  items : List StatementItem
  body : Fragment
  tail : List Token

namespace PlainSelect

def render (p : Profile) (x : PlainSelect) : Rendered :=
  (.ofTokens x.head ++ .commaSep (x.items.map (·.fragment)) ++ .ofTokens [.space] ++ x.body
    ++ .ofTokens x.tail : Fragment).render p

def ofParts (p : Profile) (range : RowRange) (shape : SelectShape) (lockClause : Option String)
    (items : List StatementItem) (body : Fragment) : PlainSelect :=
  let rangeAt (position : RangePosition) : List Token :=
    if p.rangePosition = position then p.paging.clause range shape else []
  let lockTokens : List Token :=
    match lockClause with
    | some clause => [.space, .raw clause]
    | none => []
  { head :=
      [.keyword .select] ++ rangeAt .preDistinct
        ++ (if shape.distinct then [.space, .keyword .distinct] else [])
        ++ rangeAt .postDistinct ++ [.space]
    items
    body
    tail := rangeAt .postSelect ++ lockTokens ++ rangeAt .postLock }

theorem sql_selectText {p : Profile} {items : Fragment} {xs : List StatementItem}
    (h : items.render p = (Fragment.commaSep (xs.map (·.fragment))).render p) (range : RowRange)
    (shape : SelectShape) (lockClause : Option String) (body : Fragment)
    : (Query.selectText p range shape lockClause items body).sql
        =
      p.paging.wrap ((ofParts p range shape lockClause xs body).render p).sql range shape := by
  refine congrArg (fun r : Rendered => p.paging.wrap r.sql range shape) ?_
  exact Fragment.render_congr_append (Fragment.render_congr_append (Fragment.render_congr_append
    (Fragment.render_congr_append rfl h) rfl) rfl) rfl

end PlainSelect

namespace Query

def plainSelect (q : Query) (id : ScopeId) (lock : LockRequest) (ctx : RenderContext) :
    Compile PlainSelect := do
  let s ← q.select id
  if s.items.isEmpty then
    throw (.aliasing (.noItems id))
  let shape := q.shape id s
  let lockClause ← q.lockClause? id lock
  let tables ← q.tableCount id
  let items ← s.statementItems ctx (q.profile.paging.wraps s.range shape && 1 < tables)
  let body ← q.body id ctx (tableHint q.profile id lock) shape.ordered
  return .ofParts q.profile s.range shape lockClause items body

variable {q : Query} {id : ScopeId} {lock : LockRequest} {ctx : RenderContext} {s : Select}

theorem agree_plainSelect (hs : q.select id = .ok s) (hctx : ctx.profile = q.profile)
    (lock : LockRequest)
    : Agree
        (fun r x => r.sql = q.profile.paging.wrap (x.render q.profile).sql s.range (q.shape id s))
        (q.renderScope id lock ctx) (q.plainSelect id lock ctx) := by
  unfold plainSelect
  simp only [renderScope_eq, hs, Compile.ok_bind]
  refine .ite (.error _) (.bind_same fun lockClause => .bind_same fun tables => ?_)
  refine (Select.agree_itemList _).bind fun f items hf => .bind_same fun body => .ok ?_
  rw [hctx] at hf
  exact PlainSelect.sql_selectText hf s.range (q.shape id s) lockClause body

theorem forall₂_plainSelect {x : PlainSelect} (hs : q.select id = .ok s)
    (h : q.plainSelect id lock ctx = .ok x)
    : List.Forall₂ (fun item x => item.expr.sql ctx = .ok x.value) s.items x.items := by
  rw [plainSelect, hs, Compile.ok_bind] at h
  split at h
  · cases h
  · obtain ⟨lockClause, _, h⟩ := Compile.bind_eq_ok_iff.mp h
    obtain ⟨tables, _, h⟩ := Compile.bind_eq_ok_iff.mp h
    obtain ⟨items, hitems, h⟩ := Compile.bind_eq_ok_iff.mp h
    obtain ⟨body, _, h⟩ := Compile.bind_eq_ok_iff.mp h
    cases h
    exact forall₂_statementItems hitems

/-! ## Columns of the text of a select -/

/--
The select of a scope has these columns if its text is `sql`. The text is that of the plain select,
which has the items of the scope, with other selects around it, and there is only one way to read it
so. The column `none` is the number of a row.
-/
def HasColumns (q : Query) (id : ScopeId) (lock : LockRequest) (ctx : RenderContext) (sql : String)
    (columns : List (Option SelectItem)) : Prop :=
  ∃ s x around, q.select id = .ok s ∧ q.plainSelect id lock ctx = .ok x
    ∧ List.Forall₂ (fun item x => item.expr.sql ctx = .ok x.value) s.items x.items
    ∧ (∀ w : RowNumSelect, w.text (x.render q.profile).sql = sql ↔ w = around)
    ∧ around.columns s.items = columns

def numberColumn (q : Query) (s : Select) : List (Option SelectItem) :=
  if q.profile.paging.selectsNumber s.range then [none] else []

theorem exists_singleton_iff (q : Query) (s : Select)
    : (∃ item, [some item] = s.items.map some ++ q.numberColumn s)
        ↔
      s.items.length = 1 ∧ q.profile.paging.selectsNumber s.range = false := by
  unfold numberColumn
  cases q.profile.paging.selectsNumber s.range with
  | false => rcases s.items with _ | ⟨item, _ | _⟩ <;> simp
  | true => cases s.items <;> simp

section Rendered

variable {r : Rendered} (hs : q.select id = .ok s) (hctx : ctx.profile = q.profile)
  (h : q.renderScope id lock ctx = .ok r)

include hs hctx h

theorem text_eq_iff {x : PlainSelect} (hx : q.plainSelect id lock ctx = .ok x) (w : RowNumSelect)
    : w.text (x.render q.profile).sql = r.sql
        ↔
      w = .ofRange q.profile.paging s.range (q.shape id s) := by
  rw [(agree_plainSelect hs hctx lock).of_eq_ok h hx, ← RowNumSelect.text_ofRange]
  exact ⟨RowNumSelect.text_injective, congrArg (RowNumSelect.text _)⟩

theorem hasColumns_iff {columns : List (Option SelectItem)}
    : q.HasColumns id lock ctx r.sql columns
        ↔
      columns = s.items.map some ++ q.numberColumn s := by
  obtain ⟨x, hx⟩ := (agree_plainSelect hs hctx lock).exists_ok_iff.mp ⟨r, h⟩
  have htext := text_eq_iff hs hctx h hx
  have hcolumns := RowNumSelect.columns_ofRange s.items q.profile.paging s.range (q.shape id s)
  constructor
  · rintro ⟨s', x', w, hs', hx', _, hw, rfl⟩
    cases hs.symm.trans hs'
    cases hx.symm.trans hx'
    rw [(htext w).mp ((hw w).mpr rfl), hcolumns, numberColumn]
  · rintro rfl
    exact ⟨s, x, _, hs, hx, forall₂_plainSelect hs hx, htext, hcolumns⟩

theorem of_mem_numberedRows {x : PlainSelect} {w : RowNumSelect}
    (hx : q.plainSelect id lock ctx = .ok x) (hw : w.text (x.render q.profile).sql = r.sql)
    {α : Type} {rows : List α} {row : NumberedRow α} (hrow : row ∈ w.numberedRows rows)
    : row.row ∈ rows
        ∧ (row.number.isSome = true ↔ q.profile.paging.selectsNumber s.range = true) := by
  rw [(text_eq_iff hs hctx h hx w).mp hw] at hrow
  have hnumber := RowNumSelect.of_mem_numberedRows s.items hrow
  rw [RowNumSelect.columns_ofRange] at hnumber
  simpa using hnumber

end Rendered

/-! ## Columns of nested selects -/

theorem exists_select_of_inSelect {operand : Expr} {negated : Bool} {f : Fragment} {depth : Nat}
    (hctx : ctx.subselect = q.renderNested depth)
    (h : (Expr.inSelect operand id negated).fragment ctx = .ok f)
    : ∃ g r depth, operand.fragment ctx = .ok g
        ∧ q.renderScope id .unlocked { profile := q.profile, subselect := q.renderNested depth }
            = .ok r
        ∧ f = g ++ .ofTokens (.space :: Expr.negation negated ++ [.keyword .in_, .space])
            ++ (Fragment.ofRendered r).parens := by
  rw [Expr.fragment, hctx] at h
  obtain ⟨g, hg, h⟩ := Compile.bind_eq_ok_iff.mp h
  obtain ⟨r, hr, h⟩ := Compile.bind_eq_ok_iff.mp h
  cases h
  obtain ⟨depth', hr⟩ := exists_renderScope_of_renderNested hr
  exact ⟨g, r, depth', hg, hr, rfl⟩

theorem exists_keyCondition_of_bulk? {action : BulkAction} {table : Table} {b : Rendered}
    (h : q.bulk? action id table = .ok (some b))
    : ∃ scope, q.graph.scope? id = some scope
        ∧ (q.keepsAlias scope.entries.length = true
          ∨ scope.entries.length = 1 ∧ q.hasConditions id = false
          ∨ ∃ head f, q.bulkHead action table = .ok head
              ∧ q.keyCondition id table table.primaryKeyColumns = .ok f
              ∧ b = (head ++ f).render q.profile) := by
  obtain ⟨tables, htables, _⟩ := Compile.bind_eq_ok_iff.mp h
  obtain ⟨scope, hscope, _⟩ := Compile.bind_eq_ok_iff.mp htables
  rw [JoinGraph.scope_eq_ok_iff] at hscope
  refine ⟨scope, hscope, ?_⟩
  rw [bulk?_eq hscope] at h
  split at h
  · next hkeeps => exact .inl hkeeps
  · refine .inr ?_
    rw [nestedBulk?_eq_render] at h
    obtain ⟨head, hhead, h⟩ := Compile.bind_eq_ok_iff.mp h
    dsimp only at h
    split at h
    · next hplain => exact .inl ⟨hplain.1, by simpa using hplain.2⟩
    · split at h
      · obtain ⟨f, hf, h⟩ := Compile.bind_eq_ok_iff.mp h
        cases h
        exact .inr ⟨head, f, hhead, hf, rfl⟩
      · cases h

theorem select_modifySelect (hs : q.select id = .ok s) (f : Select → Select)
    : (q.modifySelect id f).select id = .ok (f s) := by
  rw [select_eq_ok_iff] at hs ⊢
  rw [select?_modifySelect, if_pos rfl, hs]
  rfl

theorem sql_keyOpening (p : Profile) (head : Fragment) (column : String) (r : Rendered)
    : ((head ++ (.ofTokens (keyOpening [column]) ++ (Fragment.ofRendered r).parens)).render p).sql
        =
      (head.render p).sql ++ " WHERE " ++ p.quoteIdentifier column ++ " IN (" ++ r.sql ++ ")" := by
  have hopening : Token.writeAll p (keyOpening [column])
      = " WHERE " ++ p.quoteIdentifier column ++ " IN " := by
    simp [keyOpening, Token.writeAll, Token.write, Keyword.text, ← String.append_assoc]
  have happend : ∀ f g : Fragment, ((f ++ g).render p).sql = (f.render p).sql ++ (g.render p).sql :=
    fun f g => congrArg Rendered.sql (Fragment.render_append f g)
  rw [happend, happend, Fragment.render_parens, Fragment.render_ofRendered]
  change _ ++ (Token.writeAll p (keyOpening [column]) ++ _) = _
  rw [hopening]
  simp [String.append_assoc, ← String.toList_inj]

/-! ## Ranges and columns -/

/--
Whatever its range, the select of a scope has a column for each of its items, in their order. Only
if the range needs row numbers there is one more, the last one, and also a nested select that is to
give one value then gives two.
-/
theorem columns_of_range (q : Query) {id : ScopeId} {s : Select} (hs : q.select id = .ok s)
    : (∀ lock ctx r, ctx.profile = q.profile → q.renderScope id lock ctx = .ok r →
        (∀ columns, q.HasColumns id lock ctx r.sql columns
          ↔ columns = s.items.map some ++ q.numberColumn s)
        ∧ ∀ (x : PlainSelect) (w : RowNumSelect), q.plainSelect id lock ctx = .ok x →
            w.text (x.render q.profile).sql = r.sql →
            ∀ (α : Type) (rows : List α), ∀ row ∈ w.numberedRows rows, row.row ∈ rows
              ∧ (row.number.isSome = true ↔ q.profile.paging.selectsNumber s.range = true))
      ∧ (∀ ctx depth operand negated f, ctx.subselect = q.renderNested depth →
          (Expr.inSelect operand id negated).fragment ctx = .ok f →
          ∃ g r depth, operand.fragment ctx = .ok g
            ∧ f = g ++ .ofTokens (.space :: Expr.negation negated ++ [.keyword .in_, .space])
                ++ (Fragment.ofRendered r).parens
            ∧ let inner : RenderContext :=
                { profile := q.profile, subselect := q.renderNested depth }
              q.renderScope id .unlocked inner = .ok r
                ∧ ((∃ item, q.HasColumns id .unlocked inner r.sql [some item])
                  ↔ s.items.length = 1 ∧ q.profile.paging.selectsNumber s.range = false))
      ∧ (∀ (action : BulkAction) (table : Table) (column : String) (b : Rendered),
          table.primaryKeyColumns = [column] → q.bulk? action id table = .ok (some b) →
          ∃ scope, q.graph.scope? id = some scope
            ∧ (q.keepsAlias scope.entries.length = true
              ∨ scope.entries.length = 1 ∧ q.hasConditions id = false
              ∨ ∃ (head : Fragment) (a : Alias) (r : Rendered), q.bulkHead action table = .ok head
                  ∧ b.sql = (head.render q.profile).sql ++ " WHERE "
                      ++ q.profile.quoteIdentifier column ++ " IN (" ++ r.sql ++ ")"
                  ∧ let keys := q.modifySelect id (keySelect q.profile a table [column])
                    ∀ columns, keys.HasColumns id .unlocked keys.context r.sql columns
                      ↔ columns = some { expr := .column a column } :: q.numberColumn s))
      ∧ (∀ lock c, id = .root → q.render lock = .ok c →
          ∀ columns, q.HasColumns .root lock q.context c.sql columns
            ↔ columns = c.columns.map (fun column => some column.item) ++ q.numberColumn s) := by
  refine ⟨fun lock ctx r hctx hr => ⟨fun columns => hasColumns_iff hs hctx hr, ?_⟩, ?_, ?_, ?_⟩
  · intro x w hx hw α rows row hrow
    exact of_mem_numberedRows hs hctx hr hx hw hrow
  · intro ctx depth operand negated f hctx hf
    obtain ⟨g, r, depth, hg, hr, hf⟩ := exists_select_of_inSelect hctx hf
    refine ⟨g, r, depth, hg, hf, hr, ?_⟩
    simp only [hasColumns_iff hs rfl hr]
    exact exists_singleton_iff q s
  · intro action table column b hkey hb
    obtain ⟨scope, hscope, hkeeps | hplain | ⟨head, f, hhead, hf, rfl⟩⟩ :=
      exists_keyCondition_of_bulk? hb
    · exact ⟨scope, hscope, .inl hkeeps⟩
    · exact ⟨scope, hscope, .inr (.inl hplain)⟩
    · rw [hkey, keyCondition_eq] at hf
      obtain ⟨a, _, hf⟩ := Compile.bind_eq_ok_iff.mp hf
      obtain ⟨r, hr, hf⟩ := Compile.bind_eq_ok_iff.mp hf
      cases hf
      refine ⟨scope, hscope, .inr (.inr ⟨head, a, r, hhead, sql_keyOpening .., ?_⟩)⟩
      intro keys columns
      exact hasColumns_iff (select_modifySelect hs _) rfl hr
  · rintro lock c rfl hc columns
    obtain ⟨r, hr, hc⟩ := Compile.bind_eq_ok_iff.mp hc
    rw [hs] at hc
    cases hc
    have hitems : (s.items.zipIdx.map fun x => some x.1) = s.items.map some := by
      conv_rhs => rw [← List.zipIdx_map_fst 0 s.items, List.map_map]
      rfl
    simp only [hasColumns_iff hs rfl hr, List.map_map, Function.comp_def, hitems]

-- The number of a row follows the columns that the caller is told of.
theorem columns_of_range_numbered
    : let build : Compile Query := do
        let q := Query.new Vendor.oracle.profile
        let (t, q) ← q.fromTable .root { name := "T" }
        let (_, q) ← q.addItem .root { expr := .column t "A" }
        let (_, q) ← q.addItem .root { expr := .column t "B" }
        q.setRange .root { start := 5, stop := some 10 }
      ∃ q s c, build = .ok q ∧ q.select .root = .ok s ∧ q.render .unlocked = .ok c
        ∧ c.sql = "SELECT * FROM (SELECT r.*, ROWNUM RNUM FROM (SELECT t0.A, t0.B FROM T t0) r "
            ++ "WHERE ROWNUM <= 10) WHERE RNUM > 5"
        ∧ c.columns.map (·.index) = [1, 2]
        ∧ q.HasColumns .root .unlocked q.context c.sql
            (c.columns.map (fun column => some column.item) ++ [none]) := by
  intro build
  obtain ⟨q, s, c, hq, hs, hc, hnumber, hsql, hcolumns⟩ : ∃ q s c, build = .ok q
      ∧ q.select .root = .ok s ∧ q.render .unlocked = .ok c ∧ q.numberColumn s = [none]
      ∧ c.sql = "SELECT * FROM (SELECT r.*, ROWNUM RNUM FROM (SELECT t0.A, t0.B FROM T t0) r "
            ++ "WHERE ROWNUM <= 10) WHERE RNUM > 5"
      ∧ c.columns.map (·.index) = [1, 2] :=
    ⟨_, _, _, rfl, rfl, rfl, rfl, by decide +kernel, rfl⟩
  obtain ⟨_, _, _, hroot⟩ := columns_of_range q hs
  refine ⟨q, s, c, hq, hs, hc, hsql, hcolumns, ?_⟩
  rw [hroot .unlocked c rfl hc, hnumber]

-- A value is compared with rows of two columns.
theorem columns_of_range_nested
    : let nested : ScopeId := ⟨1⟩
      let build : Compile Query := do
        let q := Query.new Vendor.oracle.profile
        let (t, q) ← q.fromTable .root { name := "T" }
        let (_, q) ← q.addItem .root { expr := .column t "ID" }
        let (_, q) ← q.subselect .root
        let (u, q) ← q.fromTable nested { name := "U" }
        let (_, q) ← q.addItem nested { expr := .column u "T_ID" }
        let q ← q.setRange nested { start := 5, stop := some 10 }
        q.addCondition .root (.inSelect (.column t "ID") nested false)
      ∃ q c s item r, build = .ok q ∧ q.render .unlocked = .ok c
        ∧ c.sql = "SELECT t0.ID FROM T t0 WHERE t0.ID IN (SELECT * FROM (SELECT r.*, ROWNUM RNUM "
            ++ "FROM (SELECT t1.T_ID FROM U t1) r WHERE ROWNUM <= 10) WHERE RNUM > 5)"
        ∧ q.select nested = .ok s ∧ s.items = [item]
        ∧ q.context.subselect nested = .ok r ∧ q.renderUnlocked nested = .ok r
        ∧ q.HasColumns nested .unlocked q.context r.sql [some item, none] := by
  intro nested build
  obtain ⟨q, c, s, item, r, hq, hc, hs, hitems, hnested, hr, hnumber, hsql⟩ : ∃ q c s item r,
      build = .ok q ∧ q.render .unlocked = .ok c ∧ q.select nested = .ok s ∧ s.items = [item]
      ∧ q.context.subselect nested = .ok r ∧ q.renderUnlocked nested = .ok r
      ∧ q.numberColumn s = [none]
      ∧ c.sql = "SELECT t0.ID FROM T t0 WHERE t0.ID IN (SELECT * FROM (SELECT r.*, ROWNUM RNUM "
            ++ "FROM (SELECT t1.T_ID FROM U t1) r WHERE ROWNUM <= 10) WHERE RNUM > 5)" :=
    ⟨_, _, _, _, _, rfl, rfl, rfl, rfl, rfl, rfl, rfl, by decide +kernel⟩
  refine ⟨q, c, s, item, r, hq, hc, hsql, hs, hitems, hnested, hr, ?_⟩
  rw [hasColumns_iff hs rfl hr, hitems, hnumber]
  rfl

end Query
end SqlDialect
