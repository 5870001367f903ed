import SqlDialect.Profile.Default
import SqlDialect.Proofs.Expr.Places
import SqlDialect.Proofs.Text.Literals

/-!
This module contains what the contents of string literals can do to the text of an expression. They
stay inside the literals: two expressions that differ in nothing else have texts that differ in
nothing else.
-/

namespace SqlDialect

open Text (QuoteFree quoteFree_toString)

/-! ## Text without quotes -/

theorem ne_quote_of_isDigit {c : Char} (h : c.isDigit) : c ≠ '\'' := by
  rintro rfl
  exact absurd h (by decide)

theorem quoteFree_ofDigits {cs : List Char} (h : ∀ c ∈ cs, c.isDigit)
    : QuoteFree (String.ofList cs) :=
  QuoteFree.ofList fun hmem => ne_quote_of_isDigit (h _ hmem) rfl

theorem isDigit_of_mem_toDigits (n : Nat) : ∀ c ∈ Nat.toDigits 10 n, c.isDigit :=
  fun _ hc => Nat.isDigit_of_mem_toDigits (by decide) (by decide) hc

theorem quoteFree_nat (n : Nat) : QuoteFree (toString n) := by
  rw [Nat.toString_eq_ofList_toDigits]
  exact quoteFree_ofDigits (isDigit_of_mem_toDigits n)

theorem quoteFree_int (n : Int) : QuoteFree (toString n) := by
  cases n with
  | ofNat n => exact quoteFree_nat n
  | negSucc n =>
    have hminus : QuoteFree "-" := by decide
    exact hminus.append (quoteFree_nat (n + 1))

namespace DecimalLayout

theorem quoteFree_zeros (n : Nat) : QuoteFree (zeros n) := by
  apply QuoteFree.ofList
  simp

theorem quoteFree_write (layout : DecimalLayout) (d : Decimal) : QuoteFree (layout.write d) := by
  have hdigits := isDigit_of_mem_toDigits d.digits
  have hpoint : QuoteFree "." := by decide
  unfold write
  dsimp only
  split
  · split
    · exact ((quoteFree_ofDigits hdigits).append (quoteFree_zeros _)).append (by decide)
    · split
      · refine ((quoteFree_ofDigits ?_).append hpoint).append (quoteFree_ofDigits ?_)
        · exact fun c hc => hdigits c (List.mem_of_mem_take hc)
        · exact fun c hc => hdigits c (List.mem_of_mem_drop hc)
      · have hzero : QuoteFree "0." := by decide
        exact (hzero.append (quoteFree_zeros _)).append (quoteFree_ofDigits hdigits)
  · have hletter : QuoteFree "e" := by decide
    apply QuoteFree.append (QuoteFree.append _ hletter) (quoteFree_int _)
    split
    · decide
    · next c hdigits' =>
      rw [hdigits'] at hdigits
      exact quoteFree_toString (ne_quote_of_isDigit (hdigits c (by simp)))
    · next c cs _ hdigits' =>
      rw [hdigits'] at hdigits
      have hc := quoteFree_toString (ne_quote_of_isDigit (hdigits c List.mem_cons_self))
      exact (hc.append hpoint).append
        (quoteFree_ofDigits fun c hc => hdigits c (List.mem_cons_of_mem _ hc))

theorem quoteFree_writeFloat (layout : DecimalLayout) (x : FiniteBinary64)
    : QuoteFree (layout.writeFloat x) := by
  unfold writeFloat
  apply QuoteFree.append
  · split <;> decide
  · split
    · decide
    · exact quoteFree_write layout _

end DecimalLayout

theorem Text.mem_of_mem_double {close c : Char} {cs : List Char} (h : c ∈ double close cs)
    : c ∈ cs := by
  induction cs with
  | nil => exact h
  | cons d cs ih => grind [double]

theorem Text.quoteFree_quote {opening closing : Char} (hopening : opening ≠ '\'')
    (hclosing : closing ≠ '\'') {s : String} (hs : QuoteFree s)
    : QuoteFree (quote opening closing s) := by
  have hdouble : '\'' ∉ double closing s.toList := fun h => hs (mem_of_mem_double h)
  unfold QuoteFree
  rw [toList_quote]
  simp [hdouble, hopening.symm, hclosing.symm]

theorem QuoteStyle.opening_ne_quote (q : QuoteStyle) : q.opening ≠ '\'' := by
  cases q <;> decide

theorem QuoteStyle.closing_ne_quote (q : QuoteStyle) : q.closing ≠ '\'' := by
  cases q <;> decide

theorem quoteFree_alias (a : Alias) : QuoteFree (toString a) := by
  have hletter : QuoteFree "t" := by decide
  exact hletter.append (quoteFree_nat a.index)

theorem Profile.quoteFree_quoteIdentifier (p : Profile) {name : String} (h : QuoteFree name)
    : QuoteFree (p.quoteIdentifier name) := by
  unfold quoteIdentifier
  split
  · exact Text.quoteFree_quote p.naming.quoteStyle.opening_ne_quote
      p.naming.quoteStyle.closing_ne_quote h
  · exact h

theorem Profile.quoteFree_formatBool (p : Profile) (b : Bool) : QuoteFree (p.formatBool b) := by
  unfold formatBool
  cases p.functions.booleanStyle <;> cases b <;> decide

namespace Token

theorem quoteFree_keyword (word : Keyword) : QuoteFree word.text := by
  cases word <;> decide

theorem quoteFree_symbol (s : Symbol) : QuoteFree s.text := by
  cases s <;> decide

theorem quoteFree_write {p : Profile} {t : Token} (h : t.isFixed) : QuoteFree (t.write p) := by
  cases t with
  | keyword word => exact quoteFree_keyword word
  | symbol s => exact quoteFree_symbol s
  | space => exact show QuoteFree " " by decide
  | param => exact show QuoteFree "?" by decide
  | _ => cases h

theorem quoteFree_writeAll {p : Profile} {ts : List Token} (h : ∀ t ∈ ts, QuoteFree (t.write p))
    : QuoteFree (writeAll p ts) := by
  apply QuoteFree.join
  intro text htext
  obtain ⟨t, ht, rfl⟩ := List.mem_map.mp htext
  exact h t ht

theorem quoteFree_writeAll_of_isFixed {p : Profile} {ts : List Token} (h : ∀ t ∈ ts, t.isFixed)
    : QuoteFree (writeAll p ts) :=
  quoteFree_writeAll fun t ht => quoteFree_write (h t ht)

theorem quoteFree_floatText (x : Binary64) : QuoteFree (floatText x) := by
  unfold floatText
  split
  · exact floatLayout.quoteFree_writeFloat _
  · unfold Binary64.specialName
    split
    · decide
    · split <;> decide

end Token

/-! ## Fragments -/

structure Rendered.Alike (r s : Rendered) : Prop where
  sql : Text.Alike r.sql s.sql
  params : r.params = s.params

def Fragment.Alike (p : Profile) (f g : Fragment) : Prop := (f.render p).Alike (g.render p)

namespace Rendered

theorem Alike.flatMap_params {rs ss : List Rendered} (h : List.Forall₂ Alike rs ss)
    : rs.flatMap (·.params) = ss.flatMap (·.params) := by
  induction h with
  | nil => rfl
  | cons head _ ih => rw [List.flatMap_cons, List.flatMap_cons, head.params, ih]

theorem Alike.texts {rs ss : List Rendered} (h : List.Forall₂ Alike rs ss)
    : List.Forall₂ Text.Alike (rs.map (·.sql)) (ss.map (·.sql)) := by
  rw [List.forall₂_map_left_iff, List.forall₂_map_right_iff]
  exact h.imp fun _ _ h => h.sql

theorem Alike.text {t : String} (h : QuoteFree t) (params : List String)
    : Alike ⟨t, params⟩ ⟨t, params⟩ :=
  ⟨.text h, rfl⟩

end Rendered

namespace Fragment

namespace Alike

variable {p : Profile} {f f' g g' : Fragment}

theorem ofTokens {ts : List Token} (h : QuoteFree (Token.writeAll p ts))
    : Alike p (.ofTokens ts) (.ofTokens ts) :=
  .text h []

theorem string (s s' : String) : Alike p (.ofTokens [.string s]) (.ofTokens [.string s']) := by
  refine ⟨?_, rfl⟩
  simpa [render, Fragment.ofTokens, Token.writeAll, Token.write] using Text.Alike.quoteString s s'

theorem ofParam (name : String) : Alike p (.ofParam name) (.ofParam name) :=
  .text (Token.quoteFree_writeAll_of_isFixed (by simp [Fragment.ofParam, Token.isFixed])) [name]

theorem before {ts : List Token} (hts : QuoteFree (Token.writeAll p ts)) (h : Alike p f g)
    : Alike p (.ofTokens ts ++ f) (.ofTokens ts ++ g) := by
  unfold Alike
  rw [render_append, render_append]
  exact ⟨.text_append hts h.sql, congrArg ([] ++ ·) h.params⟩

theorem after {ts : List Token} (h : Alike p f g) (hts : QuoteFree (Token.writeAll p ts))
    : Alike p (f ++ .ofTokens ts) (g ++ .ofTokens ts) := by
  unfold Alike
  rw [render_append, render_append]
  exact ⟨h.sql.append_text hts, congrArg (· ++ _) h.params⟩

theorem between {ts : List Token} (h : Alike p f g) (hts : QuoteFree (Token.writeAll p ts))
    (hne : Token.writeAll p ts ≠ "") (h' : Alike p f' g')
    : Alike p (f ++ .ofTokens ts ++ f') (g ++ .ofTokens ts ++ g') := by
  unfold Alike
  simp only [render_append]
  refine ⟨h.sql.append_between hts hne h'.sql, ?_⟩
  exact congrArg₂ (fun a b => a ++ [] ++ b) h.params h'.params

theorem parens (h : Alike p f g) : Alike p f.parens g.parens := by
  unfold Alike
  rw [render_parens, render_parens]
  exact ⟨.around (by decide) h.sql (by decide), h.params⟩

theorem renders {fs gs : List Fragment} (h : List.Forall₂ (Alike p) fs gs)
    : List.Forall₂ Rendered.Alike (fs.map (render p)) (gs.map (render p)) := by
  rw [List.forall₂_map_left_iff, List.forall₂_map_right_iff]
  exact h

theorem commaSep {fs gs : List Fragment} (h : List.Forall₂ (Alike p) fs gs)
    : Alike p (.commaSep fs) (.commaSep gs) := by
  unfold Alike Fragment.commaSep
  rw [render_separated, render_separated]
  have hrenders := renders h
  refine ⟨.intercalate ?_ ?_ (Rendered.Alike.texts hrenders), ?_⟩
  · exact Token.quoteFree_writeAll_of_isFixed (by decide)
  · simp [Token.writeAll, Token.write, Symbol.text]
  · exact Rendered.Alike.flatMap_params hrenders

theorem fillTemplate {rs ss : List Rendered} {template : String}
    (htemplate : Template.Separated rs.length template) (h : List.Forall₂ Rendered.Alike rs ss)
    : Alike p (Expr.fillTemplate template rs) (Expr.fillTemplate template ss) := by
  unfold Alike Expr.fillTemplate
  rw [render_raw, render_raw]
  refine ⟨Template.alike_fill (Rendered.Alike.texts h) ?_, Rendered.Alike.flatMap_params h⟩
  rw [List.length_map]
  exact htemplate

theorem callByName {rs ss : List Rendered} {name : String} (hname : QuoteFree name)
    (h : List.Forall₂ Rendered.Alike rs ss)
    : Alike p (Expr.callByName name rs) (Expr.callByName name ss) := by
  unfold Alike Expr.callByName
  rw [render_raw, render_raw]
  have hseparator : QuoteFree ", " := by decide
  have hargs := Text.Alike.intercalate hseparator (by decide) (Rendered.Alike.texts h)
  exact ⟨.around (hname.append (by decide)) hargs (by decide), Rendered.Alike.flatMap_params h⟩

end Alike
end Fragment

theorem Assembly.alike_build {p : Profile} {a : Assembly} {fs gs : List Fragment}
    (ha : a.Spaced Template.Separated QuoteFree) (htokens : ∀ t ∈ a.tokens, QuoteFree (t.write p))
    (h : List.Forall₂ (Fragment.Alike p) fs gs)
    : Fragment.Alike p (a.build p fs) (a.build p gs) := by
  have hempty : Fragment.Alike p .empty .empty :=
    .ofTokens (Token.quoteFree_writeAll_of_isFixed (by simp))
  have hargs (count : Nat) : List.Forall₂ Rendered.Alike (args p fs count) (args p gs count) :=
    forall₂_args hempty h count
  induction a with
  | piece i => exact rel_getD hempty h i
  | before ts a ih =>
    rw [tokens, List.forall_mem_append] at htokens
    exact .before (Token.quoteFree_writeAll htokens.1) (ih ha htokens.2)
  | after a ts ih =>
    rw [tokens, List.forall_mem_append] at htokens
    exact (ih ha htokens.1).after (Token.quoteFree_writeAll htokens.2)
  | between a ts b iha ihb =>
    simp only [tokens, List.forall_mem_append] at htokens
    obtain ⟨ha, hspace, hb⟩ := ha
    exact (iha ha htokens.1.1).between (Token.quoteFree_writeAll htokens.1.2)
      (Token.writeAll_ne_empty hspace) (ihb hb htokens.2)
  | parens a ih => exact (ih ha htokens).parens
  | rest => exact .commaSep (forall₂_tail h)
  | template count text =>
    refine .fillTemplate ?_ (hargs count)
    have hlength : (args p fs count).length = count := by simp [args]
    rw [hlength]
    exact ha
  | call count name => exact .callByName ha (hargs count)

/-! ## Expressions -/

def Literal.blank : Literal → Literal
  | .text _ => .text ""
  | value => value

namespace Expr

mutual

/--
An expression without the contents of its string literals and escape characters.
-/
def blank : Expr → Expr
  | .column a name => .column a name
  | .literal value => .literal value.blank
  | .param name => .param name
  | .binary op left right => .binary op left.blank right.blank
  | .unary op operand => .unary op operand.blank
  | .isNull operand negated => .isNull operand.blank negated
  | .like operand pattern escape negated =>
    .like operand.blank pattern.blank (escape.map fun _ => ' ') negated
  | .inList operand values negated => .inList operand.blank (blankAll values) negated
  | .existsIn scope negated => .existsIn scope negated
  | .inSelect operand scope negated => .inSelect operand.blank scope negated
  | .cast operand typeName => .cast operand.blank typeName
  | .textFunction f operand => .textFunction f operand.blank
  | .trim operand chars side => .trim operand.blank chars.blank side
  | .concat left right => .concat left.blank right.blank
  | .suffix operand start => .suffix operand.blank start.blank
  | .substring operand start length => .substring operand.blank start.blank length.blank
  | .indexOf haystack needle => .indexOf haystack.blank needle.blank
  | .indexOfFrom haystack needle start =>
    .indexOfFrom haystack.blank needle.blank start.blank
  | .clock f => .clock f
  | .aggregate f arg distinct => .aggregate f arg.blank distinct
  | .aggregateRows f distinct => .aggregateRows f distinct
  | .raw sql => .raw sql

def blankAll : List Expr → List Expr
  | [] => []
  | e :: es => e.blank :: blankAll es

end

mutual

/--
Whether quotes can come into the text of an expression by its string literals only: it has no text
that is already SQL, and no quotes in the names of columns and types.
-/
def isQuoteFree : Expr → Bool
  | .raw _ | .existsIn .. | .inSelect .. => false
  | .column _ name => decide (QuoteFree name)
  | .cast a typeName => a.isQuoteFree && decide (QuoteFree typeName)
  | .binary _ a b | .like a b _ _ | .trim a b _ | .concat a b | .suffix a b | .indexOf a b =>
    a.isQuoteFree && b.isQuoteFree
  | .unary _ a | .isNull a _ | .textFunction _ a | .aggregate _ a _ => a.isQuoteFree
  | .inList a vs _ => a.isQuoteFree && allQuoteFree vs
  | .substring a b c | .indexOfFrom a b c => a.isQuoteFree && b.isQuoteFree && c.isQuoteFree
  | .literal _ | .param _ | .clock _ | .aggregateRows .. => true

def allQuoteFree : List Expr → Bool
  | [] => true
  | a :: as => a.isQuoteFree && allQuoteFree as

end

@[simp]
theorem precedence_blank (e : Expr) : e.blank.precedence = e.precedence := by
  cases e with
  | unary op operand => cases op <;> rfl
  | existsIn scope negated => cases negated <;> rfl
  | _ => rfl

mutual

@[simp]
theorem isQuoteFree_blank : ∀ e : Expr, e.blank.isQuoteFree = e.isQuoteFree := by
  intro e
  cases e <;> simp [blank, isQuoteFree, isQuoteFree_blank, allQuoteFree_blank]

@[simp]
theorem allQuoteFree_blank : ∀ es : List Expr, allQuoteFree (blankAll es) = allQuoteFree es := by
  intro es
  cases es <;> simp [blankAll, allQuoteFree, isQuoteFree_blank, allQuoteFree_blank]

end

end Expr

-- The templates have no quotes, and put no two arguments next to each other.
theorem Vendor.functions_separated (v : Vendor)
    : v.profile.functions.Meets Template.Separated QuoteFree := by
  constructor
  · cases v <;> decide +kernel
  · intro t
    cases v <;> cases t <;> decide +kernel
  · intro side
    cases v <;> cases side <;> decide +kernel
  · cases v <;> decide +kernel
  · cases v <;> decide +kernel
  · cases v <;> decide +kernel
  · cases v <;> decide +kernel
  · cases v <;> decide +kernel
  · intro c
    cases v <;> cases c <;> decide +kernel

namespace Expr

open Compile (Agree)

variable {ctx : RenderContext}

theorem quoteFree_aggregate (f : AggregateFunction) : QuoteFree f.name := by
  cases f <;> decide

theorem alike_column {p : Profile} (a : Alias) {name : String} (h : QuoteFree name) (qualify : Bool)
    : Fragment.Alike p (.ofTokens (if qualify then Token.column a name else [.ident name]))
        (.ofTokens (if qualify then Token.column a name else [.ident name])) := by
  have hident : QuoteFree (Token.writeAll p [.ident name]) := by
    simpa [Token.writeAll, Token.write] using p.quoteFree_quoteIdentifier h
  apply Fragment.Alike.ofTokens
  cases qualify with
  | false => exact hident
  | true =>
    have hdot : QuoteFree "." := by decide
    have hcolumn := ((quoteFree_alias a).append hdot).append (p.quoteFree_quoteIdentifier h)
    simpa [Token.column, Token.writeAll, Token.write, Symbol.text, String.append_assoc]
      using hcolumn

theorem agree_token (p : Profile) (value : Literal)
    : Agree (fun t u => Fragment.Alike p (.ofTokens [t]) (.ofTokens [u])) value.token
        value.blank.token := by
  have htoken : ∀ {t : Token}, QuoteFree (t.write p) →
      Fragment.Alike p (.ofTokens [t]) (.ofTokens [t]) := by
    intro t ht
    apply Fragment.Alike.ofTokens
    simpa [Token.writeAll] using ht
  cases value with
  | int n => exact .ok (htoken (quoteFree_int n))
  | float x =>
    simp only [Literal.blank, Literal.token]
    split
    · exact .ok (htoken (Token.quoteFree_floatText x))
    · exact .error _
  | text s => exact .ok (.string s "")
  | bool b => exact .ok (htoken (p.quoteFree_formatBool b))
  | null => exact .ok (htoken (Token.quoteFree_keyword .null))

theorem blankAll_eq (es : List Expr) : blankAll es = es.map blank := by
  induction es with
  | nil => rfl
  | cons e es ih => rw [blankAll, ih, List.map_cons]

theorem operands_blank (e : Expr) : e.blank.operands = e.operands.map blank := by
  cases e <;> simp [blank, operands, blankAll_eq]

theorem assembly_blank (p : Profile) (e : Expr) : e.blank.assembly p = e.assembly p := by
  cases e with
  | unary op a => cases op <;> simp [blank, assembly]
  | binary | isNull | like => simp [blank, assembly]
  | _ => rfl

theorem allQuoteFree_eq (es : List Expr) : allQuoteFree es = es.all isQuoteFree := by
  induction es with
  | nil => rfl
  | cons e es ih => rw [allQuoteFree, ih, List.all_cons]

theorem isQuoteFree_of_mem_operands {e a : Expr} (h : e.isQuoteFree) (ha : a ∈ e.operands)
    : a.isQuoteFree := by
  cases e <;> simp_all [isQuoteFree, operands, allQuoteFree_eq] <;> grind

theorem quoteFree_of_mem_tokens {p : Profile} {e : Expr} {t : Token}
    (h : t ∈ (e.assembly p).tokens) : QuoteFree (t.write p) := by
  obtain h | ⟨f, rfl⟩ := mem_tokens_assembly h
  · exact Token.quoteFree_write h
  · exact quoteFree_aggregate f

theorem agree_own (hf : ctx.profile.functions.Meets Template.Separated QuoteFree) {e : Expr}
    (he : e.isQuoteFree)
    : Agree (List.Forall₂ (Fragment.Alike ctx.profile)) (e.own ctx) (e.blank.own ctx) := by
  have hraw : ∀ {sql : String}, QuoteFree sql →
      Fragment.Alike ctx.profile (.ofTokens [.raw sql]) (.ofTokens [.raw sql]) := by
    intro sql h
    apply Fragment.Alike.ofTokens
    rwa [Token.writeAll_raw]
  cases e with
  | column a name =>
    simp only [isQuoteFree, decide_eq_true_eq] at he
    exact .ok (.cons (alike_column a he ctx.qualify) .nil)
  | literal value => exact (agree_token ctx.profile value).map fun t u h => .cons h .nil
  | param name => exact .ok (.cons (.ofParam name) .nil)
  | like a b escape negated =>
    cases escape with
    | none => exact .ok .nil
    | some c => exact .ok (.cons (.string _ _) .nil)
  | existsIn | inSelect | raw => simp [isQuoteFree] at he
  | cast a typeName =>
    simp only [isQuoteFree, Bool.and_eq_true, decide_eq_true_eq] at he
    exact .ok (.cons (hraw he.2) .nil)
  | clock function => exact .ok (.cons (hraw (hf.clock function)) .nil)
  | aggregateRows function distinct =>
    have hstar : ∀ t ∈ Token.parens [.symbol .star], t.isFixed := by decide
    refine .ok (.cons (.ofTokens (Token.quoteFree_writeAll ?_)) .nil)
    exact List.forall_mem_cons.mpr
      ⟨quoteFree_aggregate function, fun t ht => Token.quoteFree_write (hstar t ht)⟩
  | _ => exact .ok .nil

theorem agree_fragment (hf : ctx.profile.functions.Meets Template.Separated QuoteFree) (e : Expr)
    : e.isQuoteFree →
        Agree (Fragment.Alike ctx.profile) (e.fragment ctx) (e.blank.fragment ctx) :=
  agree_fragment_of (·.isQuoteFree) ctx ctx blank rfl operands_blank (assembly_blank ctx.profile)
    (fun _ he _ => isQuoteFree_of_mem_operands he) (fun _ => agree_own hf)
    (fun e _ _ _ => Assembly.alike_build (spaced_assembly hf e) fun _ => quoteFree_of_mem_tokens) e

theorem agree_sql (hf : ctx.profile.functions.Meets Template.Separated QuoteFree) {e : Expr}
    (he : e.isQuoteFree) : Agree Rendered.Alike (e.sql ctx) (e.blank.sql ctx) := by
  rw [sql_eq, sql_eq]
  exact (agree_fragment hf e he).map fun _ _ h => h

/--
The contents of string literals and escape characters cannot change the structure of a text. Two
expressions that differ in nothing else can both be written or neither of them, and their texts have
the same parameters and are the same once all literals are empty.
-/
theorem sql_structure (v : Vendor) (delimit qualify : Bool)
    (subselect : ScopeId → Compile Rendered) (e e' : Expr) (hblank : e.blank = e'.blank)
    (he : e.isQuoteFree)
    : let ctx : RenderContext :=
        { profile := { v.profile with naming.delimitIdentifiers := delimit }, qualify, subselect }
      Agree
        (fun r r' => r.params = r'.params
          ∧ ∃ text, Text.blanked? r.sql = some text ∧ Text.blanked? r'.sql = some text)
        (e.sql ctx) (e'.sql ctx) := by
  intro ctx
  have he' : e'.isQuoteFree := by
    rw [← isQuoteFree_blank, ← hblank, isQuoteFree_blank]
    exact he
  have hagree : Agree Rendered.Alike (e.sql ctx) (e'.blank.sql ctx) :=
    hblank ▸ agree_sql v.functions_separated he
  apply hagree.trans_symm (agree_sql v.functions_separated he')
  intro r r' s h h'
  refine ⟨h.params.trans h'.params.symm, ?_⟩
  exact (h.sql.trans h'.sql.symm).blanked?_eq

-- Quotes, a reference of a template, a place and a comment, in literals and as an escape character.
theorem sql_structure_nested
    : let ctx : RenderContext :=
        { profile := { Vendor.oracle.profile with naming.delimitIdentifiers := true } }
      let e := fun (t u v : String) (c : Char) =>
        Expr.like (.textFunction .lower (.concat (.literal (.text t)) (.param "p")))
          (.trim (.literal (.text u)) (.literal (.text v)) .both) (some c) true
      let r : Rendered :=
        ⟨"LOWER(('it''s'||?)) NOT LIKE TRIM(BOTH '\x7b0\x7d' FROM '''') ESCAPE ''''", ["p"]⟩
      let r' : Rendered :=
        ⟨"LOWER((''||?)) NOT LIKE TRIM(BOTH '''''' FROM '\x7b1\x7d -- ?') ESCAPE '!'", ["p"]⟩
      (e "it's" "'" "\x7b0\x7d" '\'').blank = (e "" "\x7b1\x7d -- ?" "''" '!').blank
        ∧ (e "it's" "'" "\x7b0\x7d" '\'').isQuoteFree
        ∧ (e "it's" "'" "\x7b0\x7d" '\'').sql ctx = .ok r
        ∧ (e "" "\x7b1\x7d -- ?" "''" '!').sql ctx = .ok r'
        ∧ r.params = r'.params
        ∧ ∃ text, Text.blanked? r.sql = some text ∧ Text.blanked? r'.sql = some text := by
  intro ctx e r r'
  have hblank : (e "it's" "'" "\x7b0\x7d" '\'').blank = (e "" "\x7b1\x7d -- ?" "''" '!').blank :=
    rfl
  have he : (e "it's" "'" "\x7b0\x7d" '\'').isQuoteFree := rfl
  have hr : (e "it's" "'" "\x7b0\x7d" '\'').sql ctx = .ok r := by decide +kernel
  have hr' : (e "" "\x7b1\x7d -- ?" "''" '!').sql ctx = .ok r' := by decide +kernel
  have h := sql_structure .oracle true ctx.qualify ctx.subselect _ _ hblank he
  change Agree _ (Expr.sql _ ctx) (Expr.sql _ ctx) at h
  rw [hr, hr'] at h
  cases h with
  | ok h => exact ⟨hblank, he, hr, hr', h⟩

end Expr

end SqlDialect
