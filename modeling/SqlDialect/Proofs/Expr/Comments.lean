import SqlDialect.Proofs.Expr.Faults
import SqlDialect.Proofs.Expr.Literals
import SqlDialect.Proofs.Text.Comments

/-!
This module contains which expressions have a comment in their text. All operators but the negation
keep their operands apart from minus signs. The negation is written right before its operand, and
nothing comes between them if the operand is a negation or a negative number.
-/

namespace SqlDialect

open Text (Apart HasComment)

/-! ## Text without minus signs -/

namespace Text

def Plain (t : String) : Prop := '\'' ∉ t.toList ∧ '-' ∉ t.toList

instance (t : String) : Decidable (Plain t) := inferInstanceAs (Decidable (_ ∧ _))

theorem Plain.append {t u : String} (ht : Plain t) (hu : Plain u) : Plain (t ++ u) := by
  unfold Plain at *
  simp [ht, hu]

theorem head?_ne_of_notMem {cs : List Char} (h : '-' ∉ cs) : cs.head? ≠ some '-' :=
  fun hhead => h (List.mem_of_head? hhead)

theorem Plain.apart {t : String} (h : Plain t) : Apart t :=
  ⟨h.1, not_hasComment_of_notMem h.2, head?_ne_of_notMem h.2,
    fun hlast => h.2 (List.mem_of_getLast? hlast)⟩

theorem Plain.head?_append {t : String} (h : Plain t) (hne : t ≠ "") (u : String)
    : (t ++ u).toList.head? ≠ some '-' := by
  rw [String.toList_append, List.head?_append_of_ne_nil _ (by simpa using hne)]
  exact head?_ne_of_notMem h.2

theorem Plain.commentsIff {t : String} (h : Plain t) : CommentsIff t false :=
  .text h.1 h.apart.noComment

end Text

/-! ## Numbers -/

theorem ne_minus_of_isDigit {c : Char} (h : c.isDigit) : c ≠ '-' := by
  rintro rfl
  exact absurd h (by decide)

theorem minus_notMem_nat (n : Nat) : '-' ∉ (toString n).toList := by
  rw [Nat.toString_eq_ofList_toDigits, String.toList_ofList]
  exact fun hmem => ne_minus_of_isDigit (isDigit_of_mem_toDigits n _ hmem) rfl

theorem toList_negSucc (n : Nat)
    : (toString (Int.negSucc n)).toList = '-' :: (toString (n + 1)).toList := by
  change ("-" ++ toString (n + 1)).toList = _
  simp

theorem head?_int (n : Int) : (toString n).toList.head? = some '-' ↔ n < 0 := by
  cases n with
  | ofNat n =>
    have hdigits := Text.head?_ne_of_notMem (minus_notMem_nat n)
    exact iff_of_false hdigits (Int.not_lt.mpr (Int.natCast_nonneg n))
  | negSucc n =>
    rw [toList_negSucc]
    exact iff_of_true rfl (Int.negSucc_lt_zero n)

theorem not_hasComment_int (n : Int) : ¬ HasComment (toString n).toList := by
  cases n with
  | ofNat n => exact Text.not_hasComment_of_notMem (minus_notMem_nat n)
  | negSucc n =>
    have hdigits := minus_notMem_nat (n + 1)
    rw [toList_negSucc, Text.hasComment_cons, not_or]
    exact ⟨Text.not_hasComment_of_notMem hdigits, fun h => Text.head?_ne_of_notMem hdigits h.2⟩

namespace DecimalLayout

def IsUnsigned (t : String) : Prop := ¬ HasComment t.toList ∧ t.toList.head? ≠ some '-'

theorem isUnsigned_of_notMem {t : String} (h : '-' ∉ t.toList) : IsUnsigned t :=
  ⟨Text.not_hasComment_of_notMem h, Text.head?_ne_of_notMem h⟩

theorem isUnsigned_exponent {mantissa : String} (h : '-' ∉ mantissa.toList) (n : Int)
    : IsUnsigned (mantissa ++ "e" ++ toString n) := by
  have hfront : '-' ∉ (mantissa ++ "e").toList := by simp [h]
  unfold IsUnsigned
  rw [String.toList_append, Text.hasComment_append, List.head?_append_of_ne_nil _ (by simp)]
  refine ⟨?_, Text.head?_ne_of_notMem hfront⟩
  rintro (hcomment | hcomment | ⟨hlast, -⟩)
  · exact Text.not_hasComment_of_notMem hfront hcomment
  · exact not_hasComment_int n hcomment
  · exact hfront (List.mem_of_getLast? hlast)

theorem isUnsigned_write (layout : DecimalLayout) (d : Decimal) : IsUnsigned (layout.write d) := by
  have hdigits : '-' ∉ Nat.toDigits 10 d.digits :=
    fun hmem => ne_minus_of_isDigit (isDigit_of_mem_toDigits _ _ hmem) rfl
  unfold write
  dsimp only
  split
  · apply isUnsigned_of_notMem
    split
    · simp [zeros, hdigits]
    · split
      · simp [mt List.mem_of_mem_take hdigits, mt List.mem_of_mem_drop hdigits]
      · simp [zeros, hdigits]
  · apply isUnsigned_exponent
    split
    · simp
    · next hdigits' => simpa [hdigits'] using hdigits
    · next hdigits' => simpa [hdigits'] using hdigits

theorem not_hasComment_writeFloat (layout : DecimalLayout) (x : FiniteBinary64)
    : ¬ HasComment (layout.writeFloat x).toList
        ∧ ((layout.writeFloat x).toList.head? = some '-' ↔ x.value.isNegative = true) := by
  obtain ⟨t, ht, hfloat⟩ : ∃ t, IsUnsigned t
      ∧ layout.writeFloat x = (if x.value.isNegative then "-" else "") ++ t := by
    refine ⟨_, ?_, rfl⟩
    split
    · exact isUnsigned_of_notMem (by decide)
    · exact layout.isUnsigned_write _
  rw [hfloat]
  split
  · next hnegative =>
    have hminus : ("-" ++ t).toList = '-' :: t.toList := by simp
    rw [hminus, Text.hasComment_cons]
    simp [hnegative, ht.1, ht.2]
  · next hpositive => simp [hpositive, ht.1, ht.2]

end DecimalLayout

/-! ## Names and literals -/

theorem plain_nat (n : Nat) : Text.Plain (toString n) := ⟨quoteFree_nat n, minus_notMem_nat n⟩

theorem plain_alias (a : Alias) : Text.Plain (toString a) := by
  have hletter : Text.Plain "t" := by decide
  exact hletter.append (plain_nat a.index)

theorem QuoteStyle.delimiters_ne_minus (q : QuoteStyle) : q.opening ≠ '-' ∧ q.closing ≠ '-' := by
  cases q <;> decide

theorem Profile.plain_quoteIdentifier (p : Profile) {name : String} (h : Text.Plain name)
    : Text.Plain (p.quoteIdentifier name) := by
  refine ⟨p.quoteFree_quoteIdentifier h.1, ?_⟩
  unfold quoteIdentifier
  split
  · have hdouble : '-' ∉ Text.double p.naming.quoteStyle.closing name.toList :=
      fun hmem => h.2 (Text.mem_of_mem_double hmem)
    obtain ⟨hopening, hclosing⟩ := p.naming.quoteStyle.delimiters_ne_minus
    simp [hdouble, hopening.symm, hclosing.symm]
  · exact h.2

theorem Token.plain_column (p : Profile) (a : Alias) {name : String} (h : Text.Plain name)
    (qualify : Bool)
    : Text.Plain (writeAll p (if qualify then column a name else [.ident name])) := by
  have hname := p.plain_quoteIdentifier h
  cases qualify with
  | false => simpa [writeAll, write] using hname
  | true =>
    have hdot : Text.Plain "." := by decide
    have hcolumn := ((plain_alias a).append hdot).append hname
    simpa [column, writeAll, write, Symbol.text, String.append_assoc] using hcolumn

theorem Profile.plain_formatBool (p : Profile) (b : Bool) : Text.Plain (p.formatBool b) := by
  unfold formatBool
  cases p.functions.booleanStyle <;> cases b <;> decide

namespace Literal

def isNegative : Literal → Bool
  | .int n => n < 0
  | .float x => x.isNegative
  | _ => false

theorem commentsIff_token (p : Profile) {value : Literal} {t : Token} (h : value.token = .ok t)
    : Text.CommentsIff (t.write p) false
        ∧ ((t.write p).toList.head? = some '-' ↔ value.isNegative = true) := by
  have hplain : ∀ u : String, Text.Plain u →
      Text.CommentsIff u false ∧ (u.toList.head? = some '-' ↔ false = true) :=
    fun u hu => ⟨hu.commentsIff, by simpa using hu.apart.head⟩
  cases value with
  | int n =>
    cases h
    exact ⟨.text (quoteFree_int n) (not_hasComment_int n),
      (head?_int n).trans decide_eq_true_iff.symm⟩
  | float x =>
    simp only [token] at h
    split at h
    · next hx =>
      cases h
      obtain ⟨hcomment, hhead⟩ := Token.floatLayout.not_hasComment_writeFloat ⟨x, hx⟩
      rw [Token.write, Token.floatText_of_isFinite hx]
      exact ⟨.text (Token.floatLayout.quoteFree_writeFloat _) hcomment, hhead⟩
    · cases h
  | text s =>
    cases h
    exact ⟨.quoteString s, by simp [Token.write, Text.quoteString, isNegative]⟩
  | bool b =>
    cases h
    exact hplain _ (p.plain_formatBool b)
  | null =>
    cases h
    exact hplain "NULL" (by decide)

end Literal

/-! ## Fragments -/

def Fragment.CommentsIff (p : Profile) (f : Fragment) (c : Bool) : Prop :=
  Text.CommentsIff (f.render p).sql c

namespace Token

theorem apart_writeAll (p : Profile) {ts : List Token} (hfixed : ∀ t ∈ ts, t.isFixed)
    (h : Apart (writeAll .generic ts)) : Apart (writeAll p ts) := by
  have heq : writeAll p ts = writeAll .generic ts := by
    unfold writeAll
    congr 1
    apply List.map_congr_left
    intro t ht
    have := hfixed t ht
    cases t <;> simp_all [isFixed, write]
  rw [heq]
  exact h

end Token

theorem Fragment.sql_ofTokens_append (p : Profile) (ts : List Token) (f : Fragment)
    : ((.ofTokens ts ++ f : Fragment).render p).sql
        =
      Token.writeAll p ts ++ (f.render p).sql := by
  rw [render_append]
  rfl

namespace Fragment.CommentsIff

variable {p : Profile} {f g : Fragment} {c d : Bool}

theorem before {ts : List Token} (hts : Apart (Token.writeAll p ts)) (h : CommentsIff p f c)
    : CommentsIff p (.ofTokens ts ++ f) c := by
  unfold CommentsIff
  rw [sql_ofTokens_append]
  exact Text.CommentsIff.before hts h

theorem after {ts : List Token} (h : CommentsIff p f c) (hts : Apart (Token.writeAll p ts))
    : CommentsIff p (f ++ .ofTokens ts) c := by
  unfold CommentsIff
  rw [render_append]
  exact Text.CommentsIff.after h hts

theorem between {ts : List Token} (h : CommentsIff p f c) (hts : Apart (Token.writeAll p ts))
    (hne : Token.writeAll p ts ≠ "") (h' : CommentsIff p g d)
    : CommentsIff p (f ++ .ofTokens ts ++ g) (c || d) := by
  unfold CommentsIff
  rw [render_append, render_append]
  exact Text.CommentsIff.between h hts hne h'

theorem parens (h : CommentsIff p f c) : CommentsIff p f.parens c := by
  unfold CommentsIff
  rw [render_parens]
  exact (Text.CommentsIff.before (by decide) h).after (by decide)

theorem parensIf (h : CommentsIff p f c) (needed : Bool) : CommentsIff p (f.parensIf needed) c := by
  cases needed with
  | false => exact h
  | true => exact h.parens

theorem raw {sql : String} (h : Text.Plain sql) (params : List String)
    : CommentsIff p ⟨[.raw sql], params⟩ false := by
  unfold CommentsIff
  rw [render_raw]
  exact h.commentsIff

theorem commaSep {fs : List Fragment} {cs : List Bool} (h : List.Forall₂ (CommentsIff p) fs cs)
    : CommentsIff p (.commaSep fs) cs.or := by
  unfold CommentsIff Fragment.commaSep
  rw [render_separated]
  apply Text.CommentsIff.intercalate
  · exact Token.apart_writeAll p (by decide) (by decide)
  · simp [Token.writeAll, Token.write, Symbol.text]
  · rw [List.map_map, List.forall₂_map_left_iff]
    exact h

end Fragment.CommentsIff

/-! ## Assemblies -/

namespace Assembly

variable {p : Profile} {a : Assembly} {fs : List Fragment} {cs : List Bool}

def words : Assembly → List (List Token)
  | .before ts a => ts :: a.words
  | .after a ts => a.words ++ [ts]
  | .between a ts b => a.words ++ ts :: b.words
  | .parens a => a.words
  | .piece _ | .rest | .template .. | .call .. => []

theorem words_parensIf (a : Assembly) (needed : Bool) : (a.parensIf needed).words = a.words := by
  cases needed <;> rfl

def isFunction : Assembly → Bool
  | .template .. | .call .. => true
  | _ => false

theorem head?_build_ne (ha : a.Spaced Template.KeepsApart Text.Plain) (h : a.isFunction = true)
    : ((a.build p fs).render p).sql.toList.head? ≠ some '-' := by
  cases a with
  | template count text =>
    rw [build, Expr.fillTemplate, Fragment.render_raw]
    apply Template.head?_fill_ne
    simpa [args] using show Template.KeepsApart count text from ha
  | call count name =>
    have hname : Text.Plain name := ha
    rw [build, Expr.callByName, Fragment.render_raw, String.append_assoc]
    exact (hname.append (by decide : Text.Plain "(")).head?_append (by simp) _
  | _ => cases h

theorem or_getD (cs : List Bool) (i : Nat)
    : ((cs.map fun c => [c]).getD i []).or = cs.getD i false := by
  simp only [List.getD_eq_getElem?_getD, List.getElem?_map]
  cases cs[i]? <;> simp

theorem or_taken (cs : List Bool) (count : Nat)
    : (taken (cs.map fun c => [c]) count).flatten.or
        =
      ((List.range count).map (cs.getD · false)).or := by
  simp only [taken, List.or, List.any_flatten, List.any_map]
  congr 1
  funext i
  exact or_getD cs i

theorem commentsIff_build (ha : a.Spaced Template.KeepsApart Text.Plain)
    (hwords : ∀ ts ∈ a.words, Apart (Token.writeAll p ts))
    (h : List.Forall₂ (Fragment.CommentsIff p) fs cs)
    : Fragment.CommentsIff p (a.build p fs) (a.names (cs.map fun c => [c])).or := by
  have hpiece (i : Nat) : Fragment.CommentsIff p (fs.getD i .empty) (cs.getD i false) := by
    have hempty : Text.Plain "" := by decide
    exact rel_getD (R := Fragment.CommentsIff p) hempty.commentsIff h i
  have hargs (count : Nat) : List.Forall₂ Text.CommentsIff ((args p fs count).map (·.sql))
      ((List.range count).map (cs.getD · false)) := by
    rw [args, List.map_map, List.forall₂_map_left_iff, List.forall₂_map_right_iff,
      List.forall₂_same]
    exact fun i _ => hpiece i
  unfold names
  induction a with
  | piece i =>
    rw [collect, or_getD]
    exact hpiece i
  | before ts a ih =>
    rw [words, List.forall_mem_cons] at hwords
    exact .before hwords.1 (ih ha hwords.2)
  | after a ts ih =>
    rw [words, List.forall_mem_append, List.forall_mem_singleton] at hwords
    exact (ih ha hwords.1).after hwords.2
  | between a ts b iha ihb =>
    rw [words, List.forall_mem_append, List.forall_mem_cons] at hwords
    obtain ⟨ha, hspace, hb⟩ := ha
    have hboth := (iha ha hwords.1).between hwords.2.1 (Token.writeAll_ne_empty hspace)
      (ihb hb hwords.2.2)
    rw [collect, List.or, List.any_append]
    exact hboth
  | parens a ih => exact (ih ha hwords).parens
  | rest =>
    have hrest := Fragment.CommentsIff.commaSep (forall₂_tail h)
    rw [collect, ← List.map_tail, ← List.flatMap_def, List.flatMap_singleton']
    exact hrest
  | template count text =>
    rw [collect, or_taken, build, Expr.fillTemplate]
    unfold Fragment.CommentsIff
    rw [Fragment.render_raw]
    apply Template.commentsIff_fill (hargs count)
    simpa [args] using show Template.KeepsApart count text from ha
  | call count name =>
    have hname : Text.Plain name := ha
    have hlist := Text.CommentsIff.intercalate (by decide : Apart ", ") (by decide) (hargs count)
    rw [collect, or_taken, build, Expr.callByName]
    unfold Fragment.CommentsIff
    rw [Fragment.render_raw]
    exact (hlist.before (hname.append (by decide)).apart).after (by decide)

end Assembly

/-! ## Functions -/

-- The templates keep their arguments apart from each other and from minus signs.
theorem Vendor.functions_keepsApart (v : Vendor)
    : v.profile.functions.Meets Template.KeepsApart Text.Plain := by
  -- Most templates are the same for all vendors, and are looked at only once.
  have hcast : v.profile.functions.cast = Profile.generic.functions.cast := by
    cases v <;> rfl
  have hlower : v.profile.functions.toLower = Profile.generic.functions.toLower := by
    cases v <;> rfl
  have hupper : v.profile.functions.toUpper = Profile.generic.functions.toUpper := by
    cases v <;> rfl
  have htrim : Expr.trimTemplate v.profile.functions
      = Expr.trimTemplate Profile.generic.functions := by
    funext side
    cases v <;> cases side <;> rfl
  have hmodulo : v.profile.functions.modulo = Profile.generic.functions.modulo := by
    cases v <;> rfl
  constructor
  · rw [hcast]
    decide +kernel
  · intro t
    cases t with
    | lower =>
      rw [Expr.textTemplate, hlower]
      decide +kernel
    | upper =>
      rw [Expr.textTemplate, hupper]
      decide +kernel
    | length => cases v <;> decide +kernel
  · intro side
    rw [htrim]
    cases side <;> decide +kernel
  · cases v <;> decide +kernel
  · cases v <;> decide +kernel
  · cases v <;> decide +kernel
  · rw [hmodulo]
    decide +kernel
  · cases v <;> decide +kernel
  · intro c
    cases v <;> cases c <;> decide +kernel

namespace Expr

variable {ctx : RenderContext} {p : Profile}

def isPlain : Expr → Bool
  | .column _ name => decide (Text.Plain name)
  | .cast _ typeName => decide (Text.Plain typeName)
  | .raw _ | .existsIn .. | .inSelect .. => false
  | _ => true

/-! ## Signs -/

def hasSign : Expr → Bool
  | .unary .neg _ => true
  | .literal value => value.isNegative
  | _ => false

theorem hasSign_of_precedence_lt {e : Expr} (h : e.precedence < 6) : e.hasSign = false := by
  cases e with
  | unary op a =>
    cases op with
    | neg => simp [precedence] at h
    | not => rfl
  | literal => simp [precedence] at h
  | _ => rfl

theorem precedence_binary_lt (op : BinaryOp) : op.precedence < 6 := by
  cases op <;> decide

theorem plain_aggregate (f : AggregateFunction) : Text.Plain f.name ∧ f.name ≠ "" := by
  cases f <;> decide

theorem head?_build (hf : ctx.profile.functions.Meets Template.KeepsApart Text.Plain) {e : Expr}
    {operands own : List Fragment} (he : e.isPlain = true) (hprecedence : ¬ e.precedence < 6)
    (hoperands : operands.length = e.operands.length) (hown : e.own ctx = .ok own)
    : (((e.assembly ctx.profile).build ctx.profile (operands ++ own)).render
          ctx.profile).sql.toList.head? = some '-'
        ↔ e.hasSign = true := by
  cases e with
  | column a name =>
    obtain rfl := List.length_eq_zero_iff.mp hoperands
    cases hown
    have hname : Text.Plain name := by simpa [isPlain] using he
    have hcolumn := Token.plain_column ctx.profile a hname ctx.qualify
    exact iff_of_false hcolumn.apart.head (by simp [hasSign])
  | literal value =>
    obtain rfl := List.length_eq_zero_iff.mp hoperands
    obtain ⟨t, ht, h⟩ := Compile.bind_eq_ok_iff.mp hown
    cases h
    have htoken := (Literal.commentsIff_token ctx.profile ht).2
    simpa [assembly, Assembly.build, Fragment.render, Fragment.ofTokens, Token.writeAll, hasSign]
      using htoken
  | param name =>
    obtain rfl := List.length_eq_zero_iff.mp hoperands
    cases hown
    exact iff_of_false (by decide : "?".toList.head? ≠ some '-') (by simp [hasSign])
  | unary op a =>
    cases op with
    | not => simp [precedence] at hprecedence
    | neg =>
      simp [assembly, Assembly.build, Fragment.sql_ofTokens_append, Token.writeAll, Token.write,
        Symbol.text, hasSign]
  | binary op => exact absurd (precedence_binary_lt op) hprecedence
  | isNull | like | inList => simp [precedence] at hprecedence
  | existsIn | inSelect | raw => cases he
  | cast | textFunction | trim | concat | suffix | substring | indexOf | indexOfFrom =>
    exact iff_of_false (Assembly.head?_build_ne (spaced_assembly hf _) rfl) (by simp [hasSign])
  | clock function =>
    obtain rfl := List.length_eq_zero_iff.mp hoperands
    cases hown
    refine iff_of_false ?_ (by simp [hasSign])
    simpa [assembly, Assembly.build, Fragment.render, Fragment.ofTokens, Token.writeAll_raw]
      using (hf.clock function).apart.head
  | aggregate function a distinct =>
    obtain ⟨hplain, hne⟩ := plain_aggregate function
    refine iff_of_false ?_ (by simp [hasSign])
    rw [assembly, Assembly.build, Fragment.sql_ofTokens_append, Token.writeAll_raw]
    exact hplain.head?_append hne _
  | aggregateRows function distinct =>
    obtain rfl := List.length_eq_zero_iff.mp hoperands
    cases hown
    obtain ⟨hplain, hne⟩ := plain_aggregate function
    refine iff_of_false ?_ (by simp [hasSign])
    change ((.ofTokens [.raw function.name] ++ .ofTokens (Token.parens [.symbol .star])
      : Fragment).render ctx.profile).sql.toList.head? ≠ some '-'
    rw [Fragment.sql_ofTokens_append, Token.writeAll_raw]
    exact hplain.head?_append hne _

/-! ## Expressions -/

def isDoubleMinus : Expr → Bool
  | .unary .neg a => a.hasSign
  | _ => false

/--
Whether some part of an expression negates a negation or a negative number.
-/
def doublesMinus (e : Expr) : Bool := e.parts.any isDoubleMinus

theorem doublesMinus_eq (e : Expr)
    : e.doublesMinus = ((e.operands.map doublesMinus).or || e.isDoubleMinus) := by
  rw [doublesMinus, parts_eq, List.any_append, List.any_flatMap, List.or, List.any_map,
    List.any_cons, List.any_nil, Bool.or_false]
  rfl

/--
An expression into whose text quotes and minus signs come by its operators and literals only.
-/
def AllPlain (e : Expr) : Prop := ∀ part ∈ e.parts, part.isPlain = true

instance (e : Expr) : Decidable e.AllPlain := inferInstanceAs (Decidable (∀ part ∈ e.parts, _))

theorem AllPlain.isPlain {e : Expr} (h : e.AllPlain) : e.isPlain = true := by
  apply h
  rw [parts_eq]
  simp

theorem AllPlain.of_mem {e a : Expr} (h : e.AllPlain) (ha : a ∈ e.operands) : a.AllPlain := by
  intro part hpart
  apply h
  rw [parts_eq]
  exact List.mem_append_left _ (List.mem_flatMap_of_mem ha hpart)

theorem commentsIff_own (hf : ctx.profile.functions.Meets Template.KeepsApart Text.Plain) {e : Expr}
    {own : List Fragment} (he : e.isPlain = true) (h : e.own ctx = .ok own)
    : List.Forall₂ (Fragment.CommentsIff ctx.profile) own (own.map fun _ => false) := by
  have hone : ∀ {f : Fragment}, Fragment.CommentsIff ctx.profile f false →
      List.Forall₂ (Fragment.CommentsIff ctx.profile) [f] [false] :=
    fun hf => .cons hf .nil
  cases e with
  | column a name =>
    cases h
    have hname : Text.Plain name := by simpa [isPlain] using he
    exact hone (Token.plain_column ctx.profile a hname ctx.qualify).commentsIff
  | literal value =>
    obtain ⟨t, ht, h⟩ := Compile.bind_eq_ok_iff.mp h
    cases h
    apply hone
    simpa [Fragment.CommentsIff, Fragment.render, Fragment.ofTokens, Token.writeAll]
      using (Literal.commentsIff_token ctx.profile ht).1
  | param name =>
    cases h
    exact hone (by decide : Text.Plain "?").commentsIff
  | like a b escape negated =>
    cases escape with
    | none =>
      cases h
      exact .nil
    | some c =>
      cases h
      apply hone
      simpa [Fragment.CommentsIff, Fragment.render, Fragment.ofTokens, Token.writeAll, Token.write]
        using Text.CommentsIff.quoteString c.toString
  | existsIn | inSelect | raw => cases he
  | cast a typeName =>
    cases h
    exact hone (.raw (by simpa [isPlain] using he) [])
  | clock function =>
    cases h
    exact hone (.raw (hf.clock function) [])
  | aggregateRows function distinct =>
    cases h
    have hstar : Text.Plain "(*)" := by decide
    apply hone
    simpa [Fragment.CommentsIff, Fragment.render, Fragment.ofTokens, Token.writeAll, Token.write,
      Token.parens, Symbol.text] using ((plain_aggregate function).1.append hstar).commentsIff
  | _ =>
    cases h
    exact .nil

def isNegation : Expr → Bool
  | .unary .neg _ => true
  | _ => false

theorem apart_words (p : Profile) {e : Expr} (he : e.isNegation = false)
    : ∀ ts ∈ (e.assembly p).words, Apart (Token.writeAll p ts) := by
  have hwords : ∀ {ts : List Token}, ts.all Token.isFixed = true →
      Apart (Token.writeAll .generic ts) → Apart (Token.writeAll p ts) :=
    fun hfixed => Token.apart_writeAll p (List.all_eq_true.mp hfixed)
  have hone : ∀ {ts : List Token}, Apart (Token.writeAll p ts) →
      ∀ us ∈ [ts], Apart (Token.writeAll p us) :=
    fun h => List.forall_mem_singleton.mpr h
  cases e with
  | binary op a b =>
    simp only [assembly]
    split
    · simp [Assembly.words]
    · simp only [Assembly.words, Assembly.words_parensIf]
      exact hone (hwords (by cases op <;> rfl) (by cases op <;> decide +kernel))
  | unary op a =>
    cases op with
    | neg => cases he
    | not =>
      simp only [assembly, Assembly.words, Assembly.words_parensIf]
      exact hone (hwords rfl (by decide +kernel))
  | isNull a negated =>
    simp only [assembly, Assembly.words, Assembly.words_parensIf]
    exact hone (hwords (by cases negated <;> rfl) (by cases negated <;> decide +kernel))
  | like a b escape negated =>
    have hlike : Apart (Token.writeAll p
        (.space :: negation negated ++ [.keyword .like, .space])) :=
      hwords (by cases negated <;> rfl) (by cases negated <;> decide +kernel)
    have hescape : Apart (Token.writeAll p [.space, .keyword .escape, .space]) :=
      hwords rfl (by decide +kernel)
    cases escape with
    | none => exact hone hlike
    | some c => exact List.forall_mem_cons.mpr ⟨hlike, hone hescape⟩
  | inList a vs negated | inSelect a scope negated =>
    exact hone (hwords (by cases negated <;> rfl) (by cases negated <;> decide +kernel))
  | existsIn scope negated =>
    exact hone (hwords (by cases negated <;> rfl) (by cases negated <;> decide +kernel))
  | aggregate f a distinct =>
    refine List.forall_mem_cons.mpr ⟨?_, hone (hwords ?_ ?_)⟩
    · rw [Token.writeAll_raw]
      exact (plain_aggregate f).1.apart
    · cases distinct <;> rfl
    · cases distinct <;> decide +kernel
  | _ => simp [assembly, Assembly.words]

def Comments (p : Profile) (e : Expr) (f : Fragment) : Prop :=
  Fragment.CommentsIff p f e.doublesMinus
    ∧ (¬ e.precedence < 6 → ((f.render p).sql.toList.head? = some '-' ↔ e.hasSign = true))

theorem Comments.head?_parensIf {a : Expr} {f : Fragment} (h : a.Comments p f)
    : ((f.parensIf (a.precedence < 6)).render p).sql.toList.head? = some '-'
        ↔ a.hasSign = true := by
  by_cases hprecedence : a.precedence < 6
  · simp [hprecedence, hasSign_of_precedence_lt hprecedence, Fragment.parensIf,
      Fragment.render_parens]
  · simpa [hprecedence, Fragment.parensIf] using h.2 hprecedence

theorem Comments.neg {a : Expr} {f : Fragment} (h : a.Comments p f)
    : Fragment.CommentsIff p (.ofTokens [.symbol .minus] ++ f.parensIf (a.precedence < 6))
        (unary .neg a).doublesMinus := by
  have hminus := Text.CommentsIff.minus (h.1.parensIf (a.precedence < 6)) h.head?_parensIf
  unfold Fragment.CommentsIff
  rw [Fragment.sql_ofTokens_append, doublesMinus_eq]
  simpa [Token.writeAll, Token.write, Symbol.text, operands, isDoubleMinus] using hminus

theorem isDoubleMinus_eq_false {e : Expr} (h : e.isNegation = false) : e.isDoubleMinus = false := by
  cases e with
  | unary op a =>
    cases op with
    | neg => cases h
    | not => rfl
  | _ => rfl

theorem comments_fragment (hf : ctx.profile.functions.Meets Template.KeepsApart Text.Plain)
    (e : Expr)
    : ∀ {f : Fragment}, e.fragment ctx = .ok f → e.AllPlain → e.Comments ctx.profile f := by
  refine fragment_induction (P := fun e f => e.AllPlain → e.Comments ctx.profile f) ?_ e
  intro e fs own hfs hown he
  have hoperands : List.Forall₂ (fun a f => a.Comments ctx.profile f) e.operands fs := by
    have hboth := (List.forall₂_and_left _ _).mpr ⟨fun a ha => he.of_mem ha, hfs⟩
    exact hboth.imp fun _ _ h => h.2 h.1
  refine ⟨?_, fun hprecedence => head?_build hf he.isPlain hprecedence hfs.length_eq.symm hown⟩
  by_cases hnegation : e.isNegation = true
  · obtain ⟨a, rfl⟩ : ∃ a, e = .unary .neg a := by
      unfold isNegation at hnegation
      split at hnegation
      · exact ⟨_, rfl⟩
      · cases hnegation
    cases hown
    cases hoperands with
    | cons ha hnil =>
      cases hnil
      rw [assembly, Assembly.build, Assembly.build_parensIf]
      exact ha.neg
  · have hother : e.isNegation = false := by simpa using hnegation
    have hcomments : List.Forall₂ (Fragment.CommentsIff ctx.profile) fs
        (e.operands.map doublesMinus) := by
      rw [List.forall₂_map_right_iff]
      exact hoperands.flip.imp fun _ _ h => h.1
    have hbuild := Assembly.commentsIff_build (spaced_assembly hf e) (apart_words _ hother)
      (List.rel_append hcomments (commentsIff_own hf he.isPlain hown))
    rw [List.map_append, names_assembly _ hown (by simp) (by simp), ← List.map_append,
      ← List.flatMap_def, List.flatMap_singleton'] at hbuild
    rw [doublesMinus_eq, isDoubleMinus_eq_false hother]
    simpa [List.or] using hbuild

theorem exists_sql_iff {e : Expr} (he : e.AllPlain) {qualify : Bool}
    : (∃ r, e.sql { profile := p, qualify } = .ok r)
        ↔ ∀ x, .literal (.float x) ∈ e.parts → x.isFinite = true := by
  have hnone : (∃ r, e.sql { profile := p, qualify } = .ok r)
      ↔ ∀ err, e.sql { profile := p, qualify } ≠ .error err := by
    cases e.sql { profile := p, qualify } <;> simp
  simp only [hnone, ne_eq, sql_eq_error_iff, ← Option.eq_none_iff_forall_ne_some,
    List.findSome?_eq_none_iff]
  constructor
  · intro h x hx
    by_contra hinfinite
    have hfault := h _ hx
    simp [fault?, hinfinite] at hfault
  · intro h part hpart
    have hplain := he part hpart
    cases part with
    | literal value =>
      cases value with
      | float x => simp [fault?, h x hpart]
      | _ => rfl
    | existsIn | inSelect => cases hplain
    | _ => rfl

/--
A comment starts in the text of an expression if and only if the expression negates a negation or a
negative number somewhere. Minus signs in literals do not count. There is a text unless a float is
infinite or no number.
-/
theorem sql_comments_iff (v : Vendor) (qualify : Bool) (e : Expr) (he : e.AllPlain)
    : let ctx : RenderContext := { profile := v.profile, qualify }
      ((∃ r, e.sql ctx = .ok r) ↔ ∀ x, .literal (.float x) ∈ e.parts → x.isFinite = true)
        ∧ ∀ r, e.sql ctx = .ok r →
            ∃ text, Text.blanked? r.sql = some text
              ∧ (HasComment text ↔ e.doublesMinus = true) := by
  intro ctx
  refine ⟨exists_sql_iff he, fun r h => ?_⟩
  rw [sql_eq] at h
  obtain ⟨f, hf, hr⟩ := Compile.bind_eq_ok_iff.mp h
  cases hr
  obtain ⟨text, hblanks, hcomment⟩ := (comments_fragment v.functions_keepsApart e hf he).1
  exact ⟨text, hblanks.blanked?, hcomment⟩

-- A minus sign before a negative number, and two of them in a literal.
theorem sql_comments_iff_difference
    : let ctx : RenderContext := { profile := Vendor.oracle.profile }
      let e : Expr := .concat (.literal (.text "--"))
        (.binary .sub (.column ⟨0⟩ "a") (.literal (.int (-3))))
      let r : Rendered := ⟨"('--'||t0.a - -3)", []⟩
      e.AllPlain
        ∧ e.sql ctx = .ok r
        ∧ ∃ text, Text.blanked? r.sql = some text ∧ ¬ HasComment text := by
  intro ctx e r
  have he : e.AllPlain := by decide +kernel
  have hr : e.sql ctx = .ok r := by decide +kernel
  obtain ⟨text, htext, hcomment⟩ := (sql_comments_iff .oracle true e he).2 r hr
  refine ⟨he, hr, text, htext, ?_⟩
  rw [hcomment]
  decide +kernel

theorem negated_negation_starts_comment
    : let e : Expr := .unary .neg (.unary .neg (.column ⟨0⟩ "a"))
      e.AllPlain
        ∧ e.sql { profile := Vendor.generic.profile } = .ok ⟨"--t0.a", []⟩
        ∧ ∃ text, Text.blanked? "--t0.a" = some text ∧ HasComment text := by
  refine ⟨by decide +kernel, by decide +kernel, "--t0.a".toList, ?_, ?_⟩
  · decide
  · decide

end Expr

end SqlDialect
