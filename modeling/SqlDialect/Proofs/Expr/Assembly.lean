import SqlDialect.Expr.Render
import SqlDialect.Proofs.Serialization

/-!
This module contains how the text of an expression is put together. There are pieces, those of the
operands and then what the expression has of its own, and all expressions put them together in a few
ways. What is to be shown of the texts of all expressions is shown of these ways.
-/

namespace SqlDialect

inductive Assembly where
  | piece (index : Nat)
  | before (ts : List Token) (a : Assembly)
  | after (a : Assembly) (ts : List Token)
  | between (a : Assembly) (ts : List Token) (b : Assembly)
  | parens (a : Assembly)
  /-- All pieces but the first one, with commas between them. -/
  | rest
  /-- The first pieces, as many as are counted, put into a template. -/
  | template (count : Nat) (text : String)
  | call (count : Nat) (name : String)

namespace Assembly

def parensIf (a : Assembly) (needed : Bool) : Assembly := if needed then a.parens else a

def args (p : Profile) (pieces : List Fragment) (count : Nat) : List Rendered :=
  (List.range count).map fun i => (pieces.getD i .empty).render p

def build (p : Profile) (pieces : List Fragment) : Assembly → Fragment
  | .piece i => pieces.getD i .empty
  | .before ts a => .ofTokens ts ++ a.build p pieces
  | .after a ts => a.build p pieces ++ .ofTokens ts
  | .between a ts b => a.build p pieces ++ .ofTokens ts ++ b.build p pieces
  | .parens a => (a.build p pieces).parens
  | .rest => .commaSep pieces.tail
  | .template count text => Expr.fillTemplate text (args p pieces count)
  | .call count name => Expr.callByName name (args p pieces count)

theorem build_parensIf (p : Profile) (pieces : List Fragment) (a : Assembly) (needed : Bool)
    : (a.parensIf needed).build p pieces = (a.build p pieces).parensIf needed := by
  cases needed <;> rfl

section

variable {β : Type} {p : Profile} {R : Fragment → β → Prop} {fs gs : List Fragment} {bs : List β}

theorem rel_getD {b : β} (hempty : R .empty b) (h : List.Forall₂ R fs bs) (i : Nat)
    : R (fs.getD i .empty) (bs.getD i b) := by
  induction h generalizing i with
  | nil => exact hempty
  | cons hf _ ih =>
    cases i with
    | zero => exact hf
    | succ i => exact ih i

theorem forall₂_tail (h : List.Forall₂ R fs bs) : List.Forall₂ R fs.tail bs.tail := by
  cases h with
  | nil => exact .nil
  | cons _ h => exact h

theorem forall₂_args {S : Rendered → Rendered → Prop}
    (hempty : S (Fragment.render p .empty) (Fragment.render p .empty))
    (h : List.Forall₂ (fun f g => S (f.render p) (g.render p)) fs gs) (count : Nat)
    : List.Forall₂ S (args p fs count) (args p gs count) := by
  unfold args
  rw [List.forall₂_map_left_iff, List.forall₂_map_right_iff, List.forall₂_same]
  exact fun i _ => rel_getD (R := fun f (g : Fragment) => S (f.render p) (g.render p)) hempty h i

end

def run (p : Profile) (pieces : List Fragment) (a : Assembly) : Compile Fragment :=
  let args (count : Nat) : Compile (List Rendered) :=
    (List.range count).mapM fun i => (pieces.getD i .empty).serialize p
  match a with
  | .template count text => return Expr.fillTemplate text (← args count)
  | .call count name => return Expr.callByName name (← args count)
  | a => return a.build p pieces

def tokens : Assembly → List Token
  | .before ts a => ts ++ a.tokens
  | .after a ts => a.tokens ++ ts
  | .between a ts b => a.tokens ++ ts ++ b.tokens
  | .parens a => a.tokens
  | .piece _ | .rest | .template .. | .call .. => []

end Assembly

/-! ## Expressions -/

namespace Expr

def operands : Expr → List Expr
  | .binary _ a b | .like a b _ _ | .trim a b _ | .concat a b | .suffix a b | .indexOf a b => [a, b]
  | .unary _ a | .isNull a _ | .inSelect a _ _ | .cast a _ | .textFunction _ a
  | .aggregate _ a _ => [a]
  | .inList a vs _ => a :: vs
  | .substring a b c | .indexOfFrom a b c => [a, b, c]
  | .column .. | .literal _ | .param _ | .existsIn .. | .clock _ | .aggregateRows .. | .raw _ => []

def own (ctx : RenderContext) : Expr → Compile (List Fragment)
  | .column a name =>
    return [.ofTokens (if ctx.qualify then Token.column a name else [.ident name])]
  | .literal value => return [.ofTokens [← value.token]]
  | .param name => return [.ofParam name]
  | .like _ _ (some c) _ => return [.ofTokens [.string c.toString]]
  | .existsIn scope _ | .inSelect _ scope _ => return [.ofRendered (← ctx.subselect scope)]
  | .cast _ typeName => return [.ofRendered ⟨typeName, []⟩]
  | .clock f => return [.ofTokens [.raw (clockText ctx.profile.functions f)]]
  | .aggregateRows f _ => return [.ofTokens (.raw f.name :: Token.parens [.symbol .star])]
  | .raw sql => return [.ofTokens [.raw sql]]
  | _ => return []

def assembly (p : Profile) : Expr → Assembly
  | .binary op a b =>
    if op = .mod ∧ ¬ p.supports .modOperator then
      .template 2 p.functions.modulo
    else
      .between (.parensIf (.piece 0) (a.precedence < op.precedence)) [.space, op.token, .space]
        (.parensIf (.piece 1)
          (b.precedence < op.precedence || b.precedence == op.precedence && !op.isAssociative))
  | .unary .not a => .before [.keyword .not, .space] (.parensIf (.piece 0) (a.precedence < 6))
  | .unary .neg a => .before [.symbol .minus] (.parensIf (.piece 0) (a.precedence < 6))
  | .isNull a negated =>
    .after (.parensIf (.piece 0) (a.precedence ≤ 3))
      [.space, .keyword (if negated then .isNotNull else .isNull)]
  | .like _ _ escape negated =>
    let like := .between (.piece 0) (.space :: negation negated ++ [.keyword .like, .space])
      (.piece 1)
    if escape.isSome then
      .between like [.space, .keyword .escape, .space] (.piece 2)
    else
      like
  | .inList _ _ negated =>
    .between (.piece 0) (.space :: negation negated ++ [.keyword .in_, .space]) (.parens .rest)
  | .existsIn _ negated =>
    .before (negation negated ++ [.keyword .exists_, .space]) (.parens (.piece 0))
  | .inSelect _ _ negated =>
    .between (.piece 0) (.space :: negation negated ++ [.keyword .in_, .space])
      (.parens (.piece 1))
  | .cast .. => .template 2 p.functions.cast
  | .textFunction f _ => .template 1 (textTemplate p.functions f)
  | .trim _ _ side => .template 2 (trimTemplate p.functions side)
  | .concat .. => .template 2 p.functions.concatenate
  | .suffix .. => .call 2 p.functions.substring
  | .substring .. => .call 3 p.functions.substring
  | .indexOf .. => .template 2 p.functions.indexOf
  | .indexOfFrom .. => .template 3 p.functions.indexOfFrom
  | .aggregate f _ distinct =>
    .before [.raw f.name]
      (.parens (.before (if distinct then [.keyword .distinct, .space] else []) (.piece 0)))
  | .column .. | .literal _ | .param _ | .clock _ | .aggregateRows .. | .raw _ => .piece 0

variable {ctx : RenderContext}

theorem fragments_eq (es : List Expr) : fragments ctx es = es.mapM (·.fragment ctx) := by
  induction es with
  | nil => rfl
  | cons e es ih => rw [fragments, List.mapM_cons, ih]

def pieces (ctx : RenderContext) (e : Expr) : Compile (List Fragment) := do
  return (← e.operands.mapM (·.fragment ctx)) ++ (← e.own ctx)

theorem fragment_eq_run (e : Expr)
    : e.fragment ctx = e.pieces ctx >>= fun fs => (e.assembly ctx.profile).run ctx.profile fs := by
  have hpair : List.range 2 = [0, 1] := rfl
  have htriple : List.range 3 = [0, 1, 2] := rfl
  cases e with
  | binary op a b =>
    simp only [fragment, pieces, operands, own, assembly]
    split
    · simp [Assembly.run, hpair, List.mapM_cons]
    · simp [Assembly.run, Assembly.build, Assembly.build_parensIf]
  | unary op a =>
    cases op <;>
      simp [fragment, pieces, operands, own, assembly, Assembly.run, Assembly.build,
        Assembly.build_parensIf]
  | isNull a negated =>
    simp [fragment, pieces, operands, own, assembly, Assembly.run, Assembly.build,
      Assembly.build_parensIf]
  | like a b escape negated =>
    cases escape with
    | none =>
      simp [fragment, pieces, operands, own, assembly, Assembly.run, Assembly.build,
        Fragment.append_empty]
    | some c =>
      have hescape (f : Fragment) (t : Token)
          : f ++ .ofTokens [.space, .keyword .escape, .space, t]
            = f ++ .ofTokens [.space, .keyword .escape, .space] ++ .ofTokens [t] :=
        (Fragment.append_assoc f (.ofTokens [.space, .keyword .escape, .space])
          (.ofTokens [t])).symm
      simp [fragment, pieces, operands, own, assembly, Assembly.run, Assembly.build, hescape]
  | inList a values negated =>
    simp [fragment, fragments_eq, pieces, operands, own, assembly, Assembly.run, Assembly.build]
  | cast a typeName =>
    simp [fragment, pieces, operands, own, assembly, Assembly.run, hpair, List.mapM_cons,
      Fragment.serialize_eq_ok]
  | _ =>
    simp [fragment, pieces, operands, own, assembly, Assembly.run, Assembly.build, hpair, htriple,
      List.mapM_cons]

/-! ## Texts without a panic -/

end Expr

theorem Literal.isWritable_token {value : Literal} {t : Token} (h : value.token = .ok t)
    : t.isWritable = true := by
  cases value with
  | float x =>
    simp only [token] at h
    split at h
    · next hx =>
      cases h
      exact hx
    · cases h
  | _ =>
    cases h
    rfl

namespace Token

def isFixed : Token → Bool
  | .keyword _ | .symbol _ | .space | .param => true
  | _ => false

theorem isWritable_of_isFixed {t : Token} (h : t.isFixed = true) : t.isWritable = true := by
  cases t with
  | float x => cases h
  | _ => rfl

end Token

namespace Assembly

variable {p : Profile} {pieces : List Fragment} {a : Assembly}

theorem tokens_parensIf (a : Assembly) (needed : Bool) : (a.parensIf needed).tokens = a.tokens := by
  cases needed <;> rfl

theorem writable_getD (h : ∀ f ∈ pieces, f.Writable) (i : Nat)
    : (pieces.getD i .empty).Writable := by
  rw [List.getD_eq_getElem?_getD]
  cases hi : pieces[i]? with
  | none => exact Fragment.writable_empty
  | some f => exact h f (List.mem_of_getElem? hi)

theorem writable_build (htokens : ∀ t ∈ a.tokens, t.isWritable = true)
    (h : ∀ f ∈ pieces, f.Writable) : (a.build p pieces).Writable := by
  induction a with
  | piece i => exact writable_getD h i
  | before ts a ih =>
    rw [tokens, List.forall_mem_append] at htokens
    exact Fragment.writable_append.mpr ⟨htokens.1, ih htokens.2⟩
  | after a ts ih =>
    rw [tokens, List.forall_mem_append] at htokens
    exact Fragment.writable_append.mpr ⟨ih htokens.1, htokens.2⟩
  | between a ts b iha ihb =>
    simp only [tokens, List.forall_mem_append] at htokens
    simp only [build, Fragment.writable_append]
    exact ⟨⟨iha htokens.1.1, htokens.1.2⟩, ihb htokens.2⟩
  | parens a ih => exact Fragment.writable_parens.mpr (ih htokens)
  | rest => exact .commaSep fun f hf => h f (List.mem_of_mem_tail hf)
  | template count text | call count name =>
    exact List.forall_mem_singleton.mpr rfl

theorem run_eq_ok (h : ∀ f ∈ pieces, f.Writable) : a.run p pieces = .ok (a.build p pieces) := by
  have hargs (count : Nat)
      : (List.range count).mapM (fun i => (pieces.getD i .empty).serialize p)
        = .ok (args p pieces count) :=
    Compile.mapM_eq_ok_map fun i => Fragment.serialize_eq_ok (writable_getD h i)
  cases a with
  | template count text =>
    simp only [run, hargs]
    rfl
  | call count name =>
    simp only [run, hargs]
    rfl
  | _ => rfl

end Assembly

namespace Expr

variable {ctx : RenderContext}

theorem writable_own {e : Expr} {own : List Fragment} (h : e.own ctx = .ok own)
    : ∀ f ∈ own, f.Writable := by
  cases e with
  | column a name =>
    cases h
    cases ctx.qualify <;> simp [Token.column, Token.isWritable]
  | literal value =>
    obtain ⟨t, ht, h⟩ := Compile.bind_eq_ok_iff.mp h
    cases h
    simpa using Literal.isWritable_token ht
  | existsIn | inSelect =>
    obtain ⟨r, _, h⟩ := Compile.bind_eq_ok_iff.mp h
    cases h
    simp
  | like a b escape negated =>
    cases escape <;>
    · cases h
      simp [Token.isWritable]
  | _ =>
    cases h
    simp [Token.parens, Token.isWritable]

theorem mem_tokens_assembly {p : Profile} {e : Expr} {t : Token} (h : t ∈ (e.assembly p).tokens)
    : t.isFixed = true ∨ ∃ f : AggregateFunction, t = .raw f.name := by
  have hfixed : ∀ {ts : List Token}, ts.all Token.isFixed = true → t ∈ ts →
      t.isFixed = true ∨ ∃ f : AggregateFunction, t = .raw f.name :=
    fun hts ht => .inl (List.all_eq_true.mp hts t ht)
  cases e with
  | binary op a b =>
    simp only [assembly] at h
    split at h
    · cases h
    · simp only [Assembly.tokens, Assembly.tokens_parensIf] at h
      exact hfixed (by cases op <;> rfl) h
  | unary op a =>
    cases op <;>
    · simp only [assembly, Assembly.tokens, Assembly.tokens_parensIf] at h
      exact hfixed rfl h
  | isNull a negated =>
    simp only [assembly, Assembly.tokens, Assembly.tokens_parensIf] at h
    exact hfixed (by cases negated <;> rfl) h
  | like a b escape negated => exact hfixed (by cases escape <;> cases negated <;> rfl) h
  | inList _ _ negated | existsIn _ negated | inSelect _ _ negated =>
    exact hfixed (by cases negated <;> rfl) h
  | aggregate f a distinct =>
    obtain rfl | h := List.mem_cons.mp h
    · exact .inr ⟨f, rfl⟩
    · exact hfixed (by cases distinct <;> rfl) h
  | _ => cases h

theorem isWritable_of_mem_tokens {p : Profile} {e : Expr} {t : Token}
    (h : t ∈ (e.assembly p).tokens) : t.isWritable = true := by
  obtain h | ⟨f, rfl⟩ := mem_tokens_assembly h
  · exact Token.isWritable_of_isFixed h
  · rfl

mutual

/--
What holds of an expression whenever it holds of its operands holds of all expressions.
-/
theorem of_operands {P : Expr → Prop} (step : ∀ e, (∀ a ∈ e.operands, P a) → P e)
    : ∀ e, P e := by
  intro e
  apply step
  cases e with
  | column | literal | param | existsIn | clock | aggregateRows | raw => simp [operands]
  | unary _ a | isNull a _ | inSelect a _ _ | cast a _ | textFunction _ a | aggregate _ a _ =>
    simpa [operands] using of_operands step a
  | binary _ a b | like a b _ _ | trim a b _ | concat a b | suffix a b | indexOf a b =>
    simpa [operands] using ⟨of_operands step a, of_operands step b⟩
  | inList a vs =>
    simpa [operands] using ⟨of_operands step a, of_operands_of_mem step vs⟩
  | substring a b c | indexOfFrom a b c =>
    simpa [operands] using ⟨of_operands step a, of_operands step b, of_operands step c⟩

theorem of_operands_of_mem {P : Expr → Prop} (step : ∀ e, (∀ a ∈ e.operands, P a) → P e)
    : ∀ (es : List Expr), ∀ e ∈ es, P e := by
  intro es
  cases es with
  | nil => simp
  | cons e es => simpa using ⟨of_operands step e, of_operands_of_mem step es⟩

end

theorem pieces_eq_ok_iff {e : Expr} {fs : List Fragment}
    : e.pieces ctx = .ok fs
        ↔ ∃ operands own, List.Forall₂ (fun a f => a.fragment ctx = .ok f) e.operands operands
            ∧ e.own ctx = .ok own ∧ operands ++ own = fs := by
  unfold pieces
  simp only [Compile.bind_eq_ok_iff, Compile.mapM_eq_ok_iff, Compile.pure_eq_ok, Except.ok.injEq]
  grind

theorem writable_fragment (e : Expr) : ∀ {f : Fragment}, e.fragment ctx = .ok f → f.Writable := by
  induction e using of_operands with
  | step e ih =>
    intro f h
    rw [fragment_eq_run] at h
    obtain ⟨fs, hfs, h⟩ := Compile.bind_eq_ok_iff.mp h
    obtain ⟨operands, own, hoperands, hown, rfl⟩ := pieces_eq_ok_iff.mp hfs
    have hpieces : ∀ f ∈ operands ++ own, f.Writable := by
      refine List.forall_mem_append.mpr ⟨fun f hf => ?_, writable_own hown⟩
      obtain ⟨a, ha, haf⟩ := Compile.exists_of_mem_forall₂ hoperands f hf
      exact ih a ha haf
    rw [Assembly.run_eq_ok hpieces] at h
    cases h
    exact Assembly.writable_build (fun _ => isWritable_of_mem_tokens) hpieces

theorem writable_pieces {e : Expr} {fs : List Fragment} (h : e.pieces ctx = .ok fs)
    : ∀ f ∈ fs, f.Writable := by
  obtain ⟨operands, own, hoperands, hown, rfl⟩ := pieces_eq_ok_iff.mp h
  refine List.forall_mem_append.mpr ⟨fun f hf => ?_, writable_own hown⟩
  obtain ⟨a, _, ha⟩ := Compile.exists_of_mem_forall₂ hoperands f hf
  exact writable_fragment a ha

theorem fragment_eq (e : Expr)
    : e.fragment ctx = do
        let operands ← e.operands.mapM (·.fragment ctx)
        let own ← e.own ctx
        return (e.assembly ctx.profile).build ctx.profile (operands ++ own) := by
  have hpieces : e.fragment ctx = do
      return (e.assembly ctx.profile).build ctx.profile (← e.pieces ctx) := by
    rw [fragment_eq_run]
    exact Compile.bind_congr_of_ok fun fs hfs => Assembly.run_eq_ok (writable_pieces hfs)
  rw [hpieces, pieces]
  simp only [bind_assoc, pure_bind]

theorem sql_eq (e : Expr) : e.sql ctx = do return (← e.fragment ctx).render ctx.profile :=
  Compile.bind_congr_of_ok fun _ hf => Fragment.serialize_eq_ok (writable_fragment e hf)

/-! ## Words between the pieces -/

end Expr

structure Functions.Meets (T : Nat → String → Prop) (N : String → Prop) (f : Functions) : Prop where
  cast : T 2 f.cast
  text : ∀ t, T 1 (Expr.textTemplate f t)
  trim : ∀ side, T 2 (Expr.trimTemplate f side)
  concatenate : T 2 f.concatenate
  indexOf : T 2 f.indexOf
  indexOfFrom : T 3 f.indexOfFrom
  modulo : T 2 f.modulo
  substring : N f.substring
  clock : ∀ c, N (Expr.clockText f c)

def Assembly.Spaced (T : Nat → String → Prop) (N : String → Prop) : Assembly → Prop
  | .piece _ | .rest => True
  | .before _ a | .after a _ | .parens a => a.Spaced T N
  | .between a ts b => a.Spaced T N ∧ ts.head? = some .space ∧ b.Spaced T N
  | .template count text => T count text
  | .call _ name => N name

theorem Assembly.spaced_parensIf {T : Nat → String → Prop} {N : String → Prop} {a : Assembly}
    {needed : Bool} : (a.parensIf needed).Spaced T N ↔ a.Spaced T N := by
  cases needed <;> rfl

theorem Token.writeAll_ne_empty {p : Profile} {ts : List Token} (h : ts.head? = some .space)
    : writeAll p ts ≠ "" := by
  obtain ⟨us, rfl⟩ := List.head?_eq_some_iff.mp h
  simp [writeAll, write]

namespace Expr

variable {ctx : RenderContext}

theorem spaced_assembly {p : Profile} {T : Nat → String → Prop} {N : String → Prop}
    (hf : p.functions.Meets T N) (e : Expr) : (e.assembly p).Spaced T N := by
  have hpiece (i : Nat) (needed : Bool) : ((Assembly.piece i).parensIf needed).Spaced T N :=
    Assembly.spaced_parensIf.mpr trivial
  cases e with
  | binary op a b =>
    simp only [assembly]
    split
    · exact hf.modulo
    · exact ⟨hpiece 0 _, rfl, hpiece 1 _⟩
  | unary op a => cases op <;> exact hpiece 0 _
  | isNull a negated => exact hpiece 0 _
  | like a b escape negated => cases escape <;> simp [assembly, Assembly.Spaced]
  | inList a vs negated | inSelect a scope negated => exact ⟨trivial, rfl, trivial⟩
  | cast => exact hf.cast
  | textFunction f a => exact hf.text f
  | trim a b side => exact hf.trim side
  | concat => exact hf.concatenate
  | suffix | substring => exact hf.substring
  | indexOf => exact hf.indexOf
  | indexOfFrom => exact hf.indexOfFrom
  | _ => trivial

/-! ## Induction -/

theorem fragment_induction {P : Expr → Fragment → Prop}
    (step : ∀ e operands own, List.Forall₂ P e.operands operands → e.own ctx = .ok own →
      P e ((e.assembly ctx.profile).build ctx.profile (operands ++ own)))
    (e : Expr) : ∀ {f : Fragment}, e.fragment ctx = .ok f → P e f := by
  induction e using of_operands with
  | step e ih =>
    intro f h
    rw [fragment_eq] at h
    obtain ⟨operands, hoperands, h⟩ := Compile.bind_eq_ok_iff.mp h
    obtain ⟨own, hown, h⟩ := Compile.bind_eq_ok_iff.mp h
    cases h
    refine step e operands own ?_ hown
    have hboth := (List.forall₂_and_left _ _).mpr ⟨ih, Compile.mapM_eq_ok_iff.mp hoperands⟩
    exact hboth.imp fun _ _ h => h.1 h.2

section

open Compile (Agree Tracks)

theorem agree_fragment_of (Good : Expr → Prop) (ctx ctx' : RenderContext) (change : Expr → Expr)
    {R : Fragment → Fragment → Prop} (hprofile : ctx'.profile = ctx.profile)
    (hoperands : ∀ e, (change e).operands = e.operands.map change)
    (hassembly : ∀ e, (change e).assembly ctx.profile = e.assembly ctx.profile)
    (hgood : ∀ e, Good e → ∀ a ∈ e.operands, Good a)
    (hown : ∀ e, Good e → Agree (List.Forall₂ R) (e.own ctx) ((change e).own ctx'))
    (hbuild : ∀ e, Good e → ∀ fs gs, List.Forall₂ R fs gs →
      R ((e.assembly ctx.profile).build ctx.profile fs)
        ((e.assembly ctx.profile).build ctx.profile gs))
    (e : Expr) : Good e → Agree R (e.fragment ctx) ((change e).fragment ctx') := by
  induction e using of_operands with
  | step e ih =>
    intro he
    rw [fragment_eq, fragment_eq, hprofile, hassembly, hoperands, List.mapM_map]
    refine (Agree.mapM fun a ha => ih a ha (hgood e he a ha)).bind fun fs gs hfs => ?_
    refine (hown e he).map fun own own' h => ?_
    exact hbuild e he _ _ (List.rel_append hfs h)

theorem tracks_fragment_of {ι : Type} (Good : Expr → Prop) (ctx : RenderContext)
    (ctx' : ι → RenderContext) (change : ι → Expr → Expr)
    {R : Expr → Fragment → (ι → Fragment) → Prop} (hprofile : ∀ i, (ctx' i).profile = ctx.profile)
    (hoperands : ∀ i e, (change i e).operands = e.operands.map (change i))
    (hassembly : ∀ i e, (change i e).assembly ctx.profile = e.assembly ctx.profile)
    (hgood : ∀ e, Good e → ∀ a ∈ e.operands, Good a)
    (hstep : ∀ e, Good e → ∀ fs gs, Alongside R e.operands fs gs →
      Tracks
        (fun own own' => R e ((e.assembly ctx.profile).build ctx.profile (fs ++ own))
          fun i => (e.assembly ctx.profile).build ctx.profile (gs i ++ own' i))
        (e.own ctx) fun i => (change i e).own (ctx' i))
    (e : Expr)
    : Good e → Tracks (R e) (e.fragment ctx) fun i => (change i e).fragment (ctx' i) := by
  induction e using of_operands with
  | step e ih =>
    intro he
    have hother (i : ι) : (change i e).fragment (ctx' i) = do
        let operands ← (e.operands.map (change i)).mapM (·.fragment (ctx' i))
        let own ← (change i e).own (ctx' i)
        return (e.assembly ctx.profile).build ctx.profile (operands ++ own) := by
      rw [fragment_eq, hprofile, hassembly, hoperands]
    simp only [hother]
    rw [fragment_eq]
    refine (Tracks.mapM_alongside fun a ha => ih a ha (hgood e he a ha)).bind fun fs gs hfs => ?_
    exact (hstep e he fs gs hfs).map fun own own' h => h

end

end Expr
end SqlDialect
