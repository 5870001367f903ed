import SqlDialect.Proofs.Compile
import SqlDialect.Proofs.Expr.Faults

/-!
This module contains how the texts of conditions on groups of rows are read. AND holds together more
tightly than OR, so an OR outside of parentheses makes the whole text a disjunction.
-/

namespace SqlDialect

/-! ## Words outside of parentheses -/

namespace Token

def outermostFrom : Nat → List Token → List Token
  | _, [] => []
  | depth, .symbol .lparen :: ts => outermostFrom (depth + 1) ts
  | depth, .symbol .rparen :: ts => outermostFrom (depth - 1) ts
  | 0, t :: ts => t :: outermostFrom 0 ts
  | depth + 1, _ :: ts => outermostFrom (depth + 1) ts

def outermost (ts : List Token) : List Token := outermostFrom 0 ts

structure Nested (ts : List Token) : Prop where
  outside : ∀ us, outermost (ts ++ us) = outermost ts ++ outermost us
  inside : ∀ depth us, outermostFrom (depth + 1) (ts ++ us) = outermostFrom (depth + 1) us

namespace Nested

variable {ts us : List Token}

theorem nil : Nested [] := ⟨fun _ => rfl, fun _ _ => rfl⟩

theorem append (h : Nested ts) (h' : Nested us) : Nested (ts ++ us) where
  outside vs := by rw [List.append_assoc, h.outside, h'.outside, h.outside, List.append_assoc]
  inside depth vs := by rw [List.append_assoc, h.inside, h'.inside]

theorem outermost_parens (h : Nested ts) : outermost (parens ts) = [] := by
  change outermostFrom 1 (ts ++ [.symbol .rparen]) = []
  rw [h.inside]
  rfl

theorem parens (h : Nested ts) : Nested (parens ts) where
  outside us := by
    rw [h.outermost_parens, Token.parens, List.append_assoc, List.cons_append]
    change outermostFrom 1 (ts ++ (.symbol .rparen :: us)) = _
    rw [h.inside]
    rfl
  inside depth us := by
    rw [Token.parens, List.append_assoc, List.cons_append]
    change outermostFrom (depth + 2) (ts ++ (.symbol .rparen :: us)) = _
    rw [h.inside]
    rfl

end Nested

theorem outermost_words {ts : List Token}
    (h : ∀ t ∈ ts, t ≠ .symbol .lparen ∧ t ≠ .symbol .rparen) : Nested ts ∧ outermost ts = ts := by
  induction ts with
  | nil => exact ⟨.nil, rfl⟩
  | cons t ts ih =>
    obtain ⟨⟨hl, hr⟩, hts⟩ := List.forall_mem_cons.mp h
    have hout : ∀ us, outermost (t :: us) = t :: outermost us := by
      intro us
      unfold outermost
      rw [outermostFrom]
      · exact hl
      · exact hr
    have hin : ∀ depth us, outermostFrom (depth + 1) (t :: us) = outermostFrom (depth + 1) us := by
      intro depth us
      rw [outermostFrom]
      · exact hl
      · exact hr
    have hword : Nested [t] := ⟨fun us => by rw [hout []]; exact hout us, hin⟩
    obtain ⟨hnested, heq⟩ := ih hts
    refine ⟨hword.append hnested, ?_⟩
    rw [hout, heq]

theorem Nested.negation {ts : List Token} (h : Nested ts)
    : let sign : List Token := [.keyword .not, .space]
      Nested (sign ++ ts) ∧ outermost (sign ++ ts) = sign ++ outermost ts := by
  intro sign
  obtain ⟨hsign, hwords⟩ : Nested sign ∧ outermost sign = sign := outermost_words (by simp [sign])
  refine ⟨hsign.append h, ?_⟩
  rw [hsign.outside, hwords]

theorem Nested.operator {ts us : List Token} (h : Nested ts) (op : BinaryOp) (h' : Nested us)
    : let sign : List Token := [.space, op.token, .space]
      Nested (ts ++ sign ++ us)
        ∧ outermost (ts ++ sign ++ us) = outermost ts ++ sign ++ outermost us := by
  intro sign
  obtain ⟨hsign, hwords⟩ : Nested sign ∧ outermost sign = sign :=
    outermost_words (by cases op <;> simp [sign, BinaryOp.token])
  refine ⟨(h.append hsign).append h', ?_⟩
  rw [(h.append hsign).outside, h.outside, hwords]

end Token

namespace Fragment

variable {f : Fragment}

theorem nested_parensIf (h : Token.Nested f.tokens) (needed : Bool)
    : Token.Nested (f.parensIf needed).tokens := by
  cases needed with
  | false => exact h
  | true => exact h.parens

theorem outermost_parensIf (h : Token.Nested f.tokens) (needed : Bool)
    : Token.outermost (f.parensIf needed).tokens
        =
      if needed then [] else Token.outermost f.tokens := by
  cases needed with
  | false => rfl
  | true => exact h.outermost_parens

end Fragment

namespace Expr

def isGroupConditionPart : Expr → Bool
  | .column .. | .literal _ | .param _ | .aggregate .. | .aggregateRows .. | .unary .not _ => true
  | .binary op _ _ => op.precedence ≤ BinaryOp.eq.precedence
  | _ => false

def isGroupCondition (e : Expr) : Bool := e.parts.all isGroupConditionPart

theorem isOr_binary (op : BinaryOp) (l r : Expr) : (binary op l r).isOr = decide (op = .or) := by
  cases op <;> rfl

theorem precedence_of_isOr {e : Expr} (h : e.isOr) : e.precedence = 1 := by
  unfold isOr at h
  split at h
  · rfl
  · cases h

structure ShowsOr (e : Expr) (f : Fragment) : Prop where
  nested : Token.Nested f.tokens
  or_mem_iff : .keyword .or ∈ Token.outermost f.tokens ↔ e.isOr

namespace ShowsOr

variable {e l r : Expr} {f g : Fragment} {needed needed' : Bool}

theorem of_words (he : e.isOr = false)
    (h : ∀ t ∈ f.tokens, t ≠ .symbol .lparen ∧ t ≠ .symbol .rparen ∧ t ≠ .keyword .or)
    : e.ShowsOr f := by
  obtain ⟨hnested, hwords⟩ := Token.outermost_words fun t ht => ⟨(h t ht).1, (h t ht).2.1⟩
  refine ⟨hnested, ?_⟩
  rw [hwords, he]
  simpa using fun hor => (h _ hor).2.2 rfl

theorem or_not_mem_parensIf (h : e.ShowsOr f) (hneeded : e.isOr → needed)
    : .keyword .or ∉ Token.outermost (f.parensIf needed).tokens := by
  rw [Fragment.outermost_parensIf h.nested]
  split
  · simp
  · next hnot =>
    rw [h.or_mem_iff]
    exact fun he => hnot (hneeded he)

theorem call (he : e.isOr = false) (name : String) (h : Token.Nested f.tokens)
    : e.ShowsOr (.ofTokens [.raw name] ++ f.parens) := by
  have hname : Token.Nested [.raw name] := (Token.outermost_words (by simp)).1
  refine ⟨hname.append h.parens, ?_⟩
  change .keyword .or ∈ Token.outermost ([.raw name] ++ Token.parens f.tokens) ↔ _
  rw [hname.outside, h.outermost_parens, he]
  simp [Token.outermost, Token.outermostFrom]

theorem not (h : l.ShowsOr f) (hneeded : l.isOr → needed)
    : (unary .not l).ShowsOr (.ofTokens [.keyword .not, .space] ++ f.parensIf needed) := by
  obtain ⟨hnested, houtermost⟩ := (Fragment.nested_parensIf h.nested needed).negation
  refine ⟨hnested, ?_⟩
  change .keyword .or ∈ Token.outermost ([.keyword .not, .space] ++ (f.parensIf needed).tokens) ↔ _
  rw [houtermost]
  simp [h.or_not_mem_parensIf hneeded, isOr]

theorem binary (op : BinaryOp) (hl : l.ShowsOr f) (hr : r.ShowsOr g)
    (hneeded : op ≠ .or → l.isOr → needed) (hneeded' : op ≠ .or → r.isOr → needed')
    : (binary op l r).ShowsOr
        (f.parensIf needed ++ .ofTokens [.space, op.token, .space] ++ g.parensIf needed') := by
  obtain ⟨hnested, houtermost⟩ := (Fragment.nested_parensIf hl.nested needed).operator op
    (Fragment.nested_parensIf hr.nested needed')
  refine ⟨hnested, ?_⟩
  change .keyword .or ∈ Token.outermost
    ((f.parensIf needed).tokens ++ [.space, op.token, .space] ++ (g.parensIf needed').tokens) ↔ _
  rw [houtermost]
  by_cases hop : op = .or
  · simp [hop, isOr_binary, BinaryOp.token]
  · have hsign : Token.keyword .or ≠ op.token := by cases op <;> simp_all [BinaryOp.token]
    simp [hl.or_not_mem_parensIf (hneeded hop), hr.or_not_mem_parensIf (hneeded' hop), hsign, hop,
      isOr_binary]

end ShowsOr

variable {ctx : RenderContext} {f : Fragment}

theorem exists_operand {op : UnaryOp} {a : Expr} (hgroup : (unary op a).isGroupCondition)
    (h : (unary op a).fragment ctx = .ok f)
    : op = .not ∧ a.isGroupCondition
        ∧ ∃ g, a.fragment ctx = .ok g
            ∧ f = .ofTokens [.keyword .not, .space] ++ g.parensIf (a.precedence < 6) := by
  obtain ⟨g, hg, h⟩ := Compile.bind_eq_ok_iff.mp h
  cases h
  cases op with
  | neg => simp [isGroupCondition, parts, isGroupConditionPart] at hgroup
  | not =>
    have ha : a.isGroupCondition := by simp_all [isGroupCondition, parts]
    exact ⟨rfl, ha, g, hg, rfl⟩

-- An operand that is an OR is in parentheses, unless the operator is OR too.
theorem exists_operands {op : BinaryOp} {a b : Expr} (hgroup : (binary op a b).isGroupCondition)
    (h : (binary op a b).fragment ctx = .ok f)
    : a.isGroupCondition ∧ b.isGroupCondition
        ∧ ∃ g k needed needed', a.fragment ctx = .ok g ∧ b.fragment ctx = .ok k
            ∧ f = g.parensIf needed ++ .ofTokens [.space, op.token, .space] ++ k.parensIf needed'
            ∧ (op ≠ .or → a.isOr → needed) ∧ (op ≠ .or → b.isOr → needed') := by
  simp only [fragment] at h
  obtain ⟨g, hg, h⟩ := Compile.bind_eq_ok_iff.mp h
  obtain ⟨k, hk, h⟩ := Compile.bind_eq_ok_iff.mp h
  obtain ⟨ha, hb, hop⟩ : a.isGroupCondition ∧ b.isGroupCondition
      ∧ op.precedence ≤ BinaryOp.eq.precedence := by
    simpa [isGroupCondition, parts, isGroupConditionPart] using hgroup
  rw [if_neg (by rintro ⟨rfl, _⟩; simp [BinaryOp.precedence] at hop)] at h
  cases h
  have hloose : ∀ d : Expr, op ≠ .or → d.isOr → d.precedence < op.precedence := by
    intro d hne hd
    rw [precedence_of_isOr hd]
    cases op <;> simp_all [BinaryOp.precedence]
  refine ⟨ha, hb, g, k, _, _, hg, hk, rfl, ?_, ?_⟩
  · exact fun hne hor => by simp [hloose a hne hor]
  · exact fun hne hor => by simp [hloose b hne hor]

theorem showsOr_fragment
    : ∀ (e : Expr) {f : Fragment}, e.isGroupCondition → e.fragment ctx = .ok f → e.ShowsOr f := by
  intro e f hgroup h
  cases e with
  | column a name =>
    cases h
    apply ShowsOr.of_words rfl
    cases ctx.qualify <;> simp [Fragment.ofTokens, Token.column]
  | param name =>
    cases h
    exact .of_words rfl (by simp [Fragment.ofParam])
  | literal value =>
    obtain ⟨t, ht, h⟩ := Compile.bind_eq_ok_iff.mp h
    cases h
    apply ShowsOr.of_words rfl
    cases value with
    | float x =>
      simp only [Literal.token] at ht
      split at ht <;> cases ht
      simp [Fragment.ofTokens]
    | _ =>
      cases ht
      simp [Fragment.ofTokens]
  | aggregate function a distinct =>
    obtain ⟨g, hg, h⟩ := Compile.bind_eq_ok_iff.mp h
    cases h
    have ha : a.isGroupCondition := by simp_all [isGroupCondition, parts]
    apply ShowsOr.call rfl
    apply Token.Nested.append _ (showsOr_fragment a ha hg).nested
    cases distinct with
    | false => exact .nil
    | true => exact (Token.outermost_words (by simp [Fragment.ofTokens])).1
  | aggregateRows function distinct =>
    cases h
    have hstar : Token.Nested (Fragment.ofTokens [.symbol .star]).tokens :=
      (Token.outermost_words (by simp [Fragment.ofTokens])).1
    exact .call rfl function.name hstar
  | unary op a =>
    obtain ⟨rfl, ha, g, hg, rfl⟩ := exists_operand hgroup h
    apply (showsOr_fragment a ha hg).not
    intro hor
    simp [precedence_of_isOr hor]
  | binary op a b =>
    obtain ⟨ha, hb, g, k, needed, needed', hg, hk, rfl, hneeded, hneeded'⟩ :=
      exists_operands hgroup h
    exact (showsOr_fragment a ha hg).binary op (showsOr_fragment b hb hk) hneeded hneeded'
  | _ => simp [isGroupCondition, parts, isGroupConditionPart] at hgroup

/-! ## Reading -/

def isPredicate : Expr → Bool
  | .binary op _ _ => op.precedence = BinaryOp.eq.precedence
  | .unary .. => false
  | _ => true

/--
The grammar of conditions. A predicate and a condition in parentheses are primaries, and NOT stands
before a primary. AND holds together more tightly than OR: no operand of AND has an OR outside of
parentheses. How a chain of AND or of OR is grouped is left open.
-/
inductive Reads (ctx : RenderContext) : (primary : Bool) → List Token → Expr → Prop where
  | predicate {e : Expr} {f : Fragment} (hgroup : e.isGroupCondition) (he : e.isPredicate)
      (hf : e.fragment ctx = .ok f) : Reads ctx true f.tokens e
  | parens {ts : List Token} {e : Expr} (h : Reads ctx false ts e) :
      Reads ctx true (Token.parens ts) e
  | primary {ts : List Token} {e : Expr} (h : Reads ctx true ts e) : Reads ctx false ts e
  | not {ts : List Token} {e : Expr} (h : Reads ctx true ts e) :
      Reads ctx false (([.keyword .not, .space] : List Token) ++ ts) (.unary .not e)
  | and {ts us : List Token} {l r : Expr} (hl : Reads ctx false ts l) (hr : Reads ctx false us r)
      (hts : .keyword .or ∉ Token.outermost ts) (hus : .keyword .or ∉ Token.outermost us) :
      Reads ctx false (ts ++ ([.space, .keyword .and, .space] : List Token) ++ us)
        (.binary .and l r)
  | or {ts us : List Token} {l r : Expr} (hl : Reads ctx false ts l) (hr : Reads ctx false us r) :
      Reads ctx false (ts ++ ([.space, .keyword .or, .space] : List Token) ++ us)
        (.binary .or l r)

theorem isOr_of_isPredicate {e : Expr} (h : e.isPredicate) : e.isOr = false := by
  cases e with
  | binary op l r =>
    rw [isOr_binary]
    cases op <;> simp_all [isPredicate, BinaryOp.precedence]
  | _ => rfl

-- Only values need no parentheses after NOT.
theorem isPredicate_of_precedence {e : Expr} (hgroup : e.isGroupCondition)
    (h : ¬ e.precedence < 6) : e.isPredicate := by
  cases e with
  | binary op l r => cases op <;> simp [precedence, BinaryOp.precedence] at h
  | unary op l =>
    cases op with
    | not => simp [precedence] at h
    | neg => simp [isGroupCondition, parts, isGroupConditionPart] at hgroup
  | _ => rfl

theorem Reads.parensIf {e : Expr} {f : Fragment} (h : Reads ctx false f.tokens e) (needed : Bool)
    : Reads ctx false (f.parensIf needed).tokens e := by
  cases needed with
  | false => exact h
  | true => exact .primary (.parens h)

theorem Reads.isOr {primary : Bool} {ts : List Token} {e : Expr} (h : Reads ctx primary ts e)
    : Token.Nested ts
        ∧ (.keyword .or ∈ Token.outermost ts → primary = false ∧ e.isOr) := by
  induction h with
  | predicate hgroup he hf =>
    obtain ⟨hnested, hor⟩ := showsOr_fragment _ hgroup hf
    refine ⟨hnested, fun hmem => ?_⟩
    rw [hor, isOr_of_isPredicate he] at hmem
    cases hmem
  | parens _ ih =>
    refine ⟨ih.1.parens, fun hmem => ?_⟩
    rw [ih.1.outermost_parens] at hmem
    cases hmem
  | primary _ ih => exact ⟨ih.1, fun hmem => ⟨rfl, (ih.2 hmem).2⟩⟩
  | not _ ih =>
    obtain ⟨hnested, houtermost⟩ := ih.1.negation
    refine ⟨hnested, fun hmem => ?_⟩
    rw [houtermost] at hmem
    obtain ⟨hprimary, _⟩ := ih.2 (by simpa using hmem)
    cases hprimary
  | and _ _ hts hus ihl ihr =>
    obtain ⟨hnested, houtermost⟩ := ihl.1.operator .and ihr.1
    refine ⟨hnested, fun hmem => ?_⟩
    rw [BinaryOp.token] at houtermost
    rw [houtermost] at hmem
    simp [hts, hus] at hmem
  | or _ _ ihl ihr => exact ⟨(ihl.1.operator .or ihr.1).1, fun _ => ⟨rfl, rfl⟩⟩

theorem reads_fragment
    : ∀ (e : Expr) {f : Fragment}, e.isGroupCondition → e.fragment ctx = .ok f →
        Reads ctx false f.tokens e := by
  intro e f hgroup h
  cases e with
  | column | literal | param | aggregate | aggregateRows =>
    exact .primary (.predicate hgroup rfl h)
  | unary op a =>
    obtain ⟨rfl, ha, g, hg, rfl⟩ := exists_operand hgroup h
    apply Reads.not
    by_cases hloose : a.precedence < 6
    · rw [decide_eq_true hloose]
      exact .parens (reads_fragment a ha hg)
    · rw [decide_eq_false hloose]
      exact .predicate ha (isPredicate_of_precedence ha hloose) hg
  | binary op a b =>
    obtain ⟨ha, hb, g, k, needed, needed', hg, hk, hf, hneeded, hneeded'⟩ :=
      exists_operands hgroup h
    have hl := (reads_fragment a ha hg).parensIf needed
    have hr := (reads_fragment b hb hk).parensIf needed'
    cases op with
    | and =>
      rw [hf]
      apply Reads.and hl hr
      · exact (showsOr_fragment a ha hg).or_not_mem_parensIf (hneeded (by decide))
      · exact (showsOr_fragment b hb hk).or_not_mem_parensIf (hneeded' (by decide))
    | or =>
      rw [hf]
      exact Reads.or hl hr
    | eq | ne | lt | gt | le | ge => exact .primary (.predicate hgroup rfl h)
    | add | sub | mul | div | mod =>
      simp [isGroupCondition, parts, isGroupConditionPart, BinaryOp.precedence] at hgroup
  | _ => simp [isGroupCondition, parts, isGroupConditionPart] at hgroup

end Expr

end SqlDialect
