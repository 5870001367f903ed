import SqlDialect.Proofs.Expr.Reading

/-!
This module contains which parts of a text are in parentheses. Whatever the tree of a text is, the
operands that do not hold together are in parentheses in it. The text of an expression has none
around the operands of LIKE and IN, so if one of these does not hold together, no tree of the text
has it as an operand at its place.
-/

namespace SqlDialect

/-! ## Places of parentheses -/

def Token.weight : Token → Nat
  | .symbol .lparen | .symbol .rparen | .symbol .dot | .symbol .comma | .tableAlias _ => 0
  | _ => 1

structure Span where
  start : Nat
  stop : Nat
  deriving DecidableEq

structure ParenSearch where
  position : Nat
  /-- Where the parentheses start that have not ended yet. -/
  opened : List Nat := []
  /-- What has been found to be in parentheses. -/
  closed : List Span := []

namespace ParenSearch

def step (s : ParenSearch) (t : Token) : ParenSearch :=
  match t, s.opened with
  | .symbol .lparen, opened => { s with opened := s.position :: opened }
  | .symbol .rparen, start :: opened =>
    { s with opened, closed := s.closed ++ [⟨start, s.position⟩] }
  | t, _ => { s with position := s.position + t.weight }

def run (s : ParenSearch) (ts : List Token) : ParenSearch := ts.foldl step s

end ParenSearch

namespace Token

def weights : List Token → Nat
  | [] => 0
  | t :: ts => t.weight + weights ts

def spans (p : Nat) (ts : List Token) : List Span := (ParenSearch.run { position := p } ts).closed

def Balanced (ts : List Token) : Prop :=
  ∀ p opened closed,
    ParenSearch.run ⟨p, opened, closed⟩ ts = ⟨p + weights ts, opened, closed ++ spans p ts⟩

variable {ts us : List Token}

theorem weights_append (ts us : List Token) : weights (ts ++ us) = weights ts + weights us := by
  induction ts with
  | nil => exact (Nat.zero_add _).symm
  | cons t ts ih => rw [List.cons_append, weights, weights, ih, Nat.add_assoc]

theorem weights_parens (ts : List Token) : weights (parens ts) = weights ts := by
  simp [parens, weights, weights_append, weight]

theorem weights_eq_length (h : ∀ t ∈ ts, t.weight = 1) : weights ts = ts.length := by
  induction ts with
  | nil => rfl
  | cons t ts ih =>
    obtain ⟨ht, hts⟩ := List.forall_mem_cons.mp h
    rw [weights, ht, ih hts, List.length_cons, Nat.add_comm]

namespace Balanced

theorem spans_append (h : Balanced ts) (h' : Balanced us) (p : Nat)
    : spans p (ts ++ us) = spans p ts ++ spans (p + weights ts) us := by
  rw [spans, ParenSearch.run, List.foldl_append]
  change (ParenSearch.run (ParenSearch.run _ ts) us).closed = _
  rw [h, h', List.nil_append]

theorem append (h : Balanced ts) (h' : Balanced us) : Balanced (ts ++ us) := by
  intro p opened closed
  rw [ParenSearch.run, List.foldl_append]
  change ParenSearch.run (ParenSearch.run _ ts) us = _
  rw [h, h', h.spans_append h', weights_append, Nat.add_assoc, List.append_assoc]

theorem spans_parens (h : Balanced ts) (p : Nat)
    : spans p (parens ts) = spans p ts ++ [⟨p, p + weights ts⟩] := by
  rw [spans, ParenSearch.run, parens, List.cons_append, List.foldl_cons, List.foldl_append]
  change (ParenSearch.run (ParenSearch.run ⟨p, [p], []⟩ ts) _).closed = _
  rw [h]
  rfl

theorem parens (h : Balanced ts) : Balanced (parens ts) := by
  intro p opened closed
  rw [ParenSearch.run, Token.parens, List.cons_append, List.foldl_cons, List.foldl_append]
  change ParenSearch.run (ParenSearch.run ⟨p, p :: opened, closed⟩ ts) _ = _
  rw [h]
  change ParenSearch.mk _ _ _ = _
  rw [← List.cons_append, ← Token.parens, h.spans_parens, weights_parens, List.append_assoc]

end Balanced

def isWord : Token → Bool
  | .symbol .lparen | .symbol .rparen => false
  | _ => true

theorem isWord_of_weight {t : Token} (h : t.weight = 1) : t.isWord := by
  unfold isWord
  split
  · cases h
  · cases h
  · rfl

theorem weight_of_literal? {t : Token} {value : Literal} (h : t.literal? = some value)
    : t.weight = 1 := by
  cases t with
  | symbol | tableAlias => cases h
  | _ => rfl

theorem run_words (h : ∀ t ∈ ts, t.isWord) (s : ParenSearch)
    : s.run ts = { s with position := s.position + weights ts } := by
  induction ts generalizing s with
  | nil => rfl
  | cons t ts ih =>
    obtain ⟨ht, hts⟩ := List.forall_mem_cons.mp h
    have hstep : s.step t = { s with position := s.position + t.weight } := by
      unfold ParenSearch.step
      split
      · cases ht
      · cases ht
      · rfl
    rw [ParenSearch.run, List.foldl_cons, hstep]
    change ParenSearch.run _ ts = _
    rw [ih hts]
    simp [weights, Nat.add_assoc]

theorem spans_words (h : ∀ t ∈ ts, t.isWord) (p : Nat) : spans p ts = [] := by
  rw [spans, run_words h]

theorem Balanced.words (h : ∀ t ∈ ts, t.isWord) : Balanced ts := by
  intro p opened closed
  rw [run_words h, spans_words h, List.append_nil]

end Token

/-! ## Operands that need parentheses -/

namespace Operation

mutual

def weight : Operation → Nat
  | .column .. | .literal _ | .param _ => 1
  | .binary _ left right => left.weight + 1 + right.weight
  | .unary _ operand => 1 + operand.weight
  | .isNull operand _ => operand.weight + 1
  | .like operand pattern escape negated =>
    operand.weight + ((notWords negated).length + 1)
      + (pattern.weight + (escapeWords escape).length)
  | .inList operand values negated =>
    operand.weight + ((notWords negated).length + 1) + weightOfAll values

def weightOfAll : List Operation → Nat
  | [] => 0
  | e :: es => e.weight + weightOfAll es

end

def looseAt (level : Level) (p : Nat) (e : Operation) : List Span :=
  if e.level.rank < level.rank then [⟨p, p + e.weight⟩] else []

mutual

def exposed (p : Nat) : Operation → List Span
  | .column .. | .literal _ | .param _ => []
  | .binary _ left right => left.exposed p ++ right.exposed (p + (left.weight + 1))
  | .unary _ operand => operand.exposed (p + 1)
  | .isNull operand _ => operand.exposed p
  | .like operand pattern _ negated =>
    let q := p + (operand.weight + ((notWords negated).length + 1))
    operand.looseAt .comparison p ++ operand.exposed p
      ++ (pattern.looseAt .sum q ++ pattern.exposed q)
  | .inList operand values negated =>
    operand.looseAt .comparison p ++ operand.exposed p
      ++ exposedOfAll (p + (operand.weight + ((notWords negated).length + 1))) values

def exposedOfAll (p : Nat) : List Operation → List Span
  | [] => []
  | e :: es => e.exposed p ++ exposedOfAll (p + e.weight) es

end

theorem weight_pos (e : Operation) : 0 < e.weight := by
  cases e <;> simp only [weight] <;> omega

end Operation

/-! ## Texts without parentheses -/

/--
A part of a text, of which some parts are said to be in parentheses. Unless they are, one of them is
told.
-/
structure Laid (ts : List Token) (w : Nat) (exposed : Nat → List Span) (misses : Prop) :
    Prop where
  balanced : Token.Balanced ts
  weights : Token.weights ts = w
  within (p : Nat) (s : Span) (h : s ∈ Token.spans p ts) : p ≤ s.start ∧ s.stop ≤ p + w
  inside (p : Nat) (s : Span) (h : s ∈ exposed p) :
    p ≤ s.start ∧ s.start < s.stop ∧ s.stop ≤ p + w
  missing (h : misses) (p : Nat) : ∃ s ∈ exposed p, s ∉ Token.spans p ts

structure Whole (ts : List Token) (w : Nat) (exposed : Nat → List Span) (misses : Prop) : Prop
    extends Laid ts w exposed misses where
  pos : 0 < w
  not_enclosed (p : Nat) : ⟨p, p + w⟩ ∉ Token.spans p ts
  not_exposed (p : Nat) : ⟨p, p + w⟩ ∉ exposed p

variable {ts us : List Token} {w v : Nat} {E E' : Nat → List Span} {M M' : Prop}

namespace Laid

theorem words (h : ∀ t ∈ ts, t.isWord) : Laid ts (Token.weights ts) (fun _ => []) False where
  balanced := .words h
  weights := rfl
  within p s hs := by
    rw [Token.spans_words h] at hs
    cases hs
  inside p s hs := by cases hs
  missing h := h.elim

theorem counted (h : ∀ t ∈ ts, t.weight = 1) : Laid ts ts.length (fun _ => []) False := by
  have hwords : ∀ t ∈ ts, t.isWord := fun t ht => Token.isWord_of_weight (h t ht)
  rw [← Token.weights_eq_length h]
  exact .words hwords

theorem append (h : Laid ts w E M) (h' : Laid us v E' M')
    : Laid (ts ++ us) (w + v) (fun p => E p ++ E' (p + w)) (M ∨ M') where
  balanced := h.balanced.append h'.balanced
  weights := by rw [Token.weights_append, h.weights, h'.weights]
  within p s hs := by
    rw [h.balanced.spans_append h'.balanced, h.weights, List.mem_append] at hs
    obtain hs | hs := hs
    · have := h.within p s hs
      omega
    · have := h'.within (p + w) s hs
      omega
  inside p s hs := by
    obtain hs | hs := List.mem_append.mp hs
    · have := h.inside p s hs
      omega
    · have := h'.inside (p + w) s hs
      omega
  missing hmisses p := by
    simp only [h.balanced.spans_append h'.balanced, h.weights, List.mem_append, not_or]
    -- What is in the one part is not in the other.
    obtain hmisses | hmisses := hmisses
    · obtain ⟨s, hs, hspans⟩ := h.missing hmisses p
      refine ⟨s, .inl hs, hspans, fun hs' => ?_⟩
      have := h.inside p s hs
      have := h'.within (p + w) s hs'
      omega
    · obtain ⟨s, hs, hspans⟩ := h'.missing hmisses (p + w)
      refine ⟨s, .inr hs, fun hs' => ?_, hspans⟩
      have := h'.inside (p + w) s hs
      have := h.within p s hs'
      omega

theorem append_whole (h : Laid ts w E M) (h' : Laid us v E' M') (hw : 0 < w) (hv : 0 < v)
    : Whole (ts ++ us) (w + v) (fun p => E p ++ E' (p + w)) (M ∨ M') where
  toLaid := h.append h'
  pos := by omega
  not_enclosed p hs := by
    rw [h.balanced.spans_append h'.balanced, h.weights, List.mem_append] at hs
    obtain hs | hs := hs
    · have := h.within p _ hs
      dsimp only at this
      omega
    · have := h'.within (p + w) _ hs
      dsimp only at this
      omega
  not_exposed p hs := by
    obtain hs | hs := List.mem_append.mp hs
    · have := h.inside p _ hs
      dsimp only at this
      omega
    · have := h'.inside (p + w) _ hs
      dsimp only at this
      omega

theorem parens (h : Laid ts w E M) (hexposed : ∀ p, ⟨p, p + w⟩ ∉ E p)
    : Laid (Token.parens ts) w E M where
  balanced := h.balanced.parens
  weights := by rw [Token.weights_parens, h.weights]
  within p s hs := by
    rw [h.balanced.spans_parens, h.weights, List.mem_append, List.mem_singleton] at hs
    obtain hs | rfl := hs
    · exact h.within p s hs
    · exact ⟨Nat.le_refl p, Nat.le_refl _⟩
  inside := h.inside
  missing hmisses p := by
    obtain ⟨s, hs, hspans⟩ := h.missing hmisses p
    refine ⟨s, hs, fun hs' => ?_⟩
    rw [h.balanced.spans_parens, h.weights, List.mem_append, List.mem_singleton] at hs'
    obtain hs' | rfl := hs'
    · exact hspans hs'
    · exact hexposed p hs

theorem congr (h : Laid ts w E M) (hw : w = v) (hE : ∀ p, E p = E' p) (hM : M' → M)
    : Laid ts v E' M' := by
  obtain rfl := hw
  obtain rfl : E = E' := funext hE
  exact { h with missing := fun hmisses => h.missing (hM hmisses) }

end Laid

namespace Whole

theorem congr (h : Whole ts w E M) (hw : w = v) (hE : ∀ p, E p = E' p) (hM : M' → M)
    : Whole ts v E' M' := by
  obtain rfl := hw
  obtain rfl : E = E' := funext hE
  exact { h with missing := fun hmisses => h.missing (hM hmisses) }

theorem words (h : ∀ t ∈ ts, t.isWord) (hpos : 0 < Token.weights ts)
    : Whole ts (Token.weights ts) (fun _ => []) False where
  toLaid := .words h
  pos := hpos
  not_enclosed p := by simp [Token.spans_words h]
  not_exposed p := by simp

theorem parensIf {f : Fragment} (h : Whole f.words w E M) (needed : Bool)
    : Laid (f.parensIf needed).words w E M := by
  cases needed with
  | false => exact h.toLaid
  | true =>
    rw [Fragment.parensIf, if_pos rfl, Fragment.words_parens]
    exact h.toLaid.parens h.not_exposed

theorem operand {e : Operation} (h : Whole ts e.weight E M) (level : Operation.Level)
    : Laid ts e.weight (fun p => e.looseAt level p ++ E p) (e.level.rank < level.rank ∨ M) := by
  by_cases hlevel : e.level.rank < level.rank
  · have hexposed : ∀ p, e.looseAt level p = [⟨p, p + e.weight⟩] := fun p => if_pos hlevel
    refine { h.toLaid with inside := ?_, missing := ?_ }
    · intro p s hs
      rw [hexposed, List.singleton_append, List.mem_cons] at hs
      obtain rfl | hs := hs
      · have := h.pos
        dsimp only
        omega
      · exact h.inside p s hs
    · intro _ p
      exact ⟨⟨p, p + e.weight⟩, by simp [hexposed], h.not_enclosed p⟩
  · have hexposed : ∀ p, e.looseAt level p = [] := fun p => if_neg hlevel
    apply h.toLaid.congr rfl
    · intro p
      rw [hexposed, List.nil_append]
    · exact fun hmisses => hmisses.resolve_left hlevel

end Whole

namespace Operation

theorem counted_operator (op : BinaryOp) : ∀ t ∈ [op.token], t.weight = 1 := by
  cases op <;> simp [BinaryOp.token, Token.weight]

theorem counted_sign (op : UnaryOp) : ∀ t ∈ [signWord op], t.weight = 1 := by
  cases op <;> simp [signWord, Token.weight]

theorem counted_nullTest (negated : Bool) : ∀ t ∈ [Token.nullTest negated], t.weight = 1 := by
  cases negated <;> simp [Token.nullTest, Token.weight]

theorem counted_negated (negated : Bool) (word : Keyword)
    : ∀ t ∈ notWords negated ++ [.keyword word], t.weight = 1 := by
  cases negated <;> simp [notWords, Token.weight]

theorem counted_escapeWords (escape : Option Char) : ∀ t ∈ escapeWords escape, t.weight = 1 := by
  cases escape <;> simp [escapeWords, Token.weight]

def Bare (e : Operation) (ts : List Token) : Prop :=
  Whole ts e.weight (e.exposed ·) (¬ e.keepsOperands)

theorem Bare.atom {e : Operation} (hwords : ∀ t ∈ ts, t.isWord) (hts : Token.weights ts = 1)
    (he : e.weight = 1) (hexposed : ∀ p, e.exposed p = []) (hkeeps : e.keepsOperands)
    : Bare e ts := by
  have hpos : 0 < Token.weights ts := by omega
  apply (Whole.words hwords hpos).congr (hts.trans he.symm)
  · exact fun p => (hexposed p).symm
  · exact absurd hkeeps

section Values

variable {values : List Operation} {gs : List Fragment}
  (h : List.Forall₂ (fun v g => Bare v g.words) values gs)

include h

theorem laid_further
    : Laid (gs.flatMap fun g => .symbol .comma :: g.words) (weightOfAll values)
        (exposedOfAll · values) (∃ v ∈ values, ¬ v.keepsOperands) := by
  induction h with
  | nil =>
    apply (Laid.words (by simp)).congr rfl
    · simp [exposedOfAll]
    · simp
  | @cons v g values gs hv _ ih =>
    have hcomma : Laid [.symbol .comma] 0 (fun _ => []) False := .words (by simp [Token.isWord])
    have hlaid := hcomma.append (hv.toLaid.append ih)
    rw [List.flatMap_cons, List.cons_append]
    apply hlaid.congr
    · simp [weightOfAll]
    · simp [exposedOfAll]
    · simp

theorem laid_values
    : Laid (Fragment.commaSep gs).words (weightOfAll values) (exposedOfAll · values)
        (∃ v ∈ values, ¬ v.keepsOperands) := by
  cases h with
  | nil => exact laid_further .nil
  | cons hv hvalues =>
    rw [words_commaSep_cons]
    apply (hv.toLaid.append (laid_further hvalues)).congr rfl
    · simp [exposedOfAll]
    · simp

theorem values_not_exposed (p : Nat)
    : ⟨p, p + weightOfAll values⟩ ∉ exposedOfAll p values := by
  cases h with
  | nil => simp [exposedOfAll]
  | @cons v g values gs hv hvalues =>
    rw [exposedOfAll, List.mem_append, not_or]
    constructor
    · intro hs
      have hinside := hv.inside p _ hs
      have hrest : weightOfAll values = 0 := by
        simp only [weightOfAll] at hinside
        omega
      rw [weightOfAll, hrest, Nat.add_zero] at hs
      exact hv.not_exposed p hs
    · intro hs
      have hinside := (laid_further hvalues).inside _ _ hs
      have hpos := hv.pos
      dsimp only at hinside
      omega

end Values

namespace Bare

variable {e e' : Operation} {f f' : Fragment}

theorem binary (h : Bare e f.words) (op : BinaryOp) (h' : Bare e' f'.words) (needed needed' : Bool)
    : Bare (.binary op e e')
        ((f.parensIf needed).words ++ op.token :: (f'.parensIf needed').words) := by
  rw [List.append_cons]
  have hleft := (h.parensIf needed).append (.counted (counted_operator op))
  apply (hleft.append_whole (h'.parensIf needed') _ e'.weight_pos).congr rfl
  · simp [exposed]
  · simp only [keepsOperands, parts, keepsOperand, List.all_cons, List.all_append, Bool.true_and,
      Bool.and_eq_true, not_and_or, or_false, imp_self]
  · simp

theorem unary (h : Bare e f.words) (op : UnaryOp) (needed : Bool)
    : Bare (.unary op e) (signWord op :: (f.parensIf needed).words) := by
  have hsign := Laid.counted (counted_sign op)
  apply (hsign.append_whole (h.parensIf needed) Nat.one_pos e.weight_pos).congr rfl
  · simp [exposed]
  · simp [keepsOperands, parts, keepsOperand]

theorem isNull (h : Bare e f.words) (negated needed : Bool)
    : Bare (.isNull e negated) ((f.parensIf needed).words ++ [.nullTest negated]) := by
  have hnull := Laid.counted (counted_nullTest negated)
  apply ((h.parensIf needed).append_whole hnull e.weight_pos Nat.one_pos).congr rfl
  · simp [exposed]
  · simp [keepsOperands, parts, keepsOperand]

theorem like (h : Bare e f.words) (h' : Bare e' f'.words) (escape : Option Char) (negated : Bool)
    : Bare (.like e e' escape negated)
        (f.words ++ notWords negated ++ .keyword .like :: (f'.words ++ escapeWords escape)) := by
  have hlike := (h.operand .comparison).append (.counted (counted_negated negated .like))
  have hrest := (h'.operand .sum).append (.counted (counted_escapeWords escape))
  have hlength : (notWords negated ++ [Token.keyword .like]).length
      = (notWords negated).length + 1 := List.length_append
  rw [List.append_cons, List.append_assoc f.words]
  apply (hlike.append_whole hrest _ _).congr
  · rw [hlength, weight]
  · simp [exposed]
  · simp only [keepsOperands, parts, keepsOperand, List.all_cons, List.all_append,
      Bool.and_eq_true, decide_eq_true_eq, not_and_or, Nat.not_le, or_false]
    grind
  · exact Nat.add_pos_left e.weight_pos _
  · exact Nat.add_pos_left e'.weight_pos _

theorem inList (h : Bare e f.words) {values : List Operation} {gs : List Fragment}
    (hvalues : List.Forall₂ (fun v g => Bare v g.words) values gs) (negated : Bool)
    : Bare (.inList e values negated) (f.words ++ notWords negated
        ++ .keyword .in_ :: Token.parens (Fragment.commaSep gs).words) := by
  have hlist := (laid_values hvalues).parens (values_not_exposed hvalues)
  have hin := (Laid.counted (counted_negated negated .in_)).append hlist
  have hlength : (notWords negated ++ [Token.keyword .in_]).length
      = (notWords negated).length + 1 := List.length_append
  rw [List.append_cons, List.append_assoc f.words, List.append_assoc f.words]
  apply ((h.operand .comparison).append_whole hin e.weight_pos _).congr
  · rw [hlength, weight]
    omega
  · simp [exposed, Nat.add_assoc]
  · simp only [keepsOperands, parts, partsOfAll_eq, keepsOperand, List.all_cons, List.all_append,
      List.all_flatMap, Bool.and_eq_true, decide_eq_true_eq, not_and_or, Nat.not_le,
      List.all_eq_true, not_forall, exists_prop, false_or]
    grind
  · exact Nat.add_pos_left (by simp) _

end Bare

theorem bare_fragment {ctx : RenderContext} {f : Fragment} {e : Operation}
    (hoperators : e.hasOperators ctx.profile) (h : e.toExpr.fragment ctx = .ok f)
    : Bare e f.words := by
  induction e generalizing f with
  | column a name =>
    cases h
    cases ctx.qualify with
    | true =>
      change Bare _ (Token.column a name)
      exact .atom (by simp [Token.column, Token.isWord]) rfl rfl (fun _ => rfl) rfl
    | false =>
      change Bare _ [.ident name]
      exact .atom (by simp [Token.isWord]) rfl rfl (fun _ => rfl) rfl
  | literal value =>
    obtain ⟨t, ht, hwords, -⟩ := of_fragment_literal h
    have hweight := Token.weight_of_literal? ht
    rw [hwords]
    exact .atom (by simpa using Token.isWord_of_weight hweight) (by simp [Token.weights, hweight])
      rfl (fun _ => rfl) rfl
  | param name =>
    cases h
    change Bare _ [.param]
    exact .atom (by simp [Token.isWord]) rfl rfl (fun _ => rfl) rfl
  | binary op l r ihl ihr =>
    simp only [hasOperators, parts, List.all_cons, List.all_append, Bool.and_eq_true] at hoperators
    obtain ⟨g, k, hg, hk, hwords, -⟩ := of_fragment_binary hoperators.1 h
    rw [hwords]
    exact (ihl hoperators.2.1 hg).binary op (ihr hoperators.2.2 hk) _ _
  | unary op e ih =>
    simp only [hasOperators, parts, List.all_cons, Bool.and_eq_true] at hoperators
    obtain ⟨g, hg, hwords, -⟩ := of_fragment_unary h
    rw [hwords]
    exact (ih hoperators.2 hg).unary op _
  | isNull e negated ih =>
    simp only [hasOperators, parts, List.all_cons, Bool.and_eq_true] at hoperators
    obtain ⟨g, hg, hwords, -⟩ := of_fragment_isNull h
    rw [hwords]
    exact (ih hoperators.2 hg).isNull negated _
  | like e pattern escape negated ihe ihpattern =>
    simp only [hasOperators, parts, List.all_cons, List.all_append, Bool.and_eq_true] at hoperators
    obtain ⟨g, k, hg, hk, hwords, -⟩ := of_fragment_like h
    rw [hwords]
    exact (ihe hoperators.2.1 hg).like (ihpattern hoperators.2.2 hk) escape negated
  | inList e values negated ihe ihvalues =>
    simp only [hasOperators, parts, partsOfAll_eq, List.all_cons, List.all_append, List.all_flatMap,
      Bool.and_eq_true] at hoperators
    obtain ⟨g, gs, hg, hgs, hwords, -⟩ := of_fragment_inList h
    have hall : ∀ v ∈ values, ∀ k, v.toExpr.fragment ctx = .ok k → Bare v k.words := by
      intro v hv k hk
      exact ihvalues v hv (List.all_eq_true.mp hoperators.2.2 v hv) hk
    have hbare : List.Forall₂ (fun v k => Bare v k.words) values gs :=
      ((List.forall₂_and_left _ _).mpr ⟨hall, hgs⟩).imp fun v k h => h.1 k h.2
    rw [hwords]
    exact (ihe hoperators.2.1 hg).inList hbare negated

end Operation

/-! ## Parentheses in derived texts -/

structure Covers (ts : List Token) (w : Nat) (enclosed : Nat → List Span) : Prop where
  balanced : Token.Balanced ts
  weights : Token.weights ts = w
  subset (p : Nat) : enclosed p ⊆ Token.spans p ts

namespace Covers

theorem congr (h : Covers ts w E) (hw : w = v) (hE : ∀ p, E' p ⊆ E p) : Covers ts v E' :=
  ⟨h.balanced, h.weights.trans hw, fun p => List.Subset.trans (hE p) (h.subset p)⟩

theorem words (h : ∀ t ∈ ts, t.isWord) : Covers ts (Token.weights ts) fun _ => [] :=
  ⟨.words h, rfl, fun _ => List.nil_subset _⟩

theorem counted (h : ∀ t ∈ ts, t.weight = 1) : Covers ts ts.length fun _ => [] :=
  have hlaid := Laid.counted h
  ⟨hlaid.balanced, hlaid.weights, fun _ => List.nil_subset _⟩

theorem append (h : Covers ts w E) (h' : Covers us v E')
    : Covers (ts ++ us) (w + v) fun p => E p ++ E' (p + w) where
  balanced := h.balanced.append h'.balanced
  weights := by rw [Token.weights_append, h.weights, h'.weights]
  subset p := by
    rw [h.balanced.spans_append h'.balanced, h.weights]
    apply List.append_subset.mpr
    constructor
    · exact List.Subset.trans (h.subset p) (List.subset_append_left _ _)
    · exact List.Subset.trans (h'.subset (p + w)) (List.subset_append_right _ _)

theorem parens (h : Covers ts w E) : Covers (Token.parens ts) w fun p => ⟨p, p + w⟩ :: E p where
  balanced := h.balanced.parens
  weights := by rw [Token.weights_parens, h.weights]
  subset p := by
    rw [h.balanced.spans_parens, h.weights]
    apply List.cons_subset.mpr
    exact ⟨by simp, List.Subset.trans (h.subset p) (List.subset_append_left _ _)⟩

end Covers

namespace Operation

theorem looseAt_of_rank_le {level : Level} {e : Operation} (h : level.rank ≤ e.level.rank)
    (p : Nat) : e.looseAt level p = [] := if_neg (Nat.not_lt.mpr h)

theorem exposedOfAll_append (p : Nat) (es es' : List Operation)
    : exposedOfAll p (es ++ es') = exposedOfAll p es ++ exposedOfAll (p + weightOfAll es) es' := by
  induction es generalizing p with
  | nil => rfl
  | cons e es ih => simp [exposedOfAll, weightOfAll, ih, Nat.add_assoc]

theorem weightOfAll_append (es es' : List Operation)
    : weightOfAll (es ++ es') = weightOfAll es + weightOfAll es' := by
  induction es with
  | nil => simp [weightOfAll]
  | cons e es ih => simp [weightOfAll, ih, Nat.add_assoc]

def Category.Encloses (ts : List Token) (e : Operation) : Category → Prop
  | .expression level => Covers ts e.weight fun p => e.looseAt level p ++ e.exposed p
  | .openList =>
    ∃ operand values negated us vs,
      e = .inList operand values negated ∧ ts = us ++ .symbol .lparen :: vs
        ∧ Covers us (operand.weight + ((notWords negated).length + 1))
            (fun p => operand.looseAt .comparison p ++ operand.exposed p)
        ∧ Covers vs (weightOfAll values) (exposedOfAll · values)

theorem Category.Encloses.inner {level : Level} {ts : List Token} {e : Operation}
    (h : Category.Encloses ts e (.expression level)) : Covers ts e.weight (e.exposed ·) :=
  Covers.congr h rfl fun _ => List.subset_append_right _ _

theorem Category.Encloses.of_covers {level : Level} {ts : List Token} {e : Operation}
    (h : Covers ts e.weight (e.exposed ·)) (hlevel : e.level = level)
    : Category.Encloses ts e (.expression level) := by
  apply h.congr rfl
  intro p
  rw [looseAt_of_rank_le (Nat.le_of_eq (congrArg Level.rank hlevel.symm)), List.nil_append]
  exact List.Subset.refl _

theorem Category.Encloses.negated {ts : List Token} {e : Operation}
    (h : Category.Encloses ts e (.expression .comparison)) (negated : Bool) (word : Keyword)
    : Covers (ts ++ (notWords negated ++ [.keyword word]))
        (e.weight + ((notWords negated).length + 1))
        (fun p => e.looseAt .comparison p ++ e.exposed p) := by
  apply (Covers.append h (.counted (counted_negated negated word))).congr
  · simp
  · simp

theorem Category.Encloses.like {ts us : List Token} {e pattern : Operation}
    (h : Category.Encloses ts e (.expression .comparison))
    (hpattern : Category.Encloses us pattern (.expression .sum)) (escape : Option Char)
    (negated : Bool)
    : Category.Encloses (ts ++ notWords negated ++ .keyword .like :: (us ++ escapeWords escape))
        (.like e pattern escape negated) (.expression .comparison) := by
  apply Category.Encloses.of_covers _ rfl
  rw [List.append_cons, List.append_assoc ts]
  have hrest := Covers.append hpattern (.counted (counted_escapeWords escape))
  apply ((h.negated negated .like).append hrest).congr rfl
  simp [exposed]

theorem encloses_inList {ts us : List Token} {e : Operation} {values : List Operation}
    {negated : Bool}
    (h : Covers ts (e.weight + ((notWords negated).length + 1))
      (fun p => e.looseAt .comparison p ++ e.exposed p))
    (hvalues : Covers us (weightOfAll values) (exposedOfAll · values))
    : Category.Encloses (ts ++ Token.parens us) (.inList e values negated)
        (.expression .comparison) := by
  apply Category.Encloses.of_covers _ rfl
  have hparens := hvalues.parens.congr rfl fun p => List.subset_cons_self _ _
  apply (h.append hparens).congr rfl
  simp [exposed]

theorem Derives.encloses {home : Alias} {category : Category} {ts : List Token} {ps : List String}
    {e : Operation} (h : Derives home category ts ps e) : category.Encloses ts e := by
  induction h with
  | @column a name => exact .of_covers (.words (by simp [Token.column, Token.isWord])) rfl
  | @name name => exact .of_covers (.words (by simp [Token.isWord])) rfl
  | @literal t value ht =>
    exact .of_covers (.counted (by simpa using Token.weight_of_literal? ht)) rfl
  | param => exact .of_covers (.counted (by simp [Token.weight])) rfl
  | @parens ts ps e h ih =>
    apply ih.inner.parens.congr rfl
    intro p
    simp only [looseAt]
    split <;> simp
  | @neg ts ps e h ih =>
    apply Category.Encloses.of_covers _ rfl
    exact (Covers.counted (counted_sign .neg)).append ih.inner
  | @not ts ps e h ih =>
    apply Category.Encloses.of_covers _ rfl
    exact (Covers.counted (counted_sign .not)).append ih.inner
  | @binary op ts us ps qs l r hl hr ihl ihr =>
    apply Category.Encloses.of_covers _ rfl
    rw [List.append_cons]
    apply ((ihl.inner.append (.counted (counted_operator op))).append ihr.inner).congr rfl
    simp [exposed]
  | @isNull ts ps e negated h ih =>
    apply Category.Encloses.of_covers _ rfl
    apply (ih.inner.append (.counted (counted_nullTest negated))).congr rfl
    simp [exposed]
  | @like ts us ps qs e pattern negated h hpattern ih ihpattern =>
    simpa [escapeWords] using ih.like ihpattern none negated
  | @likeEscape ts us ps qs e pattern c negated h hpattern ih ihpattern =>
    exact ih.like ihpattern (some c) negated
  | @inNothing ts ps e negated h ih =>
    have hvalues : Covers [] (weightOfAll []) (exposedOfAll · []) := .words (by simp)
    simpa using encloses_inList (ih.negated negated .in_) hvalues
  | @inFirst ts us ps qs e v negated h hv ih ihv =>
    refine ⟨e, [v], negated, _, us, rfl, ?_, ih.negated negated .in_, ?_⟩
    · simp
    · apply ihv.inner.congr
      · simp [weightOfAll]
      · simp [exposedOfAll]
  | @inNext ts us ps qs e v vs negated h hv ih ihv =>
    obtain ⟨operand, values, negated', us', vs', heq, rfl, hus, hvs⟩ := ih
    obtain ⟨rfl, rfl, rfl⟩ := inList.inj heq
    have hcomma : Covers [.symbol .comma] 0 fun _ => [] := .words (by simp [Token.isWord])
    refine ⟨e, vs ++ [v], negated, us', vs' ++ ([.symbol .comma] ++ us), rfl, ?_, hus, ?_⟩
    · simp
    · apply (hvs.append (hcomma.append ihv.inner)).congr
      · simp [weightOfAll_append, weightOfAll]
      · simp [exposedOfAll_append, exposedOfAll]
  | @inLast ts ps e h ih =>
    obtain ⟨operand, values, negated, us, vs, rfl, rfl, hus, hvs⟩ := ih
    simpa [Token.parens] using encloses_inList hus hvs
  | @loosen level tighter ts ps e hrank h ih =>
    apply Covers.congr ih rfl
    intro p
    by_cases hloose : e.level.rank < level.rank
    · rw [looseAt, looseAt, if_pos hloose, if_pos (Nat.lt_of_lt_of_le hloose hrank)]
      exact List.Subset.refl _
    · rw [looseAt, if_neg hloose, List.nil_append]
      exact List.subset_append_right _ _

end Operation

end SqlDialect
