import SqlDialect.Proofs.Expr.Steps

/-!
This module contains which expressions have no text when nested selects have none: those with a
float that is infinite or no number, or with a nested select, anywhere in them. The reason is that
of the first one that is reached. Every float that is written is that of a literal.
-/

namespace SqlDialect

theorem Sequenced.eq_error_iff_findSome? {α : Type} {steps : List RenderStep}
    {x : (ScopeId → Compile Rendered) → Compile α} {subselect : ScopeId → Compile Rendered}
    (hx : Sequenced steps x) {e : CompileError}
    : x subselect = .error e
        ↔
      steps.findSome? (fun step => (step.run subselect).failure?) = some e := by
  rw [hx.eq_error_iff, List.findSome?_eq_some_iff]
  simp only [Compile.failure?_eq_some_iff, Compile.failure?_eq_none_iff]
  grind

namespace Expr

/-! ## Parts -/

mutual

/--
An expression and all that it is made of, each part after its own parts and these from left to
right.
-/
def parts (e : Expr) : List Expr :=
  match e with
  | .binary _ a b | .like a b _ _ | .trim a b _ | .concat a b | .suffix a b | .indexOf a b =>
    a.parts ++ (b.parts ++ [e])
  | .unary _ a | .isNull a _ | .inSelect a _ _ | .cast a _ | .textFunction _ a
  | .aggregate _ a _ => a.parts ++ [e]
  | .inList a vs _ => a.parts ++ (allParts vs ++ [e])
  | .substring a b c | .indexOfFrom a b c => a.parts ++ (b.parts ++ (c.parts ++ [e]))
  | .column .. | .literal _ | .param _ | .existsIn .. | .clock _ | .aggregateRows .. | .raw _ => [e]

def allParts : List Expr → List Expr
  | [] => []
  | a :: as => a.parts ++ allParts as

end

theorem allParts_eq (es : List Expr) : allParts es = es.flatMap parts := by
  induction es with
  | nil => rfl
  | cons e es ih => rw [allParts, ih, List.flatMap_cons]

theorem parts_eq (e : Expr) : e.parts = e.operands.flatMap parts ++ [e] := by
  cases e <;> simp [parts, operands, allParts_eq]

theorem steps_eq (e : Expr) : e.steps = e.parts.filterMap ownStep? := by
  induction e using of_operands with
  | step e ih =>
    rw [steps_eq_operands, parts_eq, List.filterMap_append, List.filterMap_flatMap]
    congr 1
    exact List.flatMap_congr ih

/-! ## Faults -/

/--
Why an expression has no text, whatever its operands are.
-/
def fault? : Expr → Option CompileError
  | .literal (.float x) => if x.isFinite then none else some (.nonFiniteLiteral x)
  | .existsIn scope _ | .inSelect _ scope _ => some (.aliasing (.noRenderer scope))
  | _ => none

end Expr

theorem Literal.failure?_token (value : Literal)
    : value.token.failure? = (Expr.literal value).fault? := by
  cases value with
  | float x =>
    simp only [token, Expr.fault?]
    split <;> rfl
  | _ => rfl

namespace Expr

theorem fault?_eq (e : Expr)
    : e.fault? = e.ownStep?.bind fun step =>
        (step.run fun scope => .error (.aliasing (.noRenderer scope))).failure? := by
  cases e with
  | literal value =>
    rw [← Literal.failure?_token]
    simp only [ownStep?, Option.bind_some, RenderStep.ofCompile, RenderStep.run]
    cases value.token <;> rfl
  | _ => rfl

theorem fragment_eq_error_iff {e : Expr} {p : Profile} {qualify : Bool} {err : CompileError}
    : e.fragment { profile := p, qualify } = .error err ↔ e.parts.findSome? fault? = some err := by
  rw [(e.sequenced_fragment { profile := p, qualify }).eq_error_iff_findSome?, steps_eq,
    ← List.head?_filterMap, List.filterMap_filterMap, List.head?_filterMap, funext fault?_eq]

theorem sql_eq_error_iff {e : Expr} {p : Profile} {qualify : Bool} {err : CompileError}
    : e.sql { profile := p, qualify } = .error err ↔ e.parts.findSome? fault? = some err := by
  calc
    _ ↔ e.fragment { profile := p, qualify } = .error err := by
      rw [sql_eq]
      cases e.fragment { profile := p, qualify } <;> simp
    _ ↔ _ := fragment_eq_error_iff

end Expr

/-! ## Floats -/

theorem Literal.eq_of_token_float {value : Literal} {x : Binary64}
    (h : value.token = .ok (.float x)) : value = .float x := by
  cases value with
  | float y =>
    simp only [token] at h
    split at h
    · cases h
      rfl
    · cases h
  | _ => cases h

namespace Fragment

variable {f : Fragment} {fs : List Fragment} {x : Binary64}

@[simp]
theorem float_mem_parens : .float x ∈ f.parens.tokens ↔ .float x ∈ f.tokens := by
  simp [parens, Token.parens]

theorem exists_float_mem_of_commaSep (h : .float x ∈ (commaSep fs).tokens)
    : ∃ f ∈ fs, .float x ∈ f.tokens := by
  obtain h | ⟨ts, hts, h⟩ := Token.mem_intercalate h
  · simp at h
  · obtain ⟨f, hf, rfl⟩ := List.mem_map.mp hts
    exact ⟨f, hf, h⟩

end Fragment

theorem Assembly.float_mem_build {p : Profile} {pieces : List Fragment} {a : Assembly}
    {x : Binary64} (h : .float x ∈ (a.build p pieces).tokens)
    : .float x ∈ a.tokens ∨ ∃ f ∈ pieces, .float x ∈ f.tokens := by
  induction a with
  | piece i =>
    rw [build, List.getD_eq_getElem?_getD] at h
    cases hi : pieces[i]? with
    | none => simp [hi, Fragment.empty] at h
    | some f =>
      rw [hi] at h
      exact .inr ⟨f, List.mem_of_getElem? hi, h⟩
  | before ts a ih =>
    obtain h | h := List.mem_append.mp h
    · exact .inl (List.mem_append_left _ h)
    · exact (ih h).imp_left (List.mem_append_right _)
  | after a ts ih =>
    obtain h | h := List.mem_append.mp h
    · exact (ih h).imp_left (List.mem_append_left _)
    · exact .inl (List.mem_append_right _ h)
  | between a ts b iha ihb =>
    simp only [build, Fragment.tokens_append, List.mem_append, tokens] at h ⊢
    obtain (h | h) | h := h
    · exact (iha h).imp_left fun h => .inl (.inl h)
    · exact .inl (.inl (.inr h))
    · exact (ihb h).imp_left .inr
  | parens a ih => exact ih (Fragment.float_mem_parens.mp h)
  | rest =>
    obtain ⟨f, hf, hx⟩ := Fragment.exists_float_mem_of_commaSep h
    exact .inr ⟨f, List.mem_of_mem_tail hf, hx⟩
  | template | call => simp [build, Expr.fillTemplate, Expr.callByName] at h

namespace Expr

variable {ctx : RenderContext} {x : Binary64}

theorem float_mem_own {e : Expr} {own : List Fragment} (h : e.own ctx = .ok own) {f : Fragment}
    (hf : f ∈ own) (hx : .float x ∈ f.tokens) : e = .literal (.float x) := by
  cases e with
  | literal value =>
    obtain ⟨t, ht, h⟩ := Compile.bind_eq_ok_iff.mp h
    cases h
    obtain rfl := List.mem_singleton.mp hf
    obtain rfl := List.mem_singleton.mp hx
    rw [Literal.eq_of_token_float ht]
  | column a name =>
    cases h
    obtain rfl := List.mem_singleton.mp hf
    revert hx
    cases ctx.qualify <;> simp [Fragment.ofTokens, Token.column]
  | existsIn | inSelect =>
    obtain ⟨r, _, h⟩ := Compile.bind_eq_ok_iff.mp h
    cases h
    obtain rfl := List.mem_singleton.mp hf
    simp [Fragment.ofRendered] at hx
  | like a b escape =>
    cases escape with
    | none =>
      cases h
      cases hf
    | some c =>
      cases h
      obtain rfl := List.mem_singleton.mp hf
      simp [Fragment.ofTokens] at hx
  | param | cast | clock | aggregateRows | raw =>
    cases h
    obtain rfl := List.mem_singleton.mp hf
    simp [Fragment.ofParam, Fragment.ofTokens, Fragment.ofRendered, Token.parens] at hx
  | _ =>
    cases h
    cases hf

theorem literal_mem_parts (e : Expr) {f : Fragment} (h : e.fragment ctx = .ok f)
    : .float x ∈ f.tokens → .literal (.float x) ∈ e.parts := by
  refine fragment_induction (P := fun e f => .float x ∈ f.tokens → .literal (.float x) ∈ e.parts)
    (fun e operands own hoperands hown hx => ?_) e h
  rw [parts_eq, List.mem_append]
  obtain hx | ⟨f, hf, hx⟩ := Assembly.float_mem_build hx
  · obtain hfixed | ⟨_, hraw⟩ := mem_tokens_assembly hx
    · cases hfixed
    · cases hraw
  · obtain hf | hf := List.mem_append.mp hf
    · obtain ⟨a, ha, haf⟩ := Compile.exists_of_mem_forall₂ hoperands f hf
      exact .inl (List.mem_flatMap_of_mem ha (haf hx))
    · rw [float_mem_own hown hf hx]
      exact .inr (List.mem_singleton_self _)

end Expr

end SqlDialect
