import Mathlib.Logic.Function.Basic
import SqlDialect.Proofs.Expr.Assembly

/-!
This module contains what can go wrong when an expression is rendered. The rendering goes through
the literals and the nested selects of the expression from left to right, and stops at the first one
that has no text. When all of them have one, the texts of the nested selects are put together in a
way that depends on nothing else.
-/

namespace SqlDialect

namespace Compile

variable {α β : Type} {f g : α → Compile β} {as bs : List α} {e : CompileError}

theorem mapM_congr (h : ∀ a ∈ as, f a = g a) : as.mapM f = as.mapM g := by
  induction as with
  | nil => rfl
  | cons a as ih =>
    rw [List.mapM_cons, List.mapM_cons, h a List.mem_cons_self,
      ih fun a ha => h a (List.mem_cons_of_mem _ ha)]

def Below (e : CompileError) (x y : Compile α) : Prop := x = .error e ∨ x = y

theorem Below.mapM (h : ∀ a ∈ as, Below e (f a) (g a)) : Below e (as.mapM f) (as.mapM g) := by
  induction as with
  | nil => exact .inr rfl
  | cons a as ih =>
    rw [List.mapM_cons, List.mapM_cons]
    obtain ha | ha := h a List.mem_cons_self
    · rw [ha]
      exact .inl rfl
    · rw [← ha]
      cases f a with
      | error e' => exact .inr rfl
      | ok r =>
        obtain has | has := ih fun a ha => h a (List.mem_cons_of_mem _ ha)
        · rw [has]
          exact .inl rfl
        · rw [has]
          exact .inr rfl

end Compile

/-! ## Steps -/

/--
Something that a rendering has to do and that may fail.
-/
inductive RenderStep where
  /-- A check that has nothing to do with nested selects. -/
  | check (outcome : Compile Unit)
  /-- Write a nested select. -/
  | select (scope : ScopeId)

namespace RenderStep

def run (subselect : ScopeId → Compile Rendered) : RenderStep → Compile Rendered
  | .check outcome => do
    outcome
    return ⟨"", []⟩
  | .select scope => subselect scope

def scope? : RenderStep → Option ScopeId
  | .check _ => none
  | .select scope => some scope

def ofCompile {α : Type} (x : Compile α) : RenderStep := .check (discard x)

end RenderStep

/--
A computation that takes some steps, one after the other, and puts together what they give. It is
given the texts of all nested selects.
-/
def Sequenced {α : Type} (steps : List RenderStep)
    (x : (ScopeId → Compile Rendered) → Compile α) : Prop :=
  ∃ build : List Rendered → α, ∀ subselect,
    x subselect = steps.mapM (·.run subselect) >>= fun rs => .ok (build rs)

namespace Sequenced

variable {α β : Type} {steps steps' : List RenderStep}
  {x : (ScopeId → Compile Rendered) → Compile α}
  {subselect subselect' : ScopeId → Compile Rendered}

theorem ok (a : α) : Sequenced [] fun _ => .ok a := ⟨fun _ => a, fun _ => rfl⟩

theorem fixed [Nonempty α] (x : Compile α) : Sequenced [.ofCompile x] fun _ => x := by
  cases x with
  | ok a => exact ⟨fun _ => a, fun _ => rfl⟩
  | error e => exact ⟨fun _ => Classical.ofNonempty, fun _ => rfl⟩

theorem error [Nonempty α] (e : CompileError) (steps : List RenderStep)
    : Sequenced (.check (.error e) :: steps) fun _ => (.error e : Compile α) :=
  ⟨fun _ => Classical.ofNonempty, fun _ => by rw [List.mapM_cons]; rfl⟩

theorem skip (hx : Sequenced steps x) : Sequenced (.check (.ok ()) :: steps) x := by
  obtain ⟨build, hbuild⟩ := hx
  refine ⟨fun rs => build rs.tail, fun subselect => ?_⟩
  rw [hbuild, List.mapM_cons]
  cases steps.mapM (·.run subselect) <;> rfl

theorem select (scope : ScopeId) : Sequenced [.select scope] fun subselect => subselect scope := by
  refine ⟨fun rs => rs.headD ⟨"", []⟩, fun subselect => ?_⟩
  change subselect scope = [RenderStep.select scope].mapM (·.run subselect) >>= _
  rw [List.mapM_cons, RenderStep.run]
  cases subselect scope <;> rfl

theorem bind {y : α → (ScopeId → Compile Rendered) → Compile β} (hx : Sequenced steps x)
    (hy : ∀ a, Sequenced steps' (y a))
    : Sequenced (steps ++ steps') fun subselect => x subselect >>= fun a => y a subselect := by
  obtain ⟨build, hbuild⟩ := hx
  choose build' hbuild' using hy
  -- The first steps are as many as the results that `x` is made of.
  refine ⟨fun rs => build' (build (rs.take steps.length)) (rs.drop steps.length), ?_⟩
  intro subselect
  simp only [hbuild, hbuild', List.mapM_append, bind_assoc]
  cases hsteps : steps.mapM (·.run subselect) with
  | error e => rfl
  | ok rs =>
    have hlength : rs.length = steps.length := (Compile.mapM_eq_ok_iff.mp hsteps).length_eq.symm
    simp only [Compile.ok_bind, Compile.pure_eq_ok, ← hlength, List.take_left, List.drop_left]

theorem map (hx : Sequenced steps x) (g : α → β)
    : Sequenced steps fun subselect => x subselect >>= fun a => .ok (g a) := by
  simpa only [List.append_nil] using hx.bind fun a => Sequenced.ok (g a)

theorem mapM {γ : Type} {as : List γ} {stepsOf : γ → List RenderStep}
    {y : γ → (ScopeId → Compile Rendered) → Compile α} (h : ∀ a ∈ as, Sequenced (stepsOf a) (y a))
    : Sequenced (as.flatMap stepsOf) fun subselect => as.mapM (y · subselect) := by
  induction as with
  | nil => exact .ok []
  | cons a as ih =>
    simp only [List.mapM_cons, List.flatMap_cons]
    apply (h a List.mem_cons_self).bind
    intro r
    exact (ih fun a ha => h a (List.mem_cons_of_mem _ ha)).map _

theorem congr (hx : Sequenced steps x)
    (h : ∀ scope, .select scope ∈ steps → subselect scope = subselect' scope)
    : x subselect = x subselect' := by
  obtain ⟨build, hbuild⟩ := hx
  rw [hbuild, hbuild]
  congr 1
  apply Compile.mapM_congr
  intro step hstep
  cases step with
  | check outcome => rfl
  | select scope => exact h scope hstep

theorem below (hx : Sequenced steps x) {e : CompileError}
    (h : ∀ scope, Compile.Below e (subselect scope) (subselect' scope))
    : Compile.Below e (x subselect) (x subselect') := by
  obtain ⟨build, hbuild⟩ := hx
  rw [hbuild, hbuild]
  have hsteps : Compile.Below e (steps.mapM (·.run subselect)) (steps.mapM (·.run subselect')) := by
    apply Compile.Below.mapM
    intro step _
    cases step with
    | check outcome => exact .inr rfl
    | select scope => exact h scope
  obtain hsteps | hsteps := hsteps
  · rw [hsteps]
    exact .inl rfl
  · rw [hsteps]
    exact .inr rfl

theorem exists_ok_iff (hx : Sequenced steps x)
    : (∃ a, x subselect = .ok a) ↔ ∀ step ∈ steps, ∃ r, step.run subselect = .ok r := by
  obtain ⟨build, hbuild⟩ := hx
  rw [hbuild, ← Compile.exists_mapM_eq_ok_iff]
  cases steps.mapM (·.run subselect) <;> simp

theorem eq_error_iff (hx : Sequenced steps x) {e : CompileError}
    : x subselect = .error e
        ↔ ∃ before step after, steps = before ++ step :: after
            ∧ (∀ s ∈ before, ∃ r, s.run subselect = .ok r) ∧ step.run subselect = .error e := by
  obtain ⟨build, hbuild⟩ := hx
  rw [hbuild, ← Compile.mapM_eq_error_iff]
  cases steps.mapM (·.run subselect) <;> simp

theorem exists_error (hx : Sequenced steps x) {scope : ScopeId} {e : CompileError}
    (hmem : .select scope ∈ steps) (he : subselect scope = .error e)
    : ∃ e', x subselect = .error e' := by
  cases hresult : x subselect with
  | error e' => exact ⟨e', rfl⟩
  | ok a =>
    obtain ⟨r, hr⟩ := hx.exists_ok_iff.mp ⟨a, hresult⟩ _ hmem
    cases he.symm.trans hr

-- If nothing but one nested select has no text, the failure is that of this select.
theorem eq_error_of_update (hx : Sequenced steps x) {scope : ScopeId} {e : CompileError}
    {r : Rendered} {a : α} (hmem : .select scope ∈ steps) (he : subselect scope = .error e)
    (ha : x (Function.update subselect scope (.ok r)) = .ok a) : x subselect = .error e := by
  obtain ⟨e', he'⟩ := hx.exists_error hmem he
  obtain ⟨before, step, after, rfl, _, hstep⟩ := hx.eq_error_iff.mp he'
  obtain ⟨r', hr'⟩ := hx.exists_ok_iff.mp ⟨a, ha⟩ step (by simp)
  cases step with
  | check outcome =>
    rw [RenderStep.run] at hstep hr'
    cases hstep.symm.trans hr'
  | select t =>
    rw [RenderStep.run] at hstep hr'
    by_cases ht : t = scope
    · rw [ht, he] at hstep
      cases hstep
      exact he'
    · rw [Function.update_of_ne ht, hstep] at hr'
      cases hr'

end Sequenced

/-! ## Expressions -/

namespace Expr

mutual

def steps : Expr → List RenderStep
  | .literal value => [.ofCompile value.token]
  | .existsIn scope _ => [.select scope]
  | .inSelect a scope _ => a.steps ++ [.select scope]
  | .binary _ a b | .like a b _ _ | .trim a b _ | .concat a b | .suffix a b | .indexOf a b =>
    a.steps ++ b.steps
  | .unary _ a | .isNull a _ | .cast a _ | .textFunction _ a | .aggregate _ a _ => a.steps
  | .inList a vs _ => a.steps ++ allSteps vs
  | .substring a b c | .indexOfFrom a b c => a.steps ++ (b.steps ++ c.steps)
  | .column .. | .param _ | .clock _ | .aggregateRows .. | .raw _ => []

def allSteps : List Expr → List RenderStep
  | [] => []
  | a :: as => a.steps ++ allSteps as

end

def nestedSelects (e : Expr) : List ScopeId := e.steps.filterMap (·.scope?)

theorem mem_nestedSelects_iff {e : Expr} {scope : ScopeId}
    : scope ∈ e.nestedSelects ↔ .select scope ∈ e.steps := by
  rw [nestedSelects, List.mem_filterMap]
  constructor
  · rintro ⟨step, hstep, hscope⟩
    cases step with
    | check outcome => cases hscope
    | select t =>
      cases hscope
      exact hstep
  · intro h
    exact ⟨_, h, rfl⟩

def ownStep? : Expr → Option RenderStep
  | .literal value => some (.ofCompile value.token)
  | .existsIn scope _ | .inSelect _ scope _ => some (.select scope)
  | _ => none

theorem allSteps_eq_flatMap (es : List Expr) : allSteps es = es.flatMap steps := by
  induction es with
  | nil => rfl
  | cons e es ih => rw [allSteps, ih, List.flatMap_cons]

theorem steps_eq_operands (e : Expr) : e.steps = e.operands.flatMap steps ++ e.ownStep?.toList := by
  cases e <;> simp [steps, operands, ownStep?, allSteps_eq_flatMap]

variable (ctx : RenderContext)

theorem sequenced_own (e : Expr)
    : Sequenced e.ownStep?.toList fun subselect => e.own { ctx with subselect } := by
  cases e with
  | literal value =>
    have : Nonempty Token := ⟨.space⟩
    exact (Sequenced.fixed value.token).map _
  | existsIn scope | inSelect _ scope => exact (Sequenced.select scope).map _
  | like a b escape =>
    cases escape with
    | none => exact .ok _
    | some c => exact .ok [Fragment.ofTokens [.string c.toString]]
  | column a name =>
    exact .ok [Fragment.ofTokens (if ctx.qualify then Token.column a name else [.ident name])]
  | param | cast | clock | aggregateRows | raw =>
    simp only [own]
    exact .ok _
  | _ => exact .ok []

theorem sequenced_fragment (e : Expr)
    : Sequenced e.steps fun subselect => e.fragment { ctx with subselect } := by
  induction e using of_operands with
  | step e ih =>
    have hfragment (subselect : ScopeId → Compile Rendered) :=
      @fragment_eq { ctx with subselect } e
    simp only [hfragment]
    rw [steps_eq_operands]
    exact (Sequenced.mapM ih).bind fun operands => (sequenced_own ctx e).map _

theorem sequenced_sql (e : Expr)
    : Sequenced e.steps fun subselect => e.sql { ctx with subselect } := by
  simp only [sql_eq]
  exact (e.sequenced_fragment ctx).map _

end Expr

end SqlDialect
