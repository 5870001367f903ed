import SqlDialect.Proofs.Expr.Places

/-!
This module contains how long the texts of expressions are. If the selects nested in an expression
get longer, the expression does not get shorter.
-/

namespace SqlDialect

/-! ## Texts -/

namespace Text

theorem length_intercalate_le {ss ts : List String}
    (h : List.Forall₂ (fun s t => s.length ≤ t.length) ss ts) (separator : String)
    : (separator.intercalate ss).length ≤ (separator.intercalate ts).length := by
  induction h with
  | nil => exact Nat.le_refl _
  | cons head tail ih =>
    cases tail with
    | nil => simpa using head
    | cons head' tail' =>
      simp only [String.intercalate_cons_cons, String.length_append] at ih ⊢
      omega

end Text

theorem Template.length_fill_le {ss ts : List String}
    (h : List.Forall₂ (fun s t => s.length ≤ t.length) ss ts) (template : String)
    : (fill template ss).length ≤ (fill template ts).length := by
  have hsegment : ∀ segment : Segment, (segment.text ss).length ≤ (segment.text ts).length := by
    intro segment
    cases segment with
    | char c => exact Nat.le_refl _
    | arg index =>
      simp only [Segment.text, List.getD_eq_getElem?_getD]
      by_cases hindex : index < ss.length
      · have hindex' : index < ts.length := h.length_eq ▸ hindex
        rw [List.getElem?_eq_getElem hindex, List.getElem?_eq_getElem hindex']
        exact (List.forall₂_iff_get.mp h).2 index hindex hindex'
      · rw [List.getElem?_eq_none (Nat.not_lt.mp hindex)]
        exact Nat.zero_le _
  unfold fill
  rw [h.length_eq]
  induction segments ts.length template.toList with
  | nil => exact Nat.le_refl _
  | cons segment segments ih =>
    rw [List.map_cons, List.map_cons, String.join_cons, String.join_cons, String.length_append,
      String.length_append]
    exact Nat.add_le_add (hsegment segment) ih

def Rendered.Grows (r s : Rendered) : Prop := r.sql.length ≤ s.sql.length

theorem Rendered.Grows.texts {rs ss : List Rendered} (h : List.Forall₂ Rendered.Grows rs ss)
    : List.Forall₂ (fun s t => s.length ≤ t.length) (rs.map (·.sql)) (ss.map (·.sql)) :=
  List.forall₂_map_left_iff.mpr (List.forall₂_map_right_iff.mpr h)

/-! ## Fragments -/

namespace Fragment

variable {p : Profile} {f g f' g' : Fragment}

def size (p : Profile) (f : Fragment) : Nat := (f.render p).sql.length

@[simp]
theorem size_append (f g : Fragment) : (f ++ g).size p = f.size p + g.size p := by
  unfold size
  rw [render_append]
  exact String.length_append ..

@[simp]
theorem size_ofRendered (r : Rendered) : (ofRendered r).size p = r.sql.length := by
  rw [size, ofRendered, render_raw]

@[simp]
theorem size_parens (f : Fragment) : f.parens.size p = f.size p + 2 := by
  rw [size, render_parens, String.length_append, String.length_append]
  change 1 + f.size p + 1 = _
  omega

def Grows (p : Profile) (f g : Fragment) : Prop := f.size p ≤ g.size p

namespace Grows

theorem refl (f : Fragment) : Grows p f f := Nat.le_refl _

theorem append (h : Grows p f g) (h' : Grows p f' g') : Grows p (f ++ f') (g ++ g') := by
  unfold Grows at *
  simp only [size_append]
  omega

theorem ofRendered {r s : Rendered} (h : r.Grows s) : Grows p (.ofRendered r) (.ofRendered s) := by
  unfold Grows
  rwa [size_ofRendered, size_ofRendered]

theorem parens (h : Grows p f g) : Grows p f.parens g.parens := by
  unfold Grows at *
  simp only [size_parens]
  omega

theorem separated {fs gs : List Fragment} (h : List.Forall₂ (Grows p) fs gs)
    (separator : List Token) : Grows p (.separated separator fs) (.separated separator gs) := by
  unfold Grows size
  rw [render_separated, render_separated]
  apply Text.length_intercalate_le
  apply Rendered.Grows.texts
  exact List.forall₂_map_left_iff.mpr (List.forall₂_map_right_iff.mpr h)

theorem fillTemplate {rs ss : List Rendered} (template : String)
    (h : List.Forall₂ Rendered.Grows rs ss)
    : Grows p (Expr.fillTemplate template rs) (Expr.fillTemplate template ss) := by
  unfold Grows size Expr.fillTemplate
  rw [render_raw, render_raw]
  exact Template.length_fill_le (Rendered.Grows.texts h) template

theorem callByName {rs ss : List Rendered} (name : String) (h : List.Forall₂ Rendered.Grows rs ss)
    : Grows p (Expr.callByName name rs) (Expr.callByName name ss) := by
  have hargs := Text.length_intercalate_le (Rendered.Grows.texts h) ", "
  unfold Grows size Expr.callByName
  rw [render_raw, render_raw]
  simp only [String.length_append]
  omega

end Grows

end Fragment

theorem Assembly.grows_build {p : Profile} {fs gs : List Fragment}
    (h : List.Forall₂ (Fragment.Grows p) fs gs) (a : Assembly)
    : Fragment.Grows p (a.build p fs) (a.build p gs) := by
  have hargs (count : Nat) : List.Forall₂ Rendered.Grows (args p fs count) (args p gs count) :=
    forall₂_args (Nat.le_refl _) h count
  induction a with
  | piece i => exact rel_getD (.refl _) h i
  | before ts a ih => exact .append (.refl _) ih
  | after a ts ih => exact ih.append (.refl _)
  | between a ts b iha ihb => exact (iha.append (.refl _)).append ihb
  | parens a ih => exact ih.parens
  | rest => exact .separated (forall₂_tail h) _
  | template count text => exact .fillTemplate text (hargs count)
  | call count name => exact .callByName name (hargs count)

/-! ## Expressions -/

namespace Expr

open Compile (Agree)

variable {ctx : RenderContext} {nested : ScopeId → Compile Rendered}

theorem agree_own_of_nested
    (hnested : ∀ scope, Agree Rendered.Grows (ctx.subselect scope) (nested scope)) (e : Expr)
    : Agree (List.Forall₂ (Fragment.Grows ctx.profile)) (e.own ctx)
        (e.own { ctx with subselect := nested }) := by
  have hrefl (fs : List Fragment) : List.Forall₂ (Fragment.Grows ctx.profile) fs fs :=
    List.forall₂_same.mpr fun f _ => .refl f
  cases e with
  | existsIn scope negated | inSelect operand scope negated =>
    exact (hnested scope).map fun r r' h => .cons (.ofRendered h) .nil
  | like operand pattern escape negated => cases escape <;> exact .refl hrefl _
  | _ => exact .refl hrefl _

theorem grows_fragment
    (hnested : ∀ scope, Agree Rendered.Grows (ctx.subselect scope) (nested scope)) (e : Expr)
    : Agree (Fragment.Grows ctx.profile) (e.fragment ctx)
        (e.fragment { ctx with subselect := nested }) :=
  agree_fragment_of (fun _ => True) ctx { ctx with subselect := nested } id rfl
    (fun e => (List.map_id e.operands).symm) (fun _ => rfl) (fun _ _ _ _ => trivial)
    (fun e _ => agree_own_of_nested hnested e)
    (fun e _ _ _ h => Assembly.grows_build h (e.assembly ctx.profile)) e trivial

theorem grows_sql
    (hnested : ∀ scope, Agree Rendered.Grows (ctx.subselect scope) (nested scope)) (e : Expr)
    : Agree Rendered.Grows (e.sql ctx) (e.sql { ctx with subselect := nested }) := by
  rw [sql_eq, sql_eq]
  exact (grows_fragment hnested e).map fun f g hfg => hfg

end Expr

end SqlDialect
