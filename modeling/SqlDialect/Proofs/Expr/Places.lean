import Mathlib.Data.List.Basic
import SqlDialect.Proofs.Expr.Assembly

/-!
This module contains the places of parameters in the text of expressions. Where they are is found
out by binding: once values have been put into an expression for its parameters, its text has the
values at their places.
-/

namespace SqlDialect

abbrev Binding := String → String

/-! ## Texts with places -/

inductive Piece where
  | text (s : String)
  | place (name : String)
  deriving DecidableEq

abbrev PlacedText := List Piece

namespace PlacedText

def name? : Piece → Option String
  | .text _ => none
  | .place name => some name

def piece (value : String → String) : Piece → String
  | .text s => s
  | .place name => value name

def names (t : PlacedText) : List String := t.filterMap name?

def write (value : String → String) (t : PlacedText) : String := String.join (t.map (piece value))

@[simp]
theorem names_append (t u : PlacedText) : names (t ++ u) = names t ++ names u :=
  List.filterMap_append

@[simp]
theorem write_append (value : String → String) (t u : PlacedText)
    : write value (t ++ u) = write value t ++ write value u := by
  simp [write]

theorem write_cons (value : String → String) (p : Piece) (t : PlacedText)
    : write value (p :: t) = piece value p ++ write value t :=
  String.join_cons

theorem write_intercalate (value : String → String) (separator : String) (ts : List PlacedText)
    : write value ([Piece.text separator].intercalate ts)
        =
      separator.intercalate (ts.map (write value)) := by
  induction ts with
  | nil => rfl
  | cons t ts ih =>
    cases ts with
    | nil => simp
    | cons u ts =>
      rw [List.intercalate_cons_cons, write_append, write_append, ih]
      simp [write, piece, String.intercalate_cons_cons]

theorem names_intercalate (separator : String) (ts : List PlacedText)
    : names ([Piece.text separator].intercalate ts) = ts.flatMap names := by
  induction ts with
  | nil => rfl
  | cons t ts ih =>
    cases ts with
    | nil => simp
    | cons u ts =>
      rw [List.intercalate_cons_cons, names_append, names_append, ih]
      simp [names, name?]

/-! ### Readings

A text is read from what becomes of it when values are put into its places. Values of one character
show all of it: each character of what is written is one of the text or one of the values.
-/

def cells : PlacedText → List (Char ⊕ String)
  | [] => []
  | .text s :: t => s.toList.map .inl ++ cells t
  | .place name :: t => .inl '\'' :: .inr name :: .inl '\'' :: cells t

theorem toList_write {value : String → Char} (hvalue : ∀ name, value name ≠ '\'') (t : PlacedText)
    : (t.write fun name => Text.quoteString (String.singleton (value name))).toList
        =
      t.cells.map (Sum.elim id value) := by
  induction t with
  | nil => rfl
  | cons piece t ih =>
    rw [write_cons, String.toList_append, ih]
    cases piece with
    | text s => simp [PlacedText.piece, cells]
    | place name => simp [PlacedText.piece, cells, Text.quoteString, Text.double, hvalue name]

theorem names_eq_filterMap_cells (t : PlacedText) : t.names = t.cells.filterMap Sum.getRight? := by
  induction t with
  | nil => rfl
  | cons piece t ih =>
    cases piece with
    | text s =>
      have htext : (s.toList.map Sum.inl).filterMap Sum.getRight? = ([] : List String) := by simp
      change names t = (s.toList.map Sum.inl ++ cells t).filterMap Sum.getRight?
      rw [List.filterMap_append, htext, ih, List.nil_append]
    | place name => exact congrArg (name :: ·) ih

theorem eq_of_elim_eq {a b : Char ⊕ String}
    (h : ∀ value : String → Char, (∀ name, value name ≠ '\'') →
      Sum.elim id value a = Sum.elim id value b)
    : a = b := by
  have hx := h (fun _ => 'x') (by simp)
  have hy := h (fun _ => 'y') (by simp)
  have hxy : 'x' ≠ 'y' := by decide
  cases a with
  | inl c =>
    cases b with
    | inl d => exact congrArg Sum.inl hx
    | inr n => exact absurd (hx.symm.trans hy) hxy
  | inr n =>
    cases b with
    | inl d => exact absurd (hx.trans hy.symm) hxy
    | inr m =>
      have hn := h (fun name => if name = n then 'x' else 'y') (by intro name; split <;> decide)
      by_cases hmn : m = n
      · rw [hmn]
      · simp [hmn] at hn

theorem eq_of_map_elim_eq {as bs : List (Char ⊕ String)}
    (h : ∀ value : String → Char, (∀ name, value name ≠ '\'') →
      as.map (Sum.elim id value) = bs.map (Sum.elim id value))
    : as = bs := by
  -- The lists are compared place by place: at each of them all values may be tried.
  induction as generalizing bs with
  | nil =>
    have hx := h (fun _ => 'x') (by simp)
    exact (List.map_eq_nil_iff.mp hx.symm).symm
  | cons a as ih =>
    cases bs with
    | nil =>
      have hx := h (fun _ => 'x') (by simp)
      cases hx
    | cons b bs =>
      have hhead : a = b := eq_of_elim_eq fun value hvalue => (List.cons.inj (h value hvalue)).1
      have htail : as = bs := ih fun value hvalue => (List.cons.inj (h value hvalue)).2
      rw [hhead, htail]

theorem names_eq_of_write_eq {t u : PlacedText}
    (h : ∀ ρ : Binding, (t.write fun name => Text.quoteString (ρ name))
      = u.write fun name => Text.quoteString (ρ name))
    : t.names = u.names := by
  have hcells : t.cells = u.cells := by
    apply eq_of_map_elim_eq
    intro value hvalue
    rw [← toList_write hvalue, ← toList_write hvalue]
    exact congrArg String.toList (h fun name => String.singleton (value name))
  rw [names_eq_filterMap_cells, names_eq_filterMap_cells, hcells]

/-! ### Templates -/

def ofSegment (args : List PlacedText) : Template.Segment → PlacedText
  | .char c => [.text c.toString]
  | .arg index => args.getD index []

theorem write_ofSegment (value : String → String) (args : List PlacedText)
    (segment : Template.Segment)
    : write value (ofSegment args segment) = segment.text (args.map (write value)) := by
  cases segment with
  | char c => simp [ofSegment, write, piece, Template.Segment.text]
  | arg index =>
    simp only [ofSegment, Template.Segment.text, List.getD_eq_getElem?_getD, List.getElem?_map]
    cases args[index]? <;> rfl

theorem write_flatMap_ofSegment (value : String → String) (args : List PlacedText)
    (segments : List Template.Segment)
    : write value (segments.flatMap (ofSegment args))
        =
      String.join (segments.map (Template.Segment.text (args.map (write value)))) := by
  induction segments with
  | nil => rfl
  | cons segment segments ih =>
    rw [List.flatMap_cons, write_append, write_ofSegment, ih, List.map_cons, String.join_cons]

end PlacedText

namespace Template

def Segment.arg? : Segment → Option Nat
  | .char _ => none
  | .arg index => some index

def references (count : Nat) (template : String) : List Nat :=
  (segments count template.toList).filterMap Segment.arg?

def InOrder (count : Nat) (template : String) : Prop := references count template = List.range count

instance (count : Nat) (template : String) : Decidable (InOrder count template) :=
  inferInstanceAs (Decidable (_ = _))

end Template

namespace PlacedText

theorem names_flatMap_ofSegment (args : List PlacedText) (segments : List Template.Segment)
    : names (segments.flatMap (ofSegment args))
        =
      (segments.filterMap Template.Segment.arg?).flatMap
        fun index => names (args.getD index []) := by
  induction segments with
  | nil => rfl
  | cons segment segments ih =>
    rw [List.flatMap_cons, names_append, ih]
    cases segment <;> rfl

/--
Text is read as one with places when it has placeholders at the places, and has values in their
stead once values have been bound to the parameters.
-/
structure Reads (t : PlacedText) (sql : String) (bound : Binding → Option Rendered) : Prop where
  sql : (t.write fun _ => "?") = sql
  bound : ∀ ρ, bound ρ = some ⟨t.write fun name => Text.quoteString (ρ name), []⟩

theorem Reads.names_eq {t u : PlacedText} {sql : String} {bound : Binding → Option Rendered}
    (ht : t.Reads sql bound) (hu : u.Reads sql bound) : t.names = u.names := by
  apply names_eq_of_write_eq
  intro ρ
  have h := (ht.bound ρ).symm.trans (hu.bound ρ)
  simpa using h

def rendered (t : PlacedText) : Rendered := ⟨t.write fun _ => "?", t.names⟩

def bound (t : PlacedText) (ρ : Binding) : Rendered := ⟨t.write fun n => Text.quoteString (ρ n), []⟩

end PlacedText

/--
Text becomes other text, and has no parameters any more, when values are put into the places of its
parameters. The places are those of its parameters in the order in which it lists them.
-/
def Rendered.Binds (r : Rendered) (s : Binding → Rendered) : Prop :=
  ∃ t : PlacedText, t.rendered = r ∧ t.bound = s

namespace Rendered

namespace Binds

open PlacedText (write piece names name?)

theorem text (s : String) : (⟨s, []⟩ : Rendered).Binds fun _ => ⟨s, []⟩ := by
  refine ⟨[.text s], ?_, ?_⟩
  · simp [PlacedText.rendered, write, piece, names, name?]
  · funext ρ
    simp [PlacedText.bound, write, piece]

theorem place (name : String)
    : (⟨"?", [name]⟩ : Rendered).Binds fun ρ => ⟨Text.quoteString (ρ name), []⟩ := by
  refine ⟨[.place name], ?_, ?_⟩
  · simp [PlacedText.rendered, write, piece, names, name?]
  · funext ρ
    simp [PlacedText.bound, write, piece]

theorem append {r r' : Rendered} {s s' : Binding → Rendered} (h : r.Binds s) (h' : r'.Binds s')
    : (r ++ r').Binds fun ρ => s ρ ++ s' ρ := by
  obtain ⟨t, rfl, rfl⟩ := h
  obtain ⟨t', rfl, rfl⟩ := h'
  refine ⟨t ++ t', ?_, ?_⟩
  · simp only [PlacedText.rendered, PlacedText.write_append, PlacedText.names_append]
    rfl
  · funext ρ
    simp only [PlacedText.bound, PlacedText.write_append]
    rfl

theorem around {r : Rendered} {s : Binding → Rendered} (h : r.Binds s) (before after : String)
    : (⟨before ++ r.sql ++ after, r.params⟩ : Rendered).Binds
        fun ρ => ⟨before ++ (s ρ).sql ++ after, (s ρ).params⟩ := by
  have hparams : ∀ r : Rendered, (⟨before, []⟩ ++ r ++ ⟨after, []⟩ : Rendered)
      = ⟨before ++ r.sql ++ after, r.params⟩ :=
    fun r => congrArg (Rendered.mk _) (List.append_nil r.params)
  simpa only [hparams] using ((text before).append h).append (text after)

theorem exists_texts {rs : List Rendered} {ss : Binding → List Rendered}
    (h : Listwise Rendered.Binds rs ss)
    : ∃ ts : List PlacedText, rs = ts.map (·.rendered) ∧ ss = fun ρ => ts.map (·.bound ρ) := by
  induction h with
  | nil => exact ⟨[], rfl, rfl⟩
  | cons head tail ih =>
    obtain ⟨t, rfl, rfl⟩ := head
    obtain ⟨ts, rfl, rfl⟩ := ih
    exact ⟨t :: ts, rfl, rfl⟩

theorem intercalate {rs : List Rendered} {ss : Binding → List Rendered}
    (h : Listwise Rendered.Binds rs ss) (separator : String)
    : (⟨separator.intercalate (rs.map (·.sql)), rs.flatMap (·.params)⟩ : Rendered).Binds
        fun ρ => ⟨separator.intercalate ((ss ρ).map (·.sql)), (ss ρ).flatMap (·.params)⟩ := by
  obtain ⟨ts, rfl, rfl⟩ := exists_texts h
  refine ⟨[Piece.text separator].intercalate ts, ?_, ?_⟩
  · simp only [PlacedText.rendered, PlacedText.write_intercalate, PlacedText.names_intercalate,
      List.map_map, List.flatMap_map]
    rfl
  · funext ρ
    simp [PlacedText.bound, PlacedText.write_intercalate, List.flatMap_map, Function.comp_def]

theorem refer {rs : List Rendered} {ss : Binding → List Rendered}
    (h : Listwise Rendered.Binds rs ss) (template : String)
    : (⟨Template.fill template (rs.map (·.sql)),
          (Template.references rs.length template).flatMap
            fun index => (rs.map (·.params)).getD index []⟩ : Rendered).Binds
        fun ρ => ⟨Template.fill template ((ss ρ).map (·.sql)), (ss ρ).flatMap (·.params)⟩ := by
  obtain ⟨ts, rfl, rfl⟩ := exists_texts h
  have hnames : ∀ index, PlacedText.names (ts.getD index [])
      = ((ts.map (·.rendered)).map (·.params)).getD index [] := by
    intro index
    simp only [List.getD_eq_getElem?_getD, List.getElem?_map]
    cases ts[index]? <;> rfl
  refine ⟨(Template.segments ts.length template.toList).flatMap (PlacedText.ofSegment ts), ?_, ?_⟩
  · rw [PlacedText.rendered, PlacedText.write_flatMap_ofSegment,
      PlacedText.names_flatMap_ofSegment]
    simp only [hnames, Template.fill, Template.references, List.map_map, List.length_map]
    rfl
  · funext ρ
    simp [PlacedText.bound, PlacedText.write_flatMap_ofSegment, Template.fill, List.flatMap_map,
      Function.comp_def]

end Binds

end Rendered

/-! ## Fragments -/

def Fragment.Binds (p : Profile) (f : Fragment) (g : Binding → Fragment) : Prop :=
  (f.render p).Binds fun ρ => (g ρ).render p

namespace Fragment

variable {p : Profile}

namespace Binds

theorem ofTokens (ts : List Token) : Binds p (.ofTokens ts) fun _ => .ofTokens ts :=
  Rendered.Binds.text _

theorem empty : Binds p .empty fun _ => .empty :=
  ofTokens []

theorem ofParam (name : String)
    : Binds p (.ofParam name) fun ρ => .ofTokens [.string (ρ name)] := by
  have h := Rendered.Binds.place name
  unfold Binds
  simpa [render, Fragment.ofParam, Fragment.ofTokens, Token.writeAll, Token.write] using h

theorem append {f f' : Fragment} {g g' : Binding → Fragment} (h : Binds p f g) (h' : Binds p f' g')
    : Binds p (f ++ f') fun ρ => g ρ ++ g' ρ := by
  unfold Binds
  simp only [render_append]
  exact Rendered.Binds.append h h'

theorem after {ts : List Token} {params : List String} {g : Binding → Fragment}
    (h : Binds p ⟨ts, params⟩ g) (us : List Token)
    : Binds p ⟨ts ++ us, params⟩ fun ρ => g ρ ++ .ofTokens us := by
  have happend : (⟨ts, params⟩ ++ .ofTokens us : Fragment) = ⟨ts ++ us, params⟩ :=
    congrArg (Fragment.mk _) (List.append_nil _)
  rw [← happend]
  exact h.append (ofTokens us)

theorem ofRendered {r : Rendered} {s : Binding → Rendered} (h : r.Binds s)
    : Binds p (.ofRendered r) fun ρ => .ofRendered (s ρ) := by
  unfold Binds
  simp only [Fragment.ofRendered, render_raw]
  exact h

theorem parens {f : Fragment} {g : Binding → Fragment} (h : Binds p f g)
    : Binds p f.parens fun ρ => (g ρ).parens := by
  unfold Binds
  simp only [render_parens]
  exact Rendered.Binds.around h "(" ")"

theorem separated {fs : List Fragment} {gs : Binding → List Fragment}
    (h : Listwise (Binds p) fs gs) (separator : List Token)
    : Binds p (.separated separator fs) fun ρ => .separated separator (gs ρ) := by
  unfold Binds
  simp only [render_separated]
  exact Rendered.Binds.intercalate (h.map fun _ _ h => h) _

theorem commaSep {fs : List Fragment} {gs : Binding → List Fragment}
    (h : Listwise (Binds p) fs gs) : Binds p (.commaSep fs) fun ρ => .commaSep (gs ρ) :=
  separated h _

end Binds

end Fragment

/-! ## Assemblies -/

namespace Assembly

section

variable {α : Type}

def taken (pieces : List (List α)) (count : Nat) : List (List α) :=
  (List.range count).map fun i => pieces.getD i []

def collect (fill : Nat → String → List (List α) → List α) (pieces : List (List α)) :
    Assembly → List α
  | .piece i => pieces.getD i []
  | .before _ a | .after a _ | .parens a => a.collect fill pieces
  | .between a _ b => a.collect fill pieces ++ b.collect fill pieces
  | .rest => pieces.tail.flatten
  | .template count text => fill count text (taken pieces count)
  | .call count _ => (taken pieces count).flatten

def names (pieces : List (List α)) (a : Assembly) : List α :=
  a.collect (fun _ _ args => args.flatten) pieces

def places (pieces : List (List α)) (a : Assembly) : List α :=
  a.collect (fun count text args => (Template.references count text).flatMap (args.getD · []))
    pieces

theorem names_parensIf (pieces : List (List α)) (a : Assembly) (needed : Bool)
    : (a.parensIf needed).names pieces = a.names pieces := by
  cases needed <;> rfl

end

variable {p : Profile} {fs : List Fragment}

theorem params_getD (fs : List Fragment) (i : Nat)
    : (fs.getD i .empty).params = (fs.map (·.params)).getD i [] := by
  simp only [List.getD_eq_getElem?_getD, List.getElem?_map]
  cases fs[i]? <;> rfl

theorem params_args (fs : List Fragment) (count : Nat)
    : (args p fs count).map (·.params) = taken (fs.map (·.params)) count := by
  rw [args, taken, List.map_map]
  exact List.map_congr_left fun i _ => params_getD fs i

theorem params_build (a : Assembly) (fs : List Fragment)
    : (a.build p fs).params = a.names (fs.map (·.params)) := by
  unfold names
  induction a with
  | piece i => exact params_getD fs i
  | before ts a ih => exact ih
  | after a ts ih => exact (List.append_nil _).trans ih
  | between a ts b iha ihb =>
    rw [build, Fragment.params_append, Fragment.params_append, iha, ihb, collect]
    simp [Fragment.ofTokens]
  | parens a ih => exact ih
  | rest =>
    rw [collect, ← List.map_tail]
    rfl
  | template count text | call count name =>
    rw [collect, ← params_args (p := p)]
    rfl

theorem binds_build {gs : Binding → List Fragment} (a : Assembly)
    (h : Listwise (Fragment.Binds p) fs gs)
    : Fragment.Binds p ⟨(a.build p fs).tokens, a.places (fs.map (·.params))⟩
        fun ρ => a.build p (gs ρ) := by
  have hpiece (i : Nat) : Fragment.Binds p (fs.getD i .empty) fun ρ => (gs ρ).getD i .empty :=
    h.getD i .empty
  have hargs (count : Nat)
      : Listwise Rendered.Binds (args p fs count) fun ρ => args p (gs ρ) count :=
    listwise_map (f := fun i => (fs.getD i .empty).render p) hpiece _
  unfold places
  induction a with
  | piece i =>
    rw [collect, ← params_getD]
    exact hpiece i
  | before ts a ih => exact (Fragment.Binds.ofTokens ts).append ih
  | after a ts ih => exact ih.after ts
  | between a ts b iha ihb => exact (iha.after ts).append ihb
  | parens a ih => exact ih.parens
  | rest =>
    rw [collect, ← List.map_tail]
    exact Fragment.Binds.commaSep h.tail
  | template count text =>
    have hfilled := Rendered.Binds.refer (hargs count) text
    have hlength : (args p fs count).length = count := by simp [args]
    rw [params_args, hlength] at hfilled
    unfold Fragment.Binds
    simp only [build, Expr.fillTemplate, Fragment.render_raw, collect]
    exact hfilled
  | call count name =>
    have hcalled := (Rendered.Binds.intercalate (hargs count) ", ").around (name ++ "(") ")"
    rw [List.flatMap_def, params_args] at hcalled
    unfold Fragment.Binds
    simp only [build, Expr.callByName, Fragment.render_raw, collect]
    exact hcalled

def InOrder : Assembly → Prop
  | .before _ a | .after a _ | .parens a => a.InOrder
  | .between a _ b => a.InOrder ∧ b.InOrder
  | .template count text => Template.InOrder count text
  | .piece _ | .rest | .call .. => True

theorem inOrder_parensIf {a : Assembly} {needed : Bool}
    : (a.parensIf needed).InOrder ↔ a.InOrder := by
  cases needed <;> rfl

theorem flatMap_taken (pieces : List (List String)) (count : Nat)
    : (List.range count).flatMap ((taken pieces count).getD · [])
        =
      (taken pieces count).flatten := by
  rw [List.flatMap_def]
  congr 1
  apply List.map_congr_left
  intro i hi
  simp [taken, List.mem_range.mp hi]

theorem places_eq_names {a : Assembly} (h : a.InOrder) (pieces : List (List String))
    : a.places pieces = a.names pieces := by
  unfold places names
  induction a with
  | before _ a ih | after a _ ih | parens a ih => exact ih h
  | between a _ b iha ihb => exact congrArg₂ (· ++ ·) (iha h.1) (ihb h.2)
  | template count text =>
    have hreferences : Template.references count text = List.range count := h
    rw [collect, hreferences, flatMap_taken, collect]
  | piece | rest | call => rfl

theorem binds_build_of_inOrder {gs : Binding → List Fragment} {a : Assembly} (ha : a.InOrder)
    (h : Listwise (Fragment.Binds p) fs gs)
    : Fragment.Binds p (a.build p fs) fun ρ => a.build p (gs ρ) := by
  have hbinds := binds_build a h
  rw [places_eq_names ha, ← params_build (p := p)] at hbinds
  exact hbinds

end Assembly

/-! ## Expressions -/

namespace Expr

theorem names_assembly {α : Type} {ctx : RenderContext} (p : Profile) {e : Expr}
    {own : List Fragment} (hown : e.own ctx = .ok own) {xs ys : List (List α)}
    (hxs : xs.length = e.operands.length) (hys : ys.length = own.length)
    : (e.assembly p).names (xs ++ ys) = (xs ++ ys).flatten := by
  have hpiece (i : Nat) (needed : Bool) (pieces : List (List α))
      : ((Assembly.piece i).parensIf needed).collect (fun _ _ args => args.flatten) pieces
        = pieces.getD i [] :=
    Assembly.names_parensIf pieces (.piece i) needed
  have hrange : List.range 2 = [0, 1] ∧ List.range 3 = [0, 1, 2] := ⟨rfl, rfl⟩
  unfold Assembly.names
  cases e with
  | column | param | clock | aggregateRows | raw =>
    cases hown
    obtain rfl := List.length_eq_zero_iff.mp hxs
    obtain ⟨y, rfl⟩ := List.length_eq_one_iff.mp hys
    simp [assembly, Assembly.collect]
  | literal | existsIn =>
    obtain ⟨f, -, h⟩ := Compile.bind_eq_ok_iff.mp hown
    cases h
    obtain rfl := List.length_eq_zero_iff.mp hxs
    obtain ⟨y, rfl⟩ := List.length_eq_one_iff.mp hys
    simp [assembly, Assembly.collect]
  | inSelect =>
    obtain ⟨f, -, h⟩ := Compile.bind_eq_ok_iff.mp hown
    cases h
    obtain ⟨x, rfl⟩ := List.length_eq_one_iff.mp hxs
    obtain ⟨y, rfl⟩ := List.length_eq_one_iff.mp hys
    simp [assembly, Assembly.collect]
  | cast =>
    cases hown
    obtain ⟨x, rfl⟩ := List.length_eq_one_iff.mp hxs
    obtain ⟨y, rfl⟩ := List.length_eq_one_iff.mp hys
    simp [assembly, Assembly.collect, Assembly.taken, hrange]
  | unary op a =>
    cases hown
    obtain ⟨x, rfl⟩ := List.length_eq_one_iff.mp hxs
    obtain rfl := List.length_eq_zero_iff.mp hys
    cases op <;> simp [assembly, Assembly.collect, hpiece]
  | isNull | textFunction | aggregate =>
    cases hown
    obtain ⟨x, rfl⟩ := List.length_eq_one_iff.mp hxs
    obtain rfl := List.length_eq_zero_iff.mp hys
    simp [assembly, Assembly.collect, Assembly.taken, hpiece]
  | like a b escape negated =>
    obtain ⟨x, y, rfl⟩ := List.length_eq_two.mp hxs
    cases escape with
    | none =>
      cases hown
      obtain rfl := List.length_eq_zero_iff.mp hys
      simp [assembly, Assembly.collect]
    | some c =>
      cases hown
      obtain ⟨z, rfl⟩ := List.length_eq_one_iff.mp hys
      simp [assembly, Assembly.collect]
  | binary op a b =>
    cases hown
    obtain ⟨x, y, rfl⟩ := List.length_eq_two.mp hxs
    obtain rfl := List.length_eq_zero_iff.mp hys
    simp only [assembly]
    split <;> simp [Assembly.collect, Assembly.taken, hpiece, hrange]
  | trim | concat | suffix | indexOf =>
    cases hown
    obtain ⟨x, y, rfl⟩ := List.length_eq_two.mp hxs
    obtain rfl := List.length_eq_zero_iff.mp hys
    simp [assembly, Assembly.collect, Assembly.taken, hrange]
  | substring | indexOfFrom =>
    cases hown
    obtain ⟨x, y, z, rfl⟩ := List.length_eq_three.mp hxs
    obtain rfl := List.length_eq_zero_iff.mp hys
    simp [assembly, Assembly.collect, Assembly.taken, hrange]
  | inList a vs negated =>
    cases hown
    obtain ⟨x, xs, rfl⟩ := List.exists_cons_of_length_eq_add_one hxs
    obtain rfl := List.length_eq_zero_iff.mp hys
    simp [assembly, Assembly.collect]

mutual

def bind (ρ : Binding) : Expr → Expr
  | .column a name => .column a name
  | .literal value => .literal value
  | .param name => .literal (.text (ρ name))
  | .binary op left right => .binary op (left.bind ρ) (right.bind ρ)
  | .unary op operand => .unary op (operand.bind ρ)
  | .isNull operand negated => .isNull (operand.bind ρ) negated
  | .like operand pattern escape negated => .like (operand.bind ρ) (pattern.bind ρ) escape negated
  | .inList operand values negated => .inList (operand.bind ρ) (bindAll ρ values) negated
  | .existsIn scope negated => .existsIn scope negated
  | .inSelect operand scope negated => .inSelect (operand.bind ρ) scope negated
  | .cast operand typeName => .cast (operand.bind ρ) typeName
  | .textFunction f operand => .textFunction f (operand.bind ρ)
  | .trim operand chars side => .trim (operand.bind ρ) (chars.bind ρ) side
  | .concat left right => .concat (left.bind ρ) (right.bind ρ)
  | .suffix operand start => .suffix (operand.bind ρ) (start.bind ρ)
  | .substring operand start length =>
    .substring (operand.bind ρ) (start.bind ρ) (length.bind ρ)
  | .indexOf haystack needle => .indexOf (haystack.bind ρ) (needle.bind ρ)
  | .indexOfFrom haystack needle start =>
    .indexOfFrom (haystack.bind ρ) (needle.bind ρ) (start.bind ρ)
  | .clock f => .clock f
  | .aggregate f arg distinct => .aggregate f (arg.bind ρ) distinct
  | .aggregateRows f distinct => .aggregateRows f distinct
  | .raw sql => .raw sql

def bindAll (ρ : Binding) : List Expr → List Expr
  | [] => []
  | e :: es => e.bind ρ :: bindAll ρ es

end

mutual

/--
Whether no trimming and no search occurs in an expression, outside of nested selects.
-/
def isInOrder : Expr → Bool
  | .trim .. | .indexOf .. | .indexOfFrom .. => false
  | .binary _ a b | .like a b _ _ | .concat a b | .suffix a b => a.isInOrder && b.isInOrder
  | .unary _ a | .isNull a _ | .inSelect a _ _ | .cast a _ | .textFunction _ a
  | .aggregate _ a _ => a.isInOrder
  | .inList a vs _ => a.isInOrder && allInOrder vs
  | .substring a b c => a.isInOrder && b.isInOrder && c.isInOrder
  | .column .. | .literal _ | .param _ | .existsIn .. | .clock _ | .aggregateRows .. | .raw _ =>
    true

def allInOrder : List Expr → Bool
  | [] => true
  | a :: as => a.isInOrder && allInOrder as

end

@[simp]
theorem precedence_bind (ρ : Binding) (e : Expr) : (e.bind ρ).precedence = e.precedence := by
  cases e with
  | unary op operand => cases op <;> rfl
  | existsIn scope negated => cases negated <;> rfl
  | _ => rfl

@[simp]
theorem isOr_bind (ρ : Binding) (e : Expr) : (e.bind ρ).isOr = e.isOr := by
  cases e with
  | binary op left right => cases op <;> rfl
  | _ => rfl

mutual

@[simp]
theorem containsAggregate_bind (ρ : Binding)
    : ∀ e : Expr, (e.bind ρ).containsAggregate = e.containsAggregate := by
  intro e
  cases e <;> simp [bind, containsAggregate, containsAggregate_bind ρ, anyContainsAggregate_bind ρ]

@[simp]
theorem anyContainsAggregate_bind (ρ : Binding)
    : ∀ es : List Expr, anyContainsAggregate (bindAll ρ es) = anyContainsAggregate es := by
  intro es
  cases es <;>
    simp [bindAll, anyContainsAggregate, containsAggregate_bind ρ, anyContainsAggregate_bind ρ]

end

end Expr

structure Functions.InOrder (f : Functions) : Prop where
  cast : Template.InOrder 2 f.cast
  text : ∀ t, Template.InOrder 1 (Expr.textTemplate f t)
  concatenate : Template.InOrder 2 f.concatenate
  modulo : Template.InOrder 2 f.modulo

namespace Expr

open Compile (Tracks)

theorem bindAll_eq (ρ : Binding) (es : List Expr) : bindAll ρ es = es.map (bind ρ) := by
  induction es with
  | nil => rfl
  | cons e es ih => rw [bindAll, ih, List.map_cons]

theorem operands_bind (ρ : Binding) (e : Expr) : (e.bind ρ).operands = e.operands.map (bind ρ) := by
  cases e <;> simp [bind, operands, bindAll_eq]

theorem assembly_bind (ρ : Binding) (p : Profile) (e : Expr)
    : (e.bind ρ).assembly p = e.assembly p := by
  cases e with
  | unary op a => cases op <;> simp [bind, assembly]
  | binary | isNull => simp [bind, assembly]
  | _ => rfl

theorem allInOrder_eq (es : List Expr) : allInOrder es = es.all isInOrder := by
  induction es with
  | nil => rfl
  | cons e es ih => rw [allInOrder, ih, List.all_cons]

theorem isInOrder_of_mem_operands {e a : Expr} (h : e.isInOrder) (ha : a ∈ e.operands)
    : a.isInOrder := by
  cases e <;> simp_all [isInOrder, operands, allInOrder_eq] <;> grind

def takesInOrder : Expr → Bool
  | .trim .. | .indexOf .. | .indexOfFrom .. => false
  | _ => true

theorem takesInOrder_of_isInOrder {e : Expr} (h : e.isInOrder) : e.takesInOrder := by
  cases e with
  | trim | indexOf | indexOfFrom => cases h
  | _ => rfl

theorem inOrder_assembly {p : Profile} (hf : p.functions.InOrder) {e : Expr} (h : e.takesInOrder)
    : (e.assembly p).InOrder := by
  cases e with
  | binary op a b =>
    simp only [assembly]
    split
    · exact hf.modulo
    · exact ⟨Assembly.inOrder_parensIf.mpr trivial, Assembly.inOrder_parensIf.mpr trivial⟩
  | unary op a => cases op <;> exact Assembly.inOrder_parensIf.mpr trivial
  | isNull a negated => exact Assembly.inOrder_parensIf.mpr trivial
  | like a b escape negated => cases escape <;> simp [assembly, Assembly.InOrder]
  | cast => exact hf.cast
  | textFunction f a => exact hf.text f
  | concat => exact hf.concatenate
  | trim | indexOf | indexOfFrom => cases h
  | inList | inSelect => exact ⟨trivial, trivial⟩
  | _ => trivial

variable {ctx : RenderContext} {nested : Binding → ScopeId → Compile Rendered}

def ownSelect? : Expr → Option ScopeId
  | .existsIn scope _ | .inSelect _ scope _ => some scope
  | _ => none

theorem tracks_own {e : Expr}
    (hnested : ∀ scope ∈ e.ownSelect?,
      Tracks Rendered.Binds (ctx.subselect scope) fun ρ => nested ρ scope)
    : Tracks (Listwise (Fragment.Binds ctx.profile)) (e.own ctx)
        fun ρ => (e.bind ρ).own { ctx with subselect := nested ρ } := by
  have hsame (f : Fragment) (h : Fragment.Binds ctx.profile f fun _ => f)
      : Tracks (ι := Binding) (Listwise (Fragment.Binds ctx.profile)) (.ok [f]) fun _ => .ok [f] :=
    .ok (.cons h .nil)
  cases e with
  | literal value =>
    simp only [bind, own]
    exact .bind_same fun token => hsame _ (.ofTokens [token])
  | param name => exact .ok (.cons (.ofParam name) .nil)
  | existsIn scope negated | inSelect a scope negated =>
    simp only [bind, own]
    exact (hnested scope rfl).map fun r r' h => .cons (.ofRendered h) .nil
  | like a b escape negated =>
    cases escape with
    | none => exact .ok .nil
    | some c => exact hsame _ (.ofTokens _)
  | column a name => exact hsame _ (.ofTokens _)
  | cast a typeName => exact hsame _ (.ofTokens [.raw typeName])
  | clock | aggregateRows | raw => exact hsame _ (.ofTokens _)
  | _ => exact .ok .nil

theorem tracks_fragment (hf : ctx.profile.functions.InOrder)
    (hnested : ∀ scope, Tracks Rendered.Binds (ctx.subselect scope) fun ρ => nested ρ scope)
    (e : Expr)
    : e.isInOrder →
        Tracks (Fragment.Binds ctx.profile) (e.fragment ctx)
          fun ρ => (e.bind ρ).fragment { ctx with subselect := nested ρ } := by
  refine tracks_fragment_of (·.isInOrder) ctx (fun ρ => { ctx with subselect := nested ρ }) bind
    (R := fun _ => Fragment.Binds ctx.profile) (fun _ => rfl) operands_bind
    (fun ρ => assembly_bind ρ ctx.profile) (fun e he a => isInOrder_of_mem_operands he)
    (fun e he fs gs hfs => ?_) e
  refine (tracks_own fun scope _ => hnested scope).mono fun own own' hown => ?_
  exact Assembly.binds_build_of_inOrder (inOrder_assembly hf (takesInOrder_of_isInOrder he))
    (hfs.listwise.append hown)

end Expr

end SqlDialect
