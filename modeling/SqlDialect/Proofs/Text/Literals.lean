import Mathlib.Data.List.Forall2
import SqlDialect.Text.Quoted
import SqlDialect.Text.Template

/-!
This module contains the reading of string literals in a text, and texts that are alike: they differ
only in what stands in their literals. A scan goes through a text once, from left to right. It
cannot know whether a quote ends a literal before it has seen what follows, so texts that are alike
are put together only with other text between them.
-/

namespace SqlDialect
namespace Text

inductive ScanState where
  | outside
  | inside
  /-- After a quote that ends a literal, if another one does not follow. -/
  | closing
  deriving DecidableEq

structure Scan where
  state : ScanState := .outside
  out : List Char := []
  deriving DecidableEq

namespace Scan

def step (s : Scan) (c : Char) : Scan :=
  match s.state with
  | .outside => if c = '\'' then ⟨.inside, s.out ++ ['\'', '\'']⟩ else ⟨.outside, s.out ++ [c]⟩
  | .inside => if c = '\'' then ⟨.closing, s.out⟩ else s
  | .closing => if c = '\'' then ⟨.inside, s.out⟩ else ⟨.outside, s.out ++ [c]⟩

def read (s : Scan) (t : String) : Scan := t.toList.foldl step s

@[simp]
theorem read_empty (s : Scan) : s.read "" = s := rfl

@[simp]
theorem read_append (s : Scan) (t u : String) : s.read (t ++ u) = (s.read t).read u := by
  simp [read]

end Scan

/--
A text with its literals replaced by empty ones. There is none if a literal has no end.
-/
def blanked? (t : String) : Option (List Char) :=
  let s := Scan.read {} t
  if s.state = .inside then none else some s.out

def QuoteFree (t : String) : Prop := '\'' ∉ t.toList

instance (t : String) : Decidable (QuoteFree t) := inferInstanceAs (Decidable (¬ _))

theorem QuoteFree.append {t u : String} (ht : QuoteFree t) (hu : QuoteFree u)
    : QuoteFree (t ++ u) := by
  unfold QuoteFree at *
  simp [ht, hu]

theorem QuoteFree.join {ts : List String} (h : ∀ t ∈ ts, QuoteFree t)
    : QuoteFree (String.join ts) := by
  induction ts with
  | nil => decide
  | cons t ts ih =>
    rw [String.join_cons]
    exact (h t List.mem_cons_self).append (ih fun u hu => h u (List.mem_cons_of_mem _ hu))

theorem QuoteFree.ofList {cs : List Char} (h : '\'' ∉ cs) : QuoteFree (String.ofList cs) := by
  simpa [QuoteFree] using h

theorem quoteFree_toString {c : Char} (h : c ≠ '\'') : QuoteFree c.toString := by
  simpa [QuoteFree] using h.symm

namespace Scan

/-! ## Scans -/

theorem foldl_step_of_outside {cs : List Char} (h : '\'' ∉ cs) (out : List Char)
    : cs.foldl step ⟨.outside, out⟩ = ⟨.outside, out ++ cs⟩ := by
  induction cs generalizing out with
  | nil => simp
  | cons c cs ih =>
    have hc : c ≠ '\'' := fun hc => h (hc ▸ List.mem_cons_self)
    rw [List.foldl_cons]
    simp only [step, hc, if_false]
    rw [ih (fun hmem => h (List.mem_cons_of_mem _ hmem))]
    simp

theorem step_of_ne {s : Scan} (hs : s.state ≠ .inside) {c : Char} (hc : c ≠ '\'')
    : s.step c = ⟨.outside, s.out ++ [c]⟩ := by
  unfold step
  split
  · simp [hc]
  · contradiction
  · simp [hc]

theorem read_of_quoteFree {s : Scan} (hs : s.state ≠ .inside) {t : String} (ht : QuoteFree t)
    (hne : t ≠ "") : s.read t = ⟨.outside, s.out ++ t.toList⟩ := by
  unfold QuoteFree at ht
  unfold read
  cases hcs : t.toList with
  | nil => exact absurd (String.toList_eq_nil_iff.mp hcs) hne
  | cons c cs =>
    rw [hcs, List.mem_cons, not_or] at ht
    rw [List.foldl_cons, step_of_ne hs (Ne.symm ht.1), foldl_step_of_outside ht.2]
    simp

theorem foldl_step_double (cs : List Char) (out : List Char)
    : (double '\'' cs).foldl step ⟨.inside, out⟩ = ⟨.inside, out⟩ := by
  induction cs with
  | nil => rfl
  | cons c cs ih =>
    unfold double
    split
    · next hc => simpa [step, hc] using ih
    · next hc => simpa [step, hc] using ih

theorem read_quoteString (out : List Char) (s : String)
    : read ⟨.outside, out⟩ (quoteString s) = ⟨.closing, out ++ ['\'', '\'']⟩ := by
  unfold read quoteString
  rw [toList_quote, List.foldl_cons, List.foldl_append]
  change [_].foldl step ((double _ _).foldl step ⟨.inside, _⟩) = _
  rw [foldl_step_double]
  rfl

end Scan

/-! ## Texts that are alike -/

def Alike (t u : String) : Prop :=
  ∀ out, Scan.read ⟨.outside, out⟩ t = Scan.read ⟨.outside, out⟩ u
    ∧ (Scan.read ⟨.outside, out⟩ t).state ≠ .inside

namespace Alike

variable {t u v w : String}

theorem symm (h : Alike t u) : Alike u t := by
  intro out
  obtain ⟨heq, hstate⟩ := h out
  exact ⟨heq.symm, heq ▸ hstate⟩

theorem trans (h : Alike t u) (h' : Alike u v) : Alike t v :=
  fun out => ⟨(h out).1.trans (h' out).1, (h out).2⟩

theorem blanked?_eq (h : Alike t u)
    : ∃ out, blanked? t = some out ∧ blanked? u = some out := by
  obtain ⟨heq, hstate⟩ := h []
  refine ⟨(Scan.read {} t).out, ?_, ?_⟩
  · exact if_neg hstate
  · unfold blanked?
    rw [← heq]
    exact if_neg hstate

theorem quoteString (s s' : String) : Alike (quoteString s) (quoteString s') := by
  intro out
  rw [Scan.read_quoteString, Scan.read_quoteString]
  simp

theorem empty : Alike "" "" := fun out => by simp

theorem append_text (h : Alike t u) {after : String} (hafter : QuoteFree after)
    : Alike (t ++ after) (u ++ after) := by
  intro out
  obtain ⟨heq, hstate⟩ := h out
  by_cases hne : after = ""
  · simpa [hne] using h out
  · rw [Scan.read_append, Scan.read_append, ← heq, Scan.read_of_quoteFree hstate hafter hne]
    simp

theorem append_between (h : Alike t u) {between : String} (hbetween : QuoteFree between)
    (hne : between ≠ "") (h' : Alike v w)
    : Alike (t ++ between ++ v) (u ++ between ++ w) := by
  intro out
  obtain ⟨heq, hstate⟩ := h out
  simp only [Scan.read_append, ← heq, Scan.read_of_quoteFree hstate hbetween hne]
  exact h' _

theorem text (ht : QuoteFree t) : Alike t t := by
  simpa using empty.append_text ht

theorem text_append (hbefore : QuoteFree t) (h : Alike u v) : Alike (t ++ u) (t ++ v) := by
  by_cases hne : t = ""
  · simpa [hne] using h
  · simpa using empty.append_between hbefore hne h

theorem around {before after : String} (hbefore : QuoteFree before) (h : Alike t u)
    (hafter : QuoteFree after) : Alike (before ++ t ++ after) (before ++ u ++ after) :=
  (text_append hbefore h).append_text hafter

theorem intercalate {separator : String} (hseparator : QuoteFree separator) (hne : separator ≠ "")
    {ts us : List String} (h : List.Forall₂ Alike ts us)
    : Alike (separator.intercalate ts) (separator.intercalate us) := by
  induction h with
  | nil => exact empty
  | cons head tail ih =>
    cases tail with
    | nil => simpa using head
    | cons _ _ =>
      rw [String.intercalate_cons_cons, String.intercalate_cons_cons]
      exact head.append_between hseparator hne ih

end Alike

end Text

/-! ## Templates -/

namespace Template

open Text (Alike QuoteFree)

def areSeparated : List Segment → Bool
  | [] => true
  | .char c :: segments => c ≠ '\'' && areSeparated segments
  | [.arg _] => true
  | .arg _ :: .char c :: segments => c ≠ '\'' && areSeparated segments
  | .arg _ :: .arg _ :: _ => false

def Separated (count : Nat) (template : String) : Prop :=
  areSeparated (segments count template.toList)

instance (count : Nat) (template : String) : Decidable (Separated count template) :=
  inferInstanceAs (Decidable (_ = _))

theorem alike_getD {args args' : List String} (h : List.Forall₂ Alike args args') (index : Nat)
    : Alike (args.getD index "") (args'.getD index "") := by
  induction h generalizing index with
  | nil => exact .empty
  | cons head _ ih =>
    cases index with
    | zero => exact head
    | succ index => exact ih index

theorem alike_join {args args' : List String} (h : List.Forall₂ Alike args args')
    (segments : List Segment) (hsegments : areSeparated segments)
    : Alike (String.join (segments.map (Segment.text args)))
        (String.join (segments.map (Segment.text args'))) := by
  fun_induction areSeparated segments with
  | case1 => exact .empty
  | case2 c segments ih =>
    simp only [Bool.and_eq_true, decide_eq_true_eq] at hsegments
    rw [List.map_cons, List.map_cons, String.join_cons, String.join_cons]
    exact .text_append (Text.quoteFree_toString hsegments.1) (ih hsegments.2)
  | case3 index => simpa [Segment.text] using alike_getD h index
  | case4 index c segments ih =>
    simp only [Bool.and_eq_true, decide_eq_true_eq] at hsegments
    simp only [List.map_cons, String.join_cons, ← String.append_assoc]
    exact (alike_getD h index).append_between (Text.quoteFree_toString hsegments.1)
      (by simp [Segment.text]) (ih hsegments.2)
  | case5 => cases hsegments

theorem alike_fill {template : String} {args args' : List String}
    (h : List.Forall₂ Alike args args') (htemplate : Separated args.length template)
    : Alike (fill template args) (fill template args') := by
  unfold fill
  rw [← h.length_eq]
  exact alike_join h _ htemplate

end Template

end SqlDialect
