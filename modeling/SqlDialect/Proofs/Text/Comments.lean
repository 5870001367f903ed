import Mathlib.Data.List.Infix
import SqlDialect.Proofs.Text.Literals

/-!
This module contains where a comment starts in a text: at two minus signs that are next to each
other and not in a literal. If texts are put together with other text between them that neither
starts nor ends with a minus sign, a comment starts in the whole only if one starts in a part.
-/

namespace SqlDialect
namespace Text

variable {t u : String} {out out' xs ys : List Char} {c d : Bool}

/-! ## Texts with empty literals -/

def Blanks (t : String) (out : List Char) : Prop :=
  ∀ before, ∃ state, Scan.read ⟨.outside, before⟩ t = ⟨state, before ++ out⟩ ∧ state ≠ .inside

theorem Scan.out_prefix_foldl (s : Scan) (cs : List Char) : s.out <+: (cs.foldl step s).out := by
  induction cs generalizing s with
  | nil => exact List.prefix_rfl
  | cons c cs ih =>
    refine List.IsPrefix.trans ?_ (ih (s.step c))
    unfold step
    split <;> split <;> simp

namespace Blanks

theorem blanked? (h : Blanks t out) : blanked? t = some out := by
  obtain ⟨state, hread, hstate⟩ := h []
  unfold Text.blanked?
  simp [hread, hstate]

theorem text (h : QuoteFree t) : Blanks t t.toList :=
  fun before => ⟨.outside, Scan.foldl_step_of_outside h before, by decide⟩

theorem quoteString (s : String) : Blanks (quoteString s) ['\'', '\''] :=
  fun before => ⟨.closing, Scan.read_quoteString before s, by decide⟩

theorem append_text (h : Blanks t out) {after : String} (hafter : QuoteFree after)
    : Blanks (t ++ after) (out ++ after.toList) := by
  by_cases hne : after = ""
  · simpa [hne] using h
  · intro before
    obtain ⟨state, hread, hstate⟩ := h before
    refine ⟨.outside, ?_, by decide⟩
    rw [Scan.read_append, hread, Scan.read_of_quoteFree hstate hafter hne, List.append_assoc]

theorem append_between (h : Blanks t out) {between : String} (hbetween : QuoteFree between)
    (hne : between ≠ "") (h' : Blanks u out')
    : Blanks (t ++ between ++ u) (out ++ between.toList ++ out') := by
  intro before
  obtain ⟨state, hread, hstate⟩ := h before
  obtain ⟨state', hread', hstate'⟩ := h' (before ++ out ++ between.toList)
  refine ⟨state', ?_, hstate'⟩
  rw [Scan.read_append, Scan.read_append, hread, Scan.read_of_quoteFree hstate hbetween hne, hread']
  simp

theorem text_append {before : String} (hbefore : QuoteFree before) (h : Blanks t out)
    : Blanks (before ++ t) (before.toList ++ out) := by
  by_cases hne : before = ""
  · simpa [hne] using h
  · simpa using (text (t := "") (by decide)).append_between hbefore hne h

-- A literal starts with a quote, with or without its contents.
theorem head?_eq (h : Blanks t out) : out.head? = t.toList.head? := by
  obtain ⟨state, hread, -⟩ := h []
  rw [List.nil_append] at hread
  unfold Scan.read at hread
  cases hcs : t.toList with
  | nil =>
    rw [hcs] at hread
    cases hread
    rfl
  | cons c cs =>
    rw [hcs, List.foldl_cons] at hread
    have hprefix := Scan.out_prefix_foldl (Scan.step ⟨.outside, []⟩ c) cs
    rw [hread] at hprefix
    obtain ⟨rest, rfl⟩ := hprefix
    by_cases hc : c = '\'' <;> simp [Scan.step, hc]

end Blanks

/-! ## Comments -/

def HasComment (cs : List Char) : Prop := ['-', '-'] <:+: cs

instance (cs : List Char) : Decidable (HasComment cs) := inferInstanceAs (Decidable (_ <:+: _))

theorem hasComment_cons {c : Char}
    : HasComment (c :: xs) ↔ HasComment xs ∨ c = '-' ∧ xs.head? = some '-' := by
  unfold HasComment
  rw [List.infix_cons_iff, List.cons_prefix_cons, or_comm, eq_comm]
  cases xs with
  | nil => simp
  | cons d xs => simp [List.cons_prefix_cons, eq_comm]

theorem hasComment_append
    : HasComment (xs ++ ys)
        ↔ HasComment xs ∨ HasComment ys ∨ xs.getLast? = some '-' ∧ ys.head? = some '-' := by
  induction xs with
  | nil => simp [HasComment]
  | cons c xs ih =>
    rw [List.cons_append, hasComment_cons, hasComment_cons, ih]
    cases xs with
    | nil => simp [HasComment]
    | cons d xs =>
      rw [List.cons_append, List.head?_cons, List.head?_cons, List.getLast?_cons_cons]
      tauto

theorem not_hasComment_of_notMem (h : '-' ∉ xs) : ¬ HasComment xs :=
  fun hcomment => h (hcomment.subset List.mem_cons_self)

@[mk_iff]
structure Apart (t : String) : Prop where
  quoteFree : QuoteFree t
  noComment : ¬ HasComment t.toList
  head : t.toList.head? ≠ some '-'
  last : t.toList.getLast? ≠ some '-'

instance (t : String) : Decidable (Apart t) := decidable_of_iff' _ (apart_iff t)

def CommentsIff (t : String) (c : Bool) : Prop := ∃ out, Blanks t out ∧ (HasComment out ↔ c = true)

namespace CommentsIff

theorem text (h : QuoteFree t) (hcomment : ¬ HasComment t.toList) : CommentsIff t false :=
  ⟨t.toList, .text h, by simpa using hcomment⟩

theorem empty : CommentsIff "" false := text (by decide) (by decide)

theorem quoteString (s : String) : CommentsIff (quoteString s) false :=
  ⟨_, .quoteString s, by decide⟩

theorem between (h : CommentsIff t c) {b : String} (hb : Apart b) (hne : b ≠ "")
    (h' : CommentsIff u d) : CommentsIff (t ++ b ++ u) (c || d) := by
  obtain ⟨out, hout, hcomment⟩ := h
  obtain ⟨out', hout', hcomment'⟩ := h'
  refine ⟨_, hout.append_between hb.quoteFree hne hout', ?_⟩
  have hlast : (out ++ b.toList).getLast? = b.toList.getLast? :=
    List.getLast?_append_of_ne_nil _ (by simpa using hne)
  rw [hasComment_append, hasComment_append, hlast]
  simp [hcomment, hcomment', hb.noComment, hb.head, hb.last]

theorem after (h : CommentsIff t c) {b : String} (hb : Apart b) : CommentsIff (t ++ b) c := by
  obtain ⟨out, hout, hcomment⟩ := h
  refine ⟨_, hout.append_text hb.quoteFree, ?_⟩
  simp [hasComment_append, hcomment, hb.noComment, hb.head]

theorem before {b : String} (hb : Apart b) (h : CommentsIff t c) : CommentsIff (b ++ t) c := by
  obtain ⟨out, hout, hcomment⟩ := h
  refine ⟨_, .text_append hb.quoteFree hout, ?_⟩
  simp [hasComment_append, hcomment, hb.noComment, hb.last]

theorem minus (h : CommentsIff t c) (hhead : t.toList.head? = some '-' ↔ d = true)
    : CommentsIff ("-" ++ t) (c || d) := by
  obtain ⟨out, hout, hcomment⟩ := h
  refine ⟨_, .text_append (by decide) hout, ?_⟩
  have hminus : "-".toList = ['-'] := by decide
  rw [hminus, List.singleton_append, hasComment_cons, hout.head?_eq, hhead, hcomment]
  simp

theorem intercalate {separator : String} (hseparator : Apart separator) (hne : separator ≠ "")
    {ts : List String} {cs : List Bool} (h : List.Forall₂ CommentsIff ts cs)
    : CommentsIff (separator.intercalate ts) cs.or := by
  induction h with
  | nil =>
    rw [String.intercalate_nil]
    exact empty
  | cons head tail ih =>
    cases tail with
    | nil => simpa using head
    | cons _ _ =>
      rw [String.intercalate_cons_cons, List.or_cons]
      exact head.between hseparator hne ih

end CommentsIff

end Text
/-! ## Templates -/

namespace Template

open Text (CommentsIff HasComment)

variable {args : List String} {cs : List Bool} {ss : List Segment} {count : Nat}
  {template : String}

def Segment.mark : Segment → Char
  | .char c => c
  | .arg _ => '-'

/--
A template in which no argument is next to another one or to a minus sign: no comment would start in
it even if all arguments were minus signs. It refers to all of its arguments.
-/
@[mk_iff]
structure KeepsApart (count : Nat) (template : String) : Prop where
  quoteFree : '\'' ∉ (segments count template.toList).map Segment.mark
  noComment : ¬ HasComment ((segments count template.toList).map Segment.mark)
  head : ((segments count template.toList).map Segment.mark).head? ≠ some '-'
  uses : ∀ index < count, .arg index ∈ segments count template.toList

instance (count : Nat) (template : String) : Decidable (KeepsApart count template) :=
  decidable_of_iff' _ (keepsApart_iff count template)

def Segment.comments (cs : List Bool) : Segment → Bool
  | .char _ => false
  | .arg index => cs.getD index false

theorem commentsIff_getD (h : List.Forall₂ CommentsIff args cs) (index : Nat)
    : CommentsIff (args.getD index "") (cs.getD index false) := by
  induction h generalizing index with
  | nil => exact .empty
  | cons head _ ih =>
    cases index with
    | zero => exact head
    | succ index => exact ih index

theorem head?_join_ne (h : (ss.map Segment.mark).head? ≠ some '-')
    : (String.join (ss.map (Segment.text args))).toList.head? ≠ some '-' := by
  cases ss with
  | nil => simp
  | cons s ss =>
    cases s with
    | char c => simpa [Segment.text, Segment.mark] using h
    | arg index => simp [Segment.mark] at h

theorem apart_toString {c : Char} (hquote : c ≠ '\'') (hminus : c ≠ '-')
    : Text.Apart c.toString := by
  refine ⟨Text.quoteFree_toString hquote, ?_, by simpa using hminus, by simpa using hminus⟩
  exact Text.not_hasComment_of_notMem (by simpa using hminus.symm)

-- No comment starts at a minus sign of the template, since no argument comes after it.
theorem commentsIff_join (h : List.Forall₂ CommentsIff args cs)
    (hquote : '\'' ∉ ss.map Segment.mark) (hcomment : ¬ HasComment (ss.map Segment.mark))
    : CommentsIff (String.join (ss.map (Segment.text args))) (ss.any (Segment.comments cs)) := by
  induction ss using areSeparated.induct with
  | case1 => exact .empty
  | case2 c ss ih =>
    simp only [List.map_cons, Segment.mark, List.mem_cons, not_or, Text.hasComment_cons] at *
    have hrest := ih hquote.2 hcomment.1
    simp only [String.join_cons, List.any_cons, Segment.text, Segment.comments, Bool.false_or]
    by_cases hc : c = '-'
    · have hhead : (String.join (ss.map (Segment.text args))).toList.head? ≠ some '-' :=
        head?_join_ne fun hhead => hcomment.2 ⟨hc, hhead⟩
      simpa [hc] using hrest.minus (d := false) (by simpa using hhead)
    · exact hrest.before (apart_toString (Ne.symm hquote.1) hc)
  | case3 index => simpa [Segment.text, Segment.comments] using commentsIff_getD h index
  | case4 index c ss ih =>
    simp only [List.map_cons, Segment.mark, List.mem_cons, not_or, Text.hasComment_cons,
      List.head?_cons, Option.some.injEq, true_and] at *
    have hrest := ih hquote.2.2 hcomment.1.1
    have hc := apart_toString (Ne.symm hquote.2.1) hcomment.2
    simp only [String.join_cons, List.any_cons, Segment.text, Segment.comments, Bool.false_or,
      ← String.append_assoc]
    exact (commentsIff_getD h index).between hc (by simp) hrest
  | case5 index index' ss =>
    exact absurd (by simp [Segment.mark, Text.hasComment_cons]) hcomment

theorem any_comments (hlength : cs.length = count)
    (huses : ∀ index < count, .arg index ∈ ss) : ss.any (Segment.comments cs) = cs.or := by
  have htrue : cs.or = true ↔ true ∈ cs := by simp [List.or]
  rw [Bool.eq_iff_iff, htrue, List.any_eq_true]
  constructor
  · rintro ⟨s, hs, hcomments⟩
    cases s with
    | char c => cases hcomments
    | arg index =>
      by_cases hindex : index < cs.length
      · simp only [Segment.comments, List.getD_eq_getElem?_getD, List.getElem?_eq_getElem hindex,
          Option.getD_some] at hcomments
        exact hcomments ▸ List.getElem_mem hindex
      · simp [Segment.comments, hindex] at hcomments
  · intro hmem
    obtain ⟨index, hindex, htrue⟩ := List.getElem_of_mem hmem
    refine ⟨.arg index, huses index (hlength ▸ hindex), ?_⟩
    simp [Segment.comments, hindex, htrue]

theorem commentsIff_fill (h : List.Forall₂ CommentsIff args cs)
    (htemplate : KeepsApart args.length template) : CommentsIff (fill template args) cs.or := by
  rw [← any_comments h.length_eq.symm htemplate.uses]
  exact commentsIff_join h htemplate.quoteFree htemplate.noComment

theorem head?_fill_ne (htemplate : KeepsApart args.length template)
    : (fill template args).toList.head? ≠ some '-' :=
  head?_join_ne htemplate.head

end Template

end SqlDialect
