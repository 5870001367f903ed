import Mathlib.Data.List.Forall2
import SqlDialect.Proofs.Text.Numeral
import SqlDialect.Proofs.Text.Search
import SqlDialect.Text.Template

/-!
This module contains how a template is filled in. The rules by which it is divided into segments
leave no choice and look at nothing but the number of arguments, so a brace in an argument is never
taken for one of the template.
-/

namespace SqlDialect
namespace Template

open Text (IsNumeral bound64)

variable {count index : Nat} {c : Char} {cs rest : List Char} {ss : List Segment}

/-! ## Segments -/

inductive Refers (count : Nat) : List Char → Nat → List Char → Prop where
  | mk {numeral rest : List Char} {index : Nat} (hnumeral : IsNumeral numeral index)
      (hbound : index < bound64) (hcount : index < count) :
      Refers count (numeral ++ '\x7d' :: rest) index rest

/--
The rules by which a template is divided. A brace stands for itself unless a reference starts with
it, and then the division goes on right after it.
-/
inductive Splits (count : Nat) : List Char → List Segment → Prop where
  | nil : Splits count [] []
  | char {c : Char} {cs : List Char} {ss : List Segment} (hc : c ≠ '\x7b')
      (hrest : Splits count cs ss) : Splits count (c :: cs) (.char c :: ss)
  | brace {cs : List Char} {ss : List Segment} (hnone : ∀ index rest, ¬ Refers count cs index rest)
      (hrest : Splits count cs ss) : Splits count ('\x7b' :: cs) (.char '\x7b' :: ss)
  | arg {cs rest : List Char} {index : Nat} {ss : List Segment} (href : Refers count cs index rest)
      (hrest : Splits count rest ss) : Splits count ('\x7b' :: cs) (.arg index :: ss)

theorem takeWhile_numeral {numeral : List Char} (h : IsNumeral numeral index)
    : (numeral ++ '\x7d' :: rest).takeWhile (· ≠ '\x7d') = numeral := by
  apply Text.takeWhile_append
  · intro c hc
    exact decide_eq_true (h.ne_of_mem hc (by decide) (by decide))
  · simp

theorem reference?_eq_some_iff {length : Nat}
    : reference? count cs = some (index, length)
        ↔ (cs.takeWhile (· ≠ '\x7d')).length < cs.length
            ∧ Text.readNumeral? bound64 (cs.takeWhile (· ≠ '\x7d')) = some index
            ∧ index < count
            ∧ (cs.takeWhile (· ≠ '\x7d')).length + 1 = length := by
  simp only [reference?, Option.bind_eq_bind, Option.bind_eq_some_iff, Option.guard_eq_some',
    Option.pure_def, Option.some.injEq, Prod.mk.injEq, exists_const]
  grind

theorem reference?_of_refers (h : Refers count cs index rest)
    : ∃ length, reference? count cs = some (index, length) ∧ cs.drop length = rest := by
  cases h with
  | @mk numeral rest index hnumeral hbound hcount =>
    refine ⟨numeral.length + 1, ?_, by simp⟩
    rw [reference?_eq_some_iff, takeWhile_numeral hnumeral]
    exact ⟨by simp, Text.readNumeral?_eq_some_iff.mpr ⟨hnumeral, hbound⟩, hcount, rfl⟩

theorem eq_append_of_length_takeWhile_lt
    (h : (cs.takeWhile (· ≠ '\x7d')).length < cs.length)
    : cs = cs.takeWhile (· ≠ '\x7d') ++ '\x7d' :: cs.drop ((cs.takeWhile (· ≠ '\x7d')).length + 1)
    := by
  have hsplit := List.takeWhile_append_dropWhile (p := (· ≠ '\x7d')) (l := cs)
  cases hafter : cs.dropWhile (· ≠ '\x7d') with
  | nil =>
    rw [hafter, List.append_nil] at hsplit
    rw [hsplit] at h
    exact absurd h (Nat.lt_irrefl _)
  | cons c after =>
    have hc := Text.head?_dropWhile (· ≠ '\x7d') cs c (by rw [hafter]; rfl)
    obtain rfl : c = '\x7d' := by simpa using hc
    rw [hafter] at hsplit
    generalize cs.takeWhile (· ≠ '\x7d') = before at hsplit
    simp [← hsplit]

theorem refers_of_reference? {length : Nat} (h : reference? count cs = some (index, length))
    : Refers count cs index (cs.drop length) := by
  obtain ⟨hshort, hread, hcount, rfl⟩ := reference?_eq_some_iff.mp h
  obtain ⟨hnumeral, hbound⟩ := Text.readNumeral?_eq_some_iff.mp hread
  generalize hrest : cs.drop ((cs.takeWhile (· ≠ '\x7d')).length + 1) = rest
  rw [eq_append_of_length_takeWhile_lt hshort, hrest]
  exact .mk hnumeral hbound hcount

theorem reference?_eq_none (h : ∀ index rest, ¬ Refers count cs index rest)
    : reference? count cs = none := by
  cases href : reference? count cs with
  | none => rfl
  | some found => exact absurd (refers_of_reference? href) (h _ _)

theorem go_eq (count skip : Nat) (cs : List Char)
    : segments.go count skip cs = segments count (cs.drop skip) := by
  induction cs generalizing skip with
  | nil => simp [segments, segments.go]
  | cons c cs ih =>
    cases skip with
    | zero => rfl
    | succ skip => rw [segments.go, ih, List.drop_succ_cons]

theorem segments_char (hc : c ≠ '\x7b') (cs : List Char)
    : segments count (c :: cs) = .char c :: segments count cs := by
  rw [segments, segments.go, if_neg hc, go_eq, List.drop_zero]

theorem segments_brace (hnone : ∀ index rest, ¬ Refers count cs index rest)
    : segments count ('\x7b' :: cs) = .char '\x7b' :: segments count cs := by
  rw [segments, segments.go, if_pos rfl, reference?_eq_none hnone]
  simp only [go_eq, List.drop_zero]

theorem segments_arg (href : Refers count cs index rest)
    : segments count ('\x7b' :: cs) = .arg index :: segments count rest := by
  obtain ⟨length, hreference, rfl⟩ := reference?_of_refers href
  rw [segments, segments.go, if_pos rfl, hreference]
  simp only [go_eq]

theorem Splits.eq_segments (h : Splits count cs ss) : ss = segments count cs := by
  induction h with
  | nil => rfl
  | char hc _ ih => rw [segments_char hc, ← ih]
  | brace hnone _ ih => rw [segments_brace hnone, ← ih]
  | arg href _ ih => rw [segments_arg href, ← ih]

theorem splits_go (count skip : Nat) (cs : List Char)
    : Splits count (cs.drop skip) (segments.go count skip cs) := by
  fun_induction segments.go count skip cs with
  | case1 skip => simpa using Splits.nil
  | case2 skip c cs ih => exact ih
  | case3 cs index length href ih => exact .arg (refers_of_reference? href) ih
  | case4 cs href ih =>
    refine .brace ?_ ih
    intro index rest hrefers
    obtain ⟨length, hsome, -⟩ := reference?_of_refers hrefers
    rw [href] at hsome
    cases hsome
  | case5 c cs hc ih => exact .char hc ih

theorem splits_iff : Splits count cs ss ↔ ss = segments count cs := by
  constructor
  · exact Splits.eq_segments
  · rintro rfl
    exact splits_go count 0 cs

/-! ## Filling in -/

variable {args : List String}

inductive StandsFor (args : List String) : Segment → String → Prop where
  | char (c : Char) : StandsFor args (.char c) c.toString
  | arg {index : Nat} {value : String} (h : args[index]? = some value) :
      StandsFor args (.arg index) value

theorem standsFor_text {s : Segment} (h : ∀ index, s = .arg index → index < args.length)
    : StandsFor args s (s.text args) := by
  cases s with
  | char c => exact .char c
  | arg index =>
    apply StandsFor.arg
    simp [Segment.text, h index rfl]

theorem StandsFor.eq_text {s : Segment} {value : String} (h : StandsFor args s value)
    : s.text args = value := by
  cases h with
  | char c => rfl
  | arg h => simp [Segment.text, h]

theorem map_text_of_standsFor {values : List String} (h : List.Forall₂ (StandsFor args) ss values)
    : ss.map (Segment.text args) = values := by
  rw [← List.forall₂_eq_eq_eq, List.forall₂_map_left_iff]
  exact h.imp fun _ _ h => h.eq_text

theorem Refers.length_lt (h : Refers count cs index rest) : rest.length < cs.length := by
  cases h
  rw [List.length_append, List.length_cons]
  omega

theorem Splits.length_le (h : Splits count cs ss) : ss.length ≤ cs.length := by
  induction h with
  | nil => exact Nat.le_refl 0
  | char _ _ ih | brace _ _ ih => exact Nat.succ_le_succ ih
  | arg href _ ih => exact Nat.succ_le_succ (ih.trans href.length_lt.le)

theorem Splits.lt_of_mem (h : Splits count cs ss) (hmem : .arg index ∈ ss) : index < count := by
  induction h with
  | nil => cases hmem
  | char _ _ ih | brace _ _ ih => exact ih (by simpa using hmem)
  | arg href _ ih =>
    obtain heq | hmem := List.mem_cons.mp hmem
    · cases heq
      cases href
      assumption
    · exact ih hmem

-- Without arguments there is nothing to refer to.
theorem Splits.eq_map (h : Splits 0 cs ss) : ss = cs.map .char := by
  induction h with
  | nil => rfl
  | char _ _ ih | brace _ _ ih => rw [ih, List.map_cons]
  | arg href =>
    cases href with
    | mk _ _ hcount => cases hcount

theorem fill_nil (template : String) : fill template [] = template := by
  have hsegments := (splits_iff.mpr rfl : Splits 0 template.toList _).eq_map
  rw [String.ext_iff, fill, String.toList_join, List.length_nil, hsegments]
  simp [List.flatMap_map, Segment.text]

/--
There is one way to divide a template into segments, whatever the arguments are, and each of its
steps goes on by a character at least. All references are replaced by the arguments that they refer
to, which are taken as they are. A template without arguments stays the same.
-/
theorem fill_substitutes (template : String) (count : Nat)
    : ∃ ss, (∀ ts, Splits count template.toList ts ↔ ts = ss)
        ∧ ss.length ≤ template.length
        ∧ (∀ args t, args.length = count →
            (fill template args = t
              ↔ ∃ values, List.Forall₂ (StandsFor args) ss values ∧ String.join values = t))
        ∧ fill template [] = template := by
  have hsplits : Splits count template.toList (segments count template.toList) := splits_iff.mpr rfl
  refine ⟨segments count template.toList, fun ts => splits_iff, ?_, ?_, fill_nil template⟩
  · rw [← String.length_toList]
    exact hsplits.length_le
  · rintro args t rfl
    constructor
    · rintro rfl
      refine ⟨_, ?_, rfl⟩
      rw [List.forall₂_map_right_iff, List.forall₂_same]
      intro s hs
      apply standsFor_text
      rintro index rfl
      exact hsplits.lt_of_mem hs
    · rintro ⟨values, hvalues, rfl⟩
      rw [fill, map_text_of_standsFor hvalues]

-- The inner one of two braces starts a reference, and the argument looks like another one. A sign
-- and zeros may stand before an index, and there is no third argument.
theorem fill_substitutes_overlapping
    : let template := "\x7b\x7b0\x7d\x7b+01\x7d\x7b2\x7d"
      let args := ["\x7b1\x7d", "b"]
      Splits 2 template.toList
          [.char '\x7b', .arg 0, .arg 1, .char '\x7b', .char '2', .char '\x7d']
        ∧ args.length = 2
        ∧ fill template args = "\x7b\x7b1\x7db\x7b2\x7d"
        ∧ fill template [] = template := by
  intro template args
  have hsplits : Splits 2 template.toList
      [.char '\x7b', .arg 0, .arg 1, .char '\x7b', .char '2', .char '\x7d'] :=
    splits_iff.mpr (by decide +kernel)
  obtain ⟨ss, hss, -, hfill, hnil⟩ := fill_substitutes template 2
  obtain rfl := (hss _).mp hsplits
  refine ⟨hsplits, rfl, (hfill args _ rfl).mpr ?_, hnil⟩
  refine ⟨["\x7b", "\x7b1\x7d", "b", "\x7b", "2", "\x7d"], ?_, by decide⟩
  exact .cons (.char _) (.cons (.arg rfl) (.cons (.arg rfl)
    (.cons (.char _) (.cons (.char _) (.cons (.char _) .nil)))))

end Template
end SqlDialect
