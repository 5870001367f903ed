import Mathlib.Logic.Function.Basic
import SqlDialect.Profile.Default

/-!
This module contains the reading of quotations. A reader has to look one character ahead to tell a
closing delimiter that is part of the text from the one that ends it. So what follows a quotation
must not start with that delimiter, and then the reader finds exactly the text that was quoted.
-/

namespace SqlDialect
namespace Text

variable {opening closing c : Char} {cs s t : List Char}

def readToClosing? (closing : Char) : List Char → Option (List Char × List Char)
  | [] => none
  | [c] => if c = closing then some ([], []) else none
  | c :: d :: cs =>
    if c = closing then
      if d = closing then
        (readToClosing? closing cs).map (Prod.map (c :: ·) id)
      else
        some ([], d :: cs)
    else
      (readToClosing? closing (d :: cs)).map (Prod.map (c :: ·) id)

def readQuotation? (opening closing : Char) (text : String) : Option (String × String) :=
  match text.toList with
  | [] => none
  | c :: cs =>
    if c = opening then
      (readToClosing? closing cs).map (Prod.map String.ofList String.ofList)
    else
      none

theorem readToClosing?_cons_of_ne (h : c ≠ closing) (cs : List Char)
    : readToClosing? closing (c :: cs)
        =
      (readToClosing? closing cs).map (Prod.map (c :: ·) id) := by
  cases cs with
  | nil => simp [readToClosing?, h]
  | cons d cs => rw [readToClosing?, if_neg h]

theorem readToClosing?_double (ht : t.head? ≠ some closing) (s : List Char)
    : readToClosing? closing (double closing s ++ closing :: t) = some (s, t) := by
  induction s with
  | nil =>
    cases t with
    | nil => simp [double, readToClosing?]
    | cons d t =>
      have hd : d ≠ closing := by simpa using ht
      simp [double, readToClosing?, hd]
  | cons c s ih =>
    by_cases hc : c = closing
    · simp [double, hc, readToClosing?, ih]
    · simp [double, hc, readToClosing?_cons_of_ne hc, ih]

theorem eq_of_readToClosing? (h : readToClosing? closing cs = some (s, t))
    : cs = double closing s ++ closing :: t ∧ t.head? ≠ some closing := by
  fun_induction readToClosing? closing cs generalizing s t with
  | case1 => cases h
  | case2 =>
    cases h
    simp [double]
  | case3 => cases h
  | case4 cs ih =>
    obtain ⟨⟨s, t⟩, hread, heq⟩ := Option.map_eq_some_iff.mp h
    cases heq
    obtain ⟨rfl, ht⟩ := ih hread
    simp [double, ht]
  | case5 d cs hd =>
    cases h
    simp [double, hd]
  | case6 c d cs hc ih =>
    obtain ⟨⟨s, t⟩, hread, heq⟩ := Option.map_eq_some_iff.mp h
    cases heq
    obtain ⟨hcs, ht⟩ := ih hread
    simp [double, hc, hcs, ht]

theorem toList_quote_append (opening closing : Char) (s t : String)
    : (quote opening closing s ++ t).toList
        =
      opening :: (double closing s.toList ++ closing :: t.toList) := by
  simp

theorem readQuotation?_eq_some_iff {text s t : String}
    : readQuotation? opening closing text = some (s, t)
        ↔ text = quote opening closing s ++ t ∧ t.front? ≠ some closing := by
  rw [String.front?_eq, ← String.toList_inj, toList_quote_append]
  unfold readQuotation?
  constructor
  · intro h
    split at h
    · cases h
    · next c cs htext =>
      split at h
      · next hc =>
        obtain ⟨⟨u, v⟩, hread, heq⟩ := Option.map_eq_some_iff.mp h
        obtain ⟨rfl, rfl⟩ : String.ofList u = s ∧ String.ofList v = t := by simpa using heq
        obtain ⟨rfl, hv⟩ := eq_of_readToClosing? hread
        simp [htext, hc, hv]
      · cases h
  · rintro ⟨htext, ht⟩
    simp [htext, readToClosing?_double ht]

theorem eq_of_quote_append_eq {s t s' t' : String} (ht : t.front? ≠ some closing)
    (ht' : t'.front? ≠ some closing)
    (h : quote opening closing s ++ t = quote opening closing s' ++ t') : s = s' ∧ t = t' := by
  have hread : readQuotation? opening closing (quote opening closing s ++ t) = some (s, t) :=
    readQuotation?_eq_some_iff.mpr ⟨rfl, ht⟩
  rw [readQuotation?_eq_some_iff.mpr ⟨h, ht'⟩] at hread
  cases hread
  exact ⟨rfl, rfl⟩

/--
Whatever follows a quotation, a reader gets back what was quoted, and nothing else can be read from
the same text. So no two texts have the same quotation, and no text can end its own.
-/
structure ReadsBack (opening closing : Char) (quote : String → String) : Prop where
  reads : ∀ text s t, readQuotation? opening closing text = some (s, t)
    ↔ text = quote s ++ t ∧ t.front? ≠ some closing
  injective : Function.Injective quote
  endsOnce : ∀ s t s' t', t.front? ≠ some closing → t'.front? ≠ some closing →
    quote s ++ t = quote s' ++ t' → s = s' ∧ t = t'

theorem readsBack_quote (opening closing : Char)
    : ReadsBack opening closing (quote opening closing) := by
  refine ⟨fun _ _ _ => readQuotation?_eq_some_iff, ?_, fun _ _ _ _ => eq_of_quote_append_eq⟩
  intro s s' h
  have hempty : "".front? ≠ some closing := by
    rw [String.front?_eq]
    simp
  exact (eq_of_quote_append_eq hempty hempty (by rw [h])).1

end Text

theorem Profile.quoteIdentifier_eq {p : Profile} (h : p.naming.delimitIdentifiers = true)
    : p.quoteIdentifier = Text.quote p.naming.quoteStyle.opening p.naming.quoteStyle.closing := by
  funext name
  rw [quoteIdentifier, if_pos h]

/--
String literals can be read back, and so can delimited identifiers in every style.
-/
theorem readsBack_quoted
    : Text.ReadsBack '\'' '\'' Text.quoteString
        ∧ ∀ p : Profile, p.naming.delimitIdentifiers = true →
            Text.ReadsBack p.naming.quoteStyle.opening p.naming.quoteStyle.closing
              p.quoteIdentifier := by
  refine ⟨Text.readsBack_quote '\'' '\'', fun p h => ?_⟩
  rw [Profile.quoteIdentifier_eq h]
  exact Text.readsBack_quote _ _

-- A name that consists of delimiters, next to another quotation, and a literal that looks like two.
theorem readsBack_quoted_brackets
    : let p : Profile := { Vendor.sqlServer.profile with naming.delimitIdentifiers := true }
      p.naming.delimitIdentifiers = true
        ∧ p.quoteIdentifier "]][" = "[]]]][]"
        ∧ Text.readQuotation? '[' ']' "[]]]][][a]" = some ("]][", "[a]")
        ∧ Text.quoteString "a', 'b" = "'a'', ''b'"
        ∧ Text.readQuotation? '\'' '\'' "'a'', ''b', ''" = some ("a', 'b", ", ''") := by
  intro p
  obtain ⟨hstring, hidentifier⟩ := readsBack_quoted
  refine ⟨rfl, by decide, ?_, by decide, ?_⟩
  · exact ((hidentifier p rfl).reads _ _ _).mpr ⟨by decide, by rw [String.front?_eq]; decide⟩
  · exact (hstring.reads _ _ _).mpr ⟨by decide, by rw [String.front?_eq]; decide⟩

end SqlDialect
