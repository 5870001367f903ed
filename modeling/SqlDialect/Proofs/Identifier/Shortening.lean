import Mathlib.Data.List.Basic
import SqlDialect.Identifier.Shorten

/-!
This module contains what a name keeps when it is shortened. With room for two characters the first
and the last one stay, since neither a vowel that is given up nor the character in the middle is one
of them. Everything else goes one character at a time, so it does not matter whether a name is
shortened at once or little by little.
-/

namespace SqlDialect
namespace Identifier

variable {cs : List Char} {i n target : Nat} {name : String}

/-! ## The last character -/

theorem interiorVowel?_not_last (h : interiorVowel? cs = some i) : i + 1 < cs.length := by
  obtain ⟨v, -, hv⟩ := List.exists_of_findSome?_eq_some h
  obtain ⟨j, hj, rfl⟩ := Option.map_eq_some_iff.mp hv
  have := (List.findIdx?_eq_some_iff_findIdx_eq.mp hj).1
  simp only [List.length_dropLast, List.length_drop] at this
  omega

theorem getLast?_eraseIdx (h : i + 1 < cs.length) : (cs.eraseIdx i).getLast? = cs.getLast? := by
  have hrest : cs.drop (i + 1) ≠ [] := by
    rw [ne_eq, List.drop_eq_nil_iff]
    omega
  rw [List.eraseIdx_eq_take_drop_succ, List.getLast?_append_of_ne_nil _ hrest]
  rw [List.getLast?_drop, if_neg (by omega)]

theorem getLast?_shrink (h : 2 < cs.length) : (shrink cs).getLast? = cs.getLast? := by
  unfold shrink
  apply getLast?_eraseIdx
  cases hvowel : interiorVowel? cs with
  | some i => exact interiorVowel?_not_last hvowel
  | none =>
    rw [Option.getD_none]
    omega

theorem getLast?_shrinkBy (h : n + 2 ≤ cs.length)
    : (shrinkBy n cs).getLast? = cs.getLast? := by
  induction n generalizing cs with
  | zero => rfl
  | succ n ih =>
    have hlength := length_shrink cs
    rw [shrinkBy, ih (by omega), getLast?_shrink (by omega)]

theorem back?_shorten (h : 2 ≤ target) : (shorten name target).back? = name.back? := by
  rw [String.back?_eq, String.back?_eq, shorten, String.toList_ofList, shortenChars]
  by_cases hlong : target < name.toList.length
  · exact getLast?_shrinkBy (by omega)
  · rw [Nat.sub_eq_zero_of_le (by omega), shrinkBy]

/-! ## Vowels -/

def isVowel (c : Char) : Bool := vowels.contains c.toUpper

def interior (cs : List Char) : List Char := (cs.drop 1).dropLast

@[simp]
theorem interior_cons_append (first : Char) (inner : List Char) (last : Char)
    : interior (first :: (inner ++ [last])) = inner := by
  simp [interior]

theorem exists_eq_cons_append (h : 2 ≤ cs.length)
    : ∃ first inner last, cs = first :: (inner ++ [last]) := by
  cases cs with
  | nil => simp at h
  | cons first rest =>
    have hne : rest ≠ [] := by
      rintro rfl
      simp at h
    exact ⟨first, rest.dropLast, rest.getLast hne, by rw [List.dropLast_append_getLast]⟩

theorem isVowel_of_interiorVowel? (h : interiorVowel? cs = some i)
    : ∃ j c, i = j + 1 ∧ (interior cs)[j]? = some c ∧ isVowel c = true := by
  obtain ⟨v, hv, hi⟩ := List.exists_of_findSome?_eq_some h
  obtain ⟨j, hj, rfl⟩ := Option.map_eq_some_iff.mp hi
  obtain ⟨hlt, heq, -⟩ := List.findIdx?_eq_some_iff_getElem.mp hj
  refine ⟨j, _, rfl, List.getElem?_eq_getElem hlt, ?_⟩
  rw [isVowel, eq_of_beq heq]
  exact List.contains_iff_mem.mpr hv

theorem not_isVowel_of_interiorVowel? (h : interiorVowel? cs = none)
    : ∀ c ∈ interior cs, isVowel c = false := by
  intro c hc
  rw [isVowel, Bool.eq_false_iff, ne_eq, List.contains_iff_mem]
  intro hmem
  have hnone := List.findSome?_eq_none_iff.mp h c.toUpper hmem
  rw [Option.map_eq_none_iff, List.findIdx?_eq_none_iff] at hnone
  simpa using hnone c hc

theorem shrink_cases (h : 2 < cs.length)
    : ∃ first before c after last,
        cs = first :: (before ++ c :: after ++ [last])
          ∧ shrink cs = first :: (before ++ after ++ [last])
          ∧ (isVowel c ∨ ∀ d ∈ interior cs, isVowel d = false) := by
  obtain ⟨first, inner, last, rfl⟩ := exists_eq_cons_append (by omega : 2 ≤ cs.length)
  rw [interior_cons_append]
  obtain ⟨j, hj, hshrink, hvowel⟩ : ∃ j, ∃ hj : j < inner.length,
      shrink (first :: (inner ++ [last])) = (first :: (inner ++ [last])).eraseIdx (j + 1)
        ∧ (isVowel inner[j] ∨ ∀ d ∈ inner, isVowel d = false) := by
    unfold shrink
    cases hvowel : interiorVowel? (first :: (inner ++ [last])) with
    | some i =>
      obtain ⟨j, c, rfl, hc, hvowel⟩ := isVowel_of_interiorVowel? hvowel
      rw [interior_cons_append] at hc
      obtain ⟨hj, rfl⟩ := List.getElem?_eq_some_iff.mp hc
      exact ⟨j, hj, rfl, .inl hvowel⟩
    | none =>
      have hnone := not_isVowel_of_interiorVowel? hvowel
      rw [interior_cons_append] at hnone
      simp only [List.length_cons, List.length_append, List.length_nil] at h ⊢
      have hmiddle : (inner.length + 1 + 1) / 2 - 1 < inner.length := by omega
      refine ⟨(inner.length + 1 + 1) / 2 - 1, hmiddle, ?_, .inr hnone⟩
      rw [Option.getD_none, Nat.sub_add_cancel (by omega)]
  refine ⟨first, inner.take j, inner[j], inner.drop (j + 1), last, ?_, ?_, hvowel⟩
  · rw [List.getElem_cons_drop, List.take_append_drop]
  · rw [hshrink, List.eraseIdx_cons_succ, List.eraseIdx_append_of_lt_length hj,
      List.eraseIdx_eq_take_drop_succ]

theorem head?_shrink (h : 2 < cs.length) : (shrink cs).head? = cs.head? := by
  obtain ⟨first, before, c, after, last, rfl, hshrink, -⟩ := shrink_cases h
  rw [hshrink]
  rfl

theorem interior_shrink_sublist (h : 2 < cs.length)
    : (interior (shrink cs)).Sublist (interior cs) := by
  obtain ⟨first, before, c, after, last, rfl, hshrink, -⟩ := shrink_cases h
  rw [hshrink, interior_cons_append, interior_cons_append]
  exact (List.sublist_cons_self c after).append_left before

theorem filter_shrink (h : 2 < cs.length) (hvowel : ∃ c ∈ interior cs, isVowel c)
    : (shrink cs).filter (! isVowel ·) = cs.filter (! isVowel ·) := by
  obtain ⟨first, before, c, after, last, rfl, hshrink, hc⟩ := shrink_cases h
  have hc : isVowel c := by
    obtain ⟨d, hd, hvowel⟩ := hvowel
    refine hc.resolve_right fun hnone => ?_
    rw [hnone d hd] at hvowel
    cases hvowel
  rw [hshrink]
  simp [List.filter_cons, hc]

/-! ## Shortening by many characters -/

theorem shrink_sublist (cs : List Char) : (shrink cs).Sublist cs := List.eraseIdx_sublist _ _

theorem shrinkBy_sublist (n : Nat) (cs : List Char) : (shrinkBy n cs).Sublist cs := by
  induction n generalizing cs with
  | zero => exact List.Sublist.refl cs
  | succ n ih => exact (ih (shrink cs)).trans (shrink_sublist cs)

theorem shrinkBy_add (m n : Nat) (cs : List Char)
    : shrinkBy (m + n) cs = shrinkBy n (shrinkBy m cs) := by
  induction m generalizing cs with
  | zero => rw [Nat.zero_add, shrinkBy]
  | succ m ih => rw [Nat.add_right_comm, shrinkBy, shrinkBy, ih]

theorem head?_shrinkBy (h : n + 2 ≤ cs.length) : (shrinkBy n cs).head? = cs.head? := by
  induction n generalizing cs with
  | zero => rfl
  | succ n ih =>
    have hlength := length_shrink cs
    rw [shrinkBy, ih (by omega), head?_shrink (by omega)]

theorem interior_shrinkBy_sublist (h : n + 2 ≤ cs.length)
    : (interior (shrinkBy n cs)).Sublist (interior cs) := by
  induction n generalizing cs with
  | zero => exact List.Sublist.refl _
  | succ n ih =>
    have hlength := length_shrink cs
    exact (ih (by omega)).trans (interior_shrink_sublist (by omega))

-- A vowel that is left inside has been there all the time, so there was always one to give up.
theorem filter_shrinkBy (h : n + 2 ≤ cs.length)
    (hvowel : ∃ c ∈ interior (shrinkBy n cs), isVowel c)
    : (shrinkBy n cs).filter (! isVowel ·) = cs.filter (! isVowel ·) := by
  induction n generalizing cs with
  | zero => rfl
  | succ n ih =>
    have hlength := length_shrink cs
    have hbefore : ∃ c ∈ interior cs, isVowel c := by
      obtain ⟨c, hc, hvowel⟩ := hvowel
      exact ⟨c, (interior_shrinkBy_sublist h).subset hc, hvowel⟩
    rw [shrinkBy, ih (by omega) hvowel, filter_shrink (by omega) hbefore]

theorem shortenChars_shortenChars {room : Nat} (h : target ≤ room) (cs : List Char)
    : shortenChars (shortenChars cs room) target = shortenChars cs target := by
  have hlength := length_shortenChars cs room
  unfold shortenChars at hlength ⊢
  rw [hlength, ← shrinkBy_add]
  congr 1
  omega

/--
A shortened name has as many characters as there is room for, in the order of the name. If there is
room for two, the first and the last one are those of the name, and all characters that are no
vowels are still there as long as there is a vowel inside. Shortening a name again is the same as
shortening it at once.
-/
theorem shorten_keeps (name : String) (target : Nat)
    : (shorten name target).length = min name.length target
        ∧ (shorten name target).toList.Sublist name.toList
        ∧ (2 ≤ target →
            (shorten name target).front? = name.front? ∧ (shorten name target).back? = name.back?)
        ∧ (2 ≤ target → (∃ c ∈ interior (shorten name target).toList, isVowel c) →
            (shorten name target).toList.filter (! isVowel ·)
              =
            name.toList.filter (! isVowel ·))
        ∧ ∀ room, target ≤ room → shorten (shorten name room) target = shorten name target := by
  have hroom : 2 ≤ target → name.toList.length - target + 2 ≤ name.toList.length
      ∨ name.toList.length - target = 0 := by omega
  refine ⟨?_, ?_, ?_, ?_, ?_⟩
  · rw [shorten, String.length_ofList, length_shortenChars, String.length_toList]
  · rw [shorten, String.toList_ofList]
    exact shrinkBy_sublist _ _
  · intro h
    refine ⟨?_, back?_shorten h⟩
    rw [String.front?_eq, String.front?_eq, shorten, String.toList_ofList, shortenChars]
    obtain hlong | hzero := hroom h
    · exact head?_shrinkBy hlong
    · rw [hzero, shrinkBy]
  · intro h hvowel
    rw [shorten, String.toList_ofList, shortenChars] at hvowel ⊢
    obtain hlong | hzero := hroom h
    · exact filter_shrinkBy hlong hvowel
    · rw [hzero, shrinkBy]
  · intro room h
    unfold shorten
    rw [String.toList_ofList, shortenChars_shortenChars h]

-- Both letters `a` go before the letter `i`, and two vowels are left inside.
theorem shorten_keeps_vowel
    : let short := shorten "Equatorial" 7
      short = "Equtorl"
        ∧ short.front? = some 'E'
        ∧ short.back? = some 'l'
        ∧ (∃ c ∈ interior short.toList, isVowel c)
        ∧ short.toList.filter (! isVowel ·) = ['q', 't', 'r', 'l']
        ∧ shorten "Equatorial" 8 = "Equtoril"
        ∧ shorten "Equtoril" 7 = short := by
  intro short
  have hvowel : ∃ c ∈ interior short.toList, isVowel c := ⟨'u', by decide, by decide⟩
  obtain ⟨-, -, hends, hfilter, hagain⟩ := shorten_keeps "Equatorial" 7
  have hroom : shorten "Equatorial" 8 = "Equtoril" := by decide
  refine ⟨by decide, ?_, ?_, hvowel, ?_, hroom, ?_⟩
  · rw [(hends (by decide)).1, String.front?_eq]
    decide
  · rw [(hends (by decide)).2, String.back?_eq]
    decide
  · rw [hfilter (by decide) hvowel]
    decide
  · rw [← hroom]
    exact hagain 8 (by decide)

end Identifier
end SqlDialect
