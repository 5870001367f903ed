/-!
This module contains the search for a piece of text, in front of another one or anywhere in it.
-/

namespace SqlDialect
namespace Text

def after? {α : Type} [DecidableEq α] (pat s : List α) : Option (List α) :=
  if pat.isPrefixOf s then some (s.drop pat.length) else none

theorem after?_eq_some_iff {α : Type} [DecidableEq α] {pat s rest : List α} :
    after? pat s = some rest ↔ s = pat ++ rest := by
  unfold after?
  split
  next h =>
    obtain ⟨t, rfl⟩ := List.isPrefixOf_iff_prefix.1 h
    simp
  next h =>
    simp only [reduceCtorEq, false_iff]
    rintro rfl
    exact h (List.isPrefixOf_iff_prefix.2 ⟨rest, rfl⟩)

def splitAt? (pat : List Char) : (s : List Char) → Option (List Char × List Char)
  | [] => if pat.isEmpty then some ([], []) else none
  | c :: s =>
    if pat.isPrefixOf (c :: s) then
      some ([], (c :: s).drop pat.length)
    else
      (splitAt? pat s).map fun (before, after) => (c :: before, after)

def occurs (pat s : String) : Bool :=
  (splitAt? pat.toList s.toList).isSome

theorem eq_append_of_splitAt? {pat s before after : List Char}
    (h : splitAt? pat s = some (before, after)) : s = before ++ pat ++ after := by
  induction s generalizing before with
  | nil =>
    simp only [splitAt?] at h
    split at h <;> simp_all
  | cons c s ih =>
    simp only [splitAt?] at h
    split at h
    next hp =>
      obtain ⟨t, ht⟩ := List.isPrefixOf_iff_prefix.1 hp
      simp only [Option.some.injEq, Prod.mk.injEq] at h
      obtain ⟨rfl, rfl⟩ := h
      rw [← ht]
      simp
    next =>
      obtain ⟨⟨b, a⟩, hb, he⟩ := Option.map_eq_some_iff.1 h
      simp only [Prod.mk.injEq] at he
      obtain ⟨rfl, rfl⟩ := he
      simp [ih hb]

end Text
end SqlDialect
