import Mathlib.Data.List.TakeWhile
import SqlDialect.Text.Search

/-!
This module contains how far a search in a text goes: a run of characters ends with the first one
that is of another kind, and a piece of text is found where it occurs first.
-/

namespace SqlDialect
namespace Text

variable {p : Char → Bool} {run cs : List Char}

theorem takeWhile_append (hrun : ∀ c ∈ run, p c = true) (hnext : ∀ c ∈ cs.head?, p c = false)
    : (run ++ cs).takeWhile p = run := by
  rw [List.takeWhile_append_of_pos hrun]
  cases cs with
  | nil => simp
  | cons c cs => simp [hnext c rfl]

theorem dropWhile_append (hrun : ∀ c ∈ run, p c = true) (hnext : ∀ c ∈ cs.head?, p c = false)
    : (run ++ cs).dropWhile p = cs := by
  rw [List.dropWhile_append_of_pos hrun]
  cases cs with
  | nil => simp
  | cons c cs => simp [hnext c rfl]

theorem head?_dropWhile (p : Char → Bool) (cs : List Char)
    : ∀ c ∈ (cs.dropWhile p).head?, p c = false := by
  intro c hc
  have h := List.head?_dropWhile_not p cs
  rw [hc] at h
  exact h

variable {pat s before after : List Char}

theorem length_le_of_splitAt? (h : splitAt? pat s = some (before, after)) {b a : List Char}
    (hs : s = b ++ pat ++ a) : before.length ≤ b.length := by
  induction s generalizing before b with
  | nil =>
    simp only [splitAt?] at h
    split at h
    · cases h
      exact Nat.zero_le _
    · cases h
  | cons c s ih =>
    simp only [splitAt?] at h
    split at h
    · cases h
      exact Nat.zero_le _
    · next hfront =>
      obtain ⟨⟨before, _⟩, hsplit, heq⟩ := Option.map_eq_some_iff.mp h
      cases heq
      cases b with
      | nil =>
        -- The text does not start with the piece that is searched for.
        rw [List.nil_append] at hs
        exact absurd (List.isPrefixOf_iff_prefix.mpr ⟨a, hs.symm⟩) hfront
      | cons d b =>
        cases hs
        exact Nat.succ_le_succ (ih hsplit rfl)

theorem splitAt?_eq_none_iff : splitAt? pat s = none ↔ ¬ pat <:+: s := by
  induction s with
  | nil => simp [splitAt?]
  | cons c s ih =>
    rw [splitAt?, List.infix_cons_iff, ← List.isPrefixOf_iff_prefix]
    split
    · next hfront => simp [hfront]
    · next hfront => simp [hfront, ih]

inductive WithoutFirst (pat s : List Char) : List Char → Prop where
  | found {before after : List Char} (h : s = before ++ pat ++ after)
      (first : ∀ b a, s = b ++ pat ++ a → before.length ≤ b.length) :
      WithoutFirst pat s (before ++ after)
  | absent (h : ¬ pat <:+: s) : WithoutFirst pat s s

theorem WithoutFirst.of_splitAt? (h : splitAt? pat s = some (before, after))
    : WithoutFirst pat s (before ++ after) :=
  .found (eq_append_of_splitAt? h) fun _ _ => length_le_of_splitAt? h

theorem WithoutFirst.subset {t : List Char} (h : WithoutFirst pat s t) : t ⊆ s := by
  cases h with
  | found h first =>
    rw [h]
    simp
  | absent h => exact List.Subset.refl s

end Text
end SqlDialect
