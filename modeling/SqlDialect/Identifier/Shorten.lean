/-!
This module contains the shortening of names. Vowels inside a name go first, then the characters in
the middle; the first and the last character stay as long as they can.
-/

namespace SqlDialect
namespace Identifier

def vowels : List Char := ['A', 'E', 'I', 'O', 'U']

def interiorVowel? (cs : List Char) : Option Nat :=
  vowels.findSome? fun v => ((cs.drop 1).dropLast.findIdx? (·.toUpper == v)).map (· + 1)

/--
Give up one character: a vowel inside the name if there is one, else the one in the middle.
-/
def shrink (cs : List Char) : List Char :=
  cs.eraseIdx ((interiorVowel? cs).getD (cs.length / 2))

def shrinkBy : (n : Nat) → List Char → List Char
  | 0, cs => cs
  | n + 1, cs => shrinkBy n (shrink cs)

def shortenChars (cs : List Char) (target : Nat) : List Char := shrinkBy (cs.length - target) cs

def shorten (name : String) (target : Nat) : String :=
  String.ofList (shortenChars name.toList target)

theorem interiorVowel?_lt {cs : List Char} {i : Nat} (h : interiorVowel? cs = some i) :
    i < cs.length := by
  obtain ⟨v, -, hv⟩ := List.exists_of_findSome?_eq_some h
  obtain ⟨j, hj, rfl⟩ := Option.map_eq_some_iff.1 hv
  have := (List.findIdx?_eq_some_iff_findIdx_eq.1 hj).1
  simp only [List.length_dropLast, List.length_drop] at this
  omega

theorem length_shrink (cs : List Char) : (shrink cs).length = cs.length - 1 := by
  cases cs with
  | nil => rfl
  | cons c cs =>
    have h : (interiorVowel? (c :: cs)).getD ((c :: cs).length / 2) < (c :: cs).length := by
      cases hi : interiorVowel? (c :: cs) with
      | some i => exact interiorVowel?_lt hi
      | none => simp only [Option.getD_none, List.length_cons]; omega
    simp only [shrink, List.length_eraseIdx_of_lt h]

theorem length_shrinkBy (n : Nat) (cs : List Char) : (shrinkBy n cs).length = cs.length - n := by
  induction n generalizing cs with
  | zero => rfl
  | succ n ih => rw [shrinkBy, ih, length_shrink]; omega

theorem length_shortenChars (cs : List Char) (target : Nat) :
    (shortenChars cs target).length = min cs.length target := by
  rw [shortenChars, length_shrinkBy]; omega

end Identifier
end SqlDialect
