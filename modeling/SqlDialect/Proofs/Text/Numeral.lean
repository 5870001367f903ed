import Mathlib.Data.Nat.Digits.Defs
import SqlDialect.Text.Numeral

/-!
This module contains what numerals stand for. The value of a numeral is that of its digits, and with
as many digits a number is written in one way only. A plus sign in front makes no difference.
-/

namespace SqlDialect
namespace Text

/-! ## Digits -/

theorem digitsValue?_eq_some_iff {cs : List Char} {n : Nat}
    : digitsValue? cs = some n
        ↔ (∀ c ∈ cs, c.isDigit = true) ∧ Nat.ofDigitChars 10 cs 0 = n := by
  unfold digitsValue?
  generalize 0 = acc
  induction cs generalizing acc with
  | nil => simp
  | cons c cs ih =>
    rw [List.foldlM_cons, Nat.ofDigitChars_cons, List.forall_mem_cons]
    by_cases hc : c.isDigit = true
    · simp only [hc, if_true, Option.bind_eq_bind, Option.bind_some, ih, true_and]
    · simp [hc]

theorem ofDigitChars_cons_eq (c : Char) (cs : List Char)
    : Nat.ofDigitChars 10 (c :: cs) 0
        =
      10 ^ cs.length * (c.toNat - '0'.toNat) + Nat.ofDigitChars 10 cs 0 := by
  rw [Nat.ofDigitChars_cons, Nat.ofDigitChars_eq_ofDigitChars_zero, Nat.mul_zero, Nat.zero_add]

theorem toNat_of_isDigit {c : Char} (h : c.isDigit = true)
    : c.toNat = '0'.toNat + (c.toNat - '0'.toNat) ∧ c.toNat - '0'.toNat < 10 := by
  obtain ⟨hzero, hnine⟩ := Char.isDigit_iff_toNat.mp h
  have h48 : '0'.toNat = 48 := rfl
  have h57 : '9'.toNat = 57 := rfl
  omega

theorem ofDigitChars_lt {cs : List Char} (h : ∀ c ∈ cs, c.isDigit = true)
    : Nat.ofDigitChars 10 cs 0 < 10 ^ cs.length := by
  induction cs with
  | nil => simp
  | cons c cs ih =>
    rw [List.forall_mem_cons] at h
    have htail := ih h.2
    have hdigit : c.toNat - '0'.toNat ≤ 9 := Nat.le_of_lt_succ (toNat_of_isDigit h.1).2
    have hhead := Nat.mul_le_mul_left (10 ^ cs.length) hdigit
    rw [ofDigitChars_cons_eq, List.length_cons, Nat.pow_succ]
    omega

theorem eq_of_digitsValue?_eq {cs ds : List Char} {n : Nat} (hlength : cs.length = ds.length)
    (hcs : digitsValue? cs = some n) (hds : digitsValue? ds = some n) : cs = ds := by
  rw [digitsValue?_eq_some_iff] at hcs hds
  induction cs generalizing ds n with
  | nil => exact (List.length_eq_zero_iff.mp hlength.symm).symm
  | cons c cs ih =>
    cases ds with
    | nil => cases hlength
    | cons d ds =>
      obtain ⟨hcs, rfl⟩ := hcs
      obtain ⟨hds, heq⟩ := hds
      rw [List.forall_mem_cons] at hcs hds
      have hlength : cs.length = ds.length := Nat.succ.inj hlength
      have hctail := ofDigitChars_lt hcs.2
      have hdtail := ofDigitChars_lt hds.2
      rw [ofDigitChars_cons_eq, ofDigitChars_cons_eq, ← hlength] at heq
      rw [← hlength] at hdtail
      -- The first digit is the quotient and the others are the remainder of one division.
      have htails : Nat.ofDigitChars 10 ds 0 = Nat.ofDigitChars 10 cs 0 := by
        have hmod := congrArg (· % 10 ^ cs.length) heq
        simpa [Nat.mul_add_mod, Nat.mod_eq_of_lt hctail, Nat.mod_eq_of_lt hdtail] using hmod
      have hheads : d.toNat - '0'.toNat = c.toNat - '0'.toNat := by
        rw [htails] at heq
        exact Nat.eq_of_mul_eq_mul_left (Nat.pow_pos (by decide)) (Nat.add_right_cancel heq)
      have hhead : c = d := by
        apply Char.toNat_inj.mp
        rw [(toNat_of_isDigit hcs.1).1, (toNat_of_isDigit hds.1).1, hheads]
      rw [hhead, ih hlength ⟨hcs.2, rfl⟩ ⟨hds.2, htails⟩]

/-! ## Numerals -/

/--
The rules by which a numeral has a value.
-/
inductive IsNumeral : List Char → Nat → Prop where
  | digits {ds : List Char} (hne : ds ≠ []) (hdigits : ∀ c ∈ ds, c.isDigit = true) :
      IsNumeral ds (Nat.ofDigitChars 10 ds 0)
  | plus {ds : List Char} (hne : ds ≠ []) (hdigits : ∀ c ∈ ds, c.isDigit = true) :
      IsNumeral ('+' :: ds) (Nat.ofDigitChars 10 ds 0)

theorem dropPlus_of_isDigit {cs : List Char} (h : ∀ c ∈ cs, c.isDigit = true)
    : dropPlus cs = cs := by
  unfold dropPlus
  split
  · next cs => exact absurd (h '+' List.mem_cons_self) (by decide)
  · rfl

theorem isNumeral_iff {cs : List Char} {n : Nat}
    : IsNumeral cs n ↔ dropPlus cs ≠ [] ∧ digitsValue? (dropPlus cs) = some n := by
  rw [digitsValue?_eq_some_iff]
  constructor
  · intro h
    cases h with
    | digits hne hdigits =>
      rw [dropPlus_of_isDigit hdigits]
      exact ⟨hne, hdigits, rfl⟩
    | plus hne hdigits => exact ⟨hne, hdigits, rfl⟩
  · unfold dropPlus
    split
    · rintro ⟨hne, hdigits, rfl⟩
      exact .plus hne hdigits
    · rintro ⟨hne, hdigits, rfl⟩
      exact .digits hne hdigits

theorem readNumeral?_eq_some_iff {bound n : Nat} {cs : List Char}
    : readNumeral? bound cs = some n ↔ IsNumeral cs n ∧ n < bound := by
  rw [isNumeral_iff]
  unfold readNumeral?
  split
  · next hempty => simp [List.isEmpty_iff.mp hempty]
  · next hne =>
    rw [List.isEmpty_iff] at hne
    simp [Option.filter_eq_some_iff, hne]

theorem IsNumeral.ne_of_mem {cs : List Char} {n : Nat} (h : IsNumeral cs n) {c d : Char}
    (hc : c ∈ cs) (hplus : d ≠ '+') (hdigit : d.isDigit = false) : c ≠ d := by
  rintro rfl
  cases h with
  | digits _ hdigits => simp [hdigits c hc] at hdigit
  | plus _ hdigits =>
    obtain rfl | hc := List.mem_cons.mp hc
    · exact hplus rfl
    · simp [hdigits c hc] at hdigit

end Text
end SqlDialect
