import SqlDialect.Proofs.Identifier.Repaired
import SqlDialect.Proofs.Profile.Overrides

/-!
This module contains which reserved words a repair can give. A word is told to be reserved before
the digits are put at the end of the name, so that the repaired name may be another reserved word,
but only one that ends in a digit. One vendor has such a word.
-/

namespace SqlDialect

/-! ## Words with digits at their ends -/

namespace Text

def endsInDigit (s : String) : Bool := s.back?.any Char.isDigit

theorem endsInDigit_upperAscii {s : String} (h : endsInDigit s = true)
    : endsInDigit (upperAscii s) = true := by
  rw [endsInDigit, String.back?_eq] at h
  obtain ⟨c, hlast, hc⟩ := (Option.any_eq_true _ _).mp h
  simp [endsInDigit, String.back?_eq, hlast, toUpper_of_isDigit hc, hc]

end Text

namespace Identifier

open Text

theorem endsInDigit_of_isNumbered {name s : String} {width n : Nat} (hwidth : 0 < width)
    (h : IsNumbered name width n s) : endsInDigit s = true := by
  obtain ⟨stem, last, digits, _, _, hs, hlength, hvalue⟩ := h
  have hdigits : digits ≠ [] := List.ne_nil_of_length_pos (by omega)
  have hlast := (digitsValue?_eq_some_iff.mp hvalue).1 _ (List.getLast_mem hdigits)
  simp [endsInDigit, String.back?_eq, hs, List.getLast?_append_of_ne_nil _ hdigits,
    List.getLast?_eq_some_getLast hdigits, hlast]

theorem isNumbered_one_iff {stem s : String} {c : Char} {n : Nat}
    : IsNumbered (stem.push c) 1 n s
        ↔ ∃ d : Char, d.isDigit = true ∧ d.toNat - '0'.toNat = n ∧ s = stem.push d := by
  constructor
  · rintro ⟨stem', last, digits, hname, hlast, hs, hlength, hvalue⟩
    obtain ⟨d, rfl⟩ := List.length_eq_one_iff.mp hlength
    obtain ⟨c', rfl⟩ := List.length_eq_one_iff.mp hlast
    obtain ⟨hdigit, hvalue⟩ := digitsValue?_eq_some_iff.mp hvalue
    obtain ⟨rfl, _⟩ : stem.toList = stem' ∧ c = c' := by simpa using hname
    refine ⟨d, hdigit d (by simp), by simpa [Nat.ofDigitChars_cons] using hvalue, ?_⟩
    apply String.toList_inj.mp
    rw [hs, String.toList_push]
  · rintro ⟨d, hdigit, hvalue, rfl⟩
    refine ⟨stem.toList, [c], [d], by simp, rfl, by simp, rfl, ?_⟩
    rw [digitsValue?_eq_some_iff]
    simpa [Nat.ofDigitChars_cons, hdigit] using hvalue

end Identifier

/-! ## Reserved words -/

namespace Profile

open Identifier
open Text (endsInDigit)

variable {p : Profile} {name repaired : String} {kind : NameKind} {names : NameSet} {unique : Bool}

theorem repairName_of_plain (hplain : p.delimitedBody? name = none)
    : p.repairName name kind names unique
        =
      if unique then makeUnique names.contains (p.fit name (p.maxNameLength kind))
      else .ok (p.fit name (p.maxNameLength kind)) := by
  rw [repairName, hplain]

theorem isReserved_fit {max : Nat} (h : p.isReserved (p.fit name max) = true)
    : p.isReserved (shorten name max) = true ∧ endsInDigit (p.fit name max) = true := by
  unfold fit at h ⊢
  dsimp only at h ⊢
  cases hshort : p.isReserved (shorten name max) with
  | true => simp [endsInDigit, String.back?_eq]
  | false => simp [hshort] at h

theorem endsInDigit_of_repairName (hplain : p.delimitedBody? name = none)
    (h : p.repairName name kind names unique = .ok repaired)
    (hreserved : p.isReserved repaired = true)
    : endsInDigit repaired = true
        ∧ (p.isReserved (shorten name (p.maxNameLength kind)) = true
          ∨ unique = true ∧ names.contains (p.fit name (p.maxNameLength kind)) = true) := by
  rw [repairName_of_plain hplain] at h
  have hfitted : repaired = p.fit name (p.maxNameLength kind) →
      endsInDigit repaired = true
        ∧ p.isReserved (shorten name (p.maxNameLength kind)) = true := by
    rintro rfl
    exact (isReserved_fit hreserved).symm
  cases unique with
  | false =>
    cases h
    exact (hfitted rfl).imp_right .inl
  | true =>
    rw [if_pos rfl, makeUnique_eq_ok_iff] at h
    rcases h with ⟨_, hfit⟩ | ⟨htaken, width, n, hwidth, _, hnumbered, _⟩
    · exact (hfitted hfit).imp_right .inl
    · exact ⟨endsInDigit_of_isNumbered hwidth hnumbered, .inr ⟨rfl, htaken⟩⟩

theorem repairName_push_iff {stem : String} {c d : Char} (hc : c.isDigit = false)
    (hd : d.isDigit = true) (hlength : stem.length < p.maxNameLength kind)
    (hplain : p.delimitedBody? (stem.push c) = none)
    (hreserved : p.isReserved (stem.push c) = false)
    : p.repairName (stem.push c) kind names true = .ok (stem.push d)
        ↔ names.contains (stem.push c) = true ∧ names.contains (stem.push d) = false
          ∧ ∀ d' : Char, d'.isDigit = true → d' < d → names.contains (stem.push d') = true := by
  have hfit : p.fit (stem.push c) (p.maxNameLength kind) = stem.push c :=
    fit_of_length_le (by rw [String.length_push]; omega) hreserved
  have hpush : ∀ {a b : Char}, stem.push a = stem.push b → a = b := by
    intro a b h
    simpa using congrArg String.toList h
  have hne : stem.push d ≠ stem.push c := by
    intro h
    rw [← hpush h, hd] at hc
    cases hc
  have hlt : ∀ {a b : Char}, a.isDigit = true → b.isDigit = true →
      (a.toNat - '0'.toNat < b.toNat - '0'.toNat ↔ a < b) := by
    intro a b ha hb
    have hazero := (Text.toNat_of_isDigit ha).1
    have hbzero := (Text.toNat_of_isDigit hb).1
    rw [Char.lt_def, UInt32.lt_iff_toNat_lt]
    change _ ↔ a.toNat < b.toNat
    omega
  rw [repairName_of_plain hplain, if_pos rfl, hfit, makeUnique_eq_ok_iff]
  simp only [hne, and_false, false_or]
  refine and_congr_right fun _ => ?_
  constructor
  · rintro ⟨width, n, hwidth, _, hnumbered, hfree, hfirst⟩
    refine ⟨hfree, fun d' hd' hless => ?_⟩
    have hnumbered' : IsNumbered (stem.push c) 1 (d'.toNat - '0'.toNat) (stem.push d') :=
      isNumbered_one_iff.mpr ⟨d', hd', rfl, rfl⟩
    refine hfirst _ _ _ Nat.one_pos ?_ hnumbered'
    -- A name with more digits comes later than any with one.
    rcases Nat.lt_or_eq_of_le hwidth with hmore | rfl
    · exact .inl hmore
    · obtain ⟨e, _, rfl, he⟩ := isNumbered_one_iff.mp hnumbered
      obtain rfl := hpush he
      exact .inr ⟨rfl, (hlt hd' hd).mpr hless⟩
  · rintro ⟨hfree, hfirst⟩
    refine ⟨1, d.toNat - '0'.toNat, Nat.one_pos, by rw [String.length_push]; omega,
      isNumbered_one_iff.mpr ⟨d, hd, rfl, rfl⟩, hfree, ?_⟩
    rintro width' n' s' hpos (hless | ⟨rfl, hless⟩) hnumbered
    · omega
    · obtain ⟨d', hd', rfl, rfl⟩ := isNumbered_one_iff.mp hnumbered
      exact hfirst d' hd' ((hlt hd' hd).mp hless)

end Profile

/-! ## The words of vendors -/

namespace Vendor

def ownWords : Vendor → List String
  | .generic => []
  | .postgres => Profile.postgresReservedWords
  | .oracle => Profile.oracleReservedWords
  | .db2 => Profile.db2ReservedWords
  | .mySql => Profile.mySqlReservedWords
  | .sqlServer => Profile.sqlServerReservedWords

theorem isReserved_iff {v : Vendor} {word : String}
    : v.profile.isReserved word = true
        ↔ Text.upperAscii word ∈ v.ownWords ∨ Text.upperAscii word ∈ Profile.sql92Keywords := by
  unfold Profile.isReserved
  cases v with
  | generic => simp [profile, Profile.generic, Profile.base, ownWords]
  | postgres => simp [profile, Profile.postgres, Profile.base, Naming.withMaxLengths, ownWords]
  | oracle => simp [profile, Profile.oracle, Profile.base, Naming.withMaxLengths, ownWords]
  | db2 => simp [profile, Profile.db2, Profile.base, ownWords]
  | mySql => simp [profile, Profile.mySql, Profile.base, Naming.withMaxLengths, ownWords]
  | sqlServer => simp [profile, Profile.sqlServer, Profile.base, ownWords]

theorem eq_of_endsInDigit {v : Vendor} {word : String} (h : v.profile.isReserved word = true)
    (hdigit : Text.endsInDigit word = true) : v = .db2 ∧ Text.upperAscii word = "END-EXEC1" := by
  have hkeywords : ∀ w ∈ Profile.sql92Keywords, Text.endsInDigit w = false := by decide +kernel
  have hown : ∀ w ∈ v.ownWords, Text.endsInDigit w = true → v = .db2 ∧ w = "END-EXEC1" := by
    cases v <;> decide +kernel
  have hupper := Text.endsInDigit_upperAscii hdigit
  rcases isReserved_iff.mp h with h | h
  · exact hown _ h hupper
  · rw [hkeywords _ h] at hupper
    cases hupper

end Vendor

namespace Overrides

theorem exists_adjust_of_apply {o : Overrides} {p p' : Profile} (h : o.apply p = .ok p')
    : ∃ codes, o.typeCodes = .ok codes ∧ p' = o.adjust codes p := by
  obtain ⟨_, _, codes, hcodes, hp⟩ := apply_eq_ok_iff.mp h
  exact ⟨codes, hcodes, hp.symm⟩

theorem isReserved_adjust_iff {o : Overrides} {codes : List (TypeCode × String)} {p : Profile}
    {word : String}
    : (o.adjust codes p).isReserved word = true
        ↔ (∃ w ∈ o.reservedWords, Text.eqIgnoringCase word w = true)
          ∨ p.isReserved word = true := by
  simp only [Profile.isReserved, decide_eq_true_eq, adjust_eq, adjustNaming, WordSet.mem_insertMany,
    List.mem_map, Text.eqIgnoringCase_iff, @eq_comm _ (Text.upperAscii word)]

end Overrides

namespace Profile

open Identifier

/--
A name without delimiters becomes a reserved word only if it was reserved or taken, and then the
word ends in a digit. A digit that takes the place of the last character is the first one for which
the name is free, whether the name is then reserved or not. Of the words of all vendors only one of
DB2 ends in a digit; others can only come with adjustments of the profile.
-/
theorem isReserved_of_repairName (p : Profile) (kind : NameKind) (names : NameSet)
    : (∀ name unique repaired, p.delimitedBody? name = none →
        p.repairName name kind names unique = .ok repaired → p.isReserved repaired = true →
        Text.endsInDigit repaired = true
        ∧ (p.isReserved (shorten name (p.maxNameLength kind)) = true
          ∨ unique = true ∧ names.contains (p.fit name (p.maxNameLength kind)) = true))
      ∧ (∀ (stem : String) (c d : Char), c.isDigit = false → d.isDigit = true →
        stem.length < p.maxNameLength kind → p.delimitedBody? (stem.push c) = none →
        p.isReserved (stem.push c) = false →
        (p.repairName (stem.push c) kind names true = .ok (stem.push d)
          ↔ names.contains (stem.push c) = true ∧ names.contains (stem.push d) = false
            ∧ ∀ d' : Char, d'.isDigit = true → d' < d → names.contains (stem.push d') = true))
      ∧ (∀ (v : Vendor) (o : Overrides), o.apply v.profile = .ok p →
        ∀ word, p.isReserved word = true → Text.endsInDigit word = true →
          v = .db2 ∧ Text.eqIgnoringCase word "END-EXEC1" = true
          ∨ ∃ w ∈ o.reservedWords, Text.eqIgnoringCase word w = true) := by
  refine ⟨fun _ _ _ => endsInDigit_of_repairName, fun _ _ _ => repairName_push_iff, ?_⟩
  intro v o happly word hreserved hdigit
  obtain ⟨codes, _, rfl⟩ := Overrides.exists_adjust_of_apply happly
  rcases Overrides.isReserved_adjust_iff.mp hreserved with hadded | hreserved
  · exact .inr hadded
  · obtain ⟨rfl, hword⟩ := Vendor.eq_of_endsInDigit hreserved hdigit
    exact .inl ⟨rfl, Text.eqIgnoringCase_iff.mpr (hword.trans (by decide +kernel))⟩

-- A name becomes a word that was added to those of plain SQL-92, since the digit before is taken.
theorem isReserved_of_repairName_added
    : let o : Overrides := { reservedWords := ["Level1"] }
      let p := o.adjust [] Vendor.generic.profile
      let names := NameSet.ofList ["LEVELS", "LEVEL0"]
      o.apply Vendor.generic.profile = .ok p
      ∧ p.delimitedBody? "levels" = none ∧ p.isReserved "levels" = false
      ∧ p.repairName "levels" .column names true = .ok "level1" ∧ p.isReserved "level1" = true
      ∧ Text.endsInDigit "level1" = true
      ∧ (p.isReserved (shorten "levels" (p.maxNameLength .column)) = true
        ∨ names.contains (p.fit "levels" (p.maxNameLength .column)) = true)
      ∧ ∃ w ∈ o.reservedWords, Text.eqIgnoringCase "level1" w = true := by
  intro o p names
  have happly : o.apply Vendor.generic.profile = .ok p := rfl
  have hplain : p.delimitedBody? "levels" = none := by decide +kernel
  have hfree : p.isReserved "levels" = false := by
    rw [Bool.eq_false_iff, ne_eq, Overrides.isReserved_adjust_iff, Vendor.isReserved_iff]
    decide +kernel
  have hreserved : p.isReserved "level1" = true := by
    rw [Overrides.isReserved_adjust_iff]
    exact .inl (by decide +kernel)
  obtain ⟨hdigit, hpush, hwords⟩ := isReserved_of_repairName p .column names
  have hzero : ∀ d : Char, d.isDigit = true → d < '1' → d = '0' := by
    intro d hd hlt
    have hvalue := Text.toNat_of_isDigit hd
    have hless : d.toNat < 49 := UInt32.lt_iff_toNat_lt.mp (Char.lt_def.mp hlt)
    have h48 : '0'.toNat = 48 := rfl
    exact Char.toNat_inj.mp (by omega)
  have hrepaired : p.repairName "levels" .column names true = .ok "level1" := by
    refine (hpush "level" 's' '1' rfl rfl (by decide) hplain hfree).mpr
      ⟨by decide +kernel, by decide +kernel, fun d hd hlt => ?_⟩
    rw [hzero d hd hlt]
    decide +kernel
  obtain ⟨hends, hchanged⟩ := hdigit _ _ _ hplain hrepaired hreserved
  refine ⟨happly, hplain, hfree, hrepaired, hreserved, hends, ?_, ?_⟩
  · exact hchanged.imp_right (·.2)
  · exact (hwords .generic o happly _ hreserved hends).resolve_left (by simp)

-- The vendor reserves a word for embedded programs and the same word with a digit.
theorem isReserved_of_repairName_embedded
    : let p := Vendor.db2.profile
      p.delimitedBody? "END-EXEC" = none
      ∧ p.repairName "END-EXEC" .column (NameSet.ofList ["END-EXEC0"]) true = .ok "END-EXEC1"
      ∧ p.isReserved "END-EXEC1" = true := by
  intro p
  have hplain : p.delimitedBody? "END-EXEC" = none := by decide +kernel
  have hword : p.isReserved "END-EXEC" = true :=
    Vendor.isReserved_iff.mpr (.inr (by decide +kernel))
  have hfit : p.fit "END-EXEC" (p.maxNameLength .column) = "END-EXEC0" := by
    have hshort : shorten "END-EXEC" (p.maxNameLength .column) = "END-EXEC" := by decide +kernel
    rw [fit, hshort, hword, if_pos rfl]
    decide +kernel
  refine ⟨hplain, ?_, Vendor.isReserved_iff.mpr (.inl (by decide +kernel))⟩
  rw [repairName_of_plain hplain, hfit]
  decide +kernel

end Profile

end SqlDialect
