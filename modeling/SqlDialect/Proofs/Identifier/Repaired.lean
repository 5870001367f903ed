import SqlDialect.Proofs.Identifier.Numbering

/-!
This module contains which names a repair leaves as they are. A name that fits, is not reserved and
is free is not changed, whether it is delimited or not, so that a second repair has nothing left to
do.
-/

namespace SqlDialect

namespace Identifier

theorem shorten_of_length_le {name : String} {target : Nat} (h : name.length ≤ target)
    : shorten name target = name := by
  rw [shorten, shortenChars, String.length_toList, Nat.sub_eq_zero_of_le h, shrinkBy,
    String.ofList_toList]

theorem makeUnique_of_free {taken : String → Bool} {name : String} (h : taken name = false)
    : makeUnique taken name = .ok name :=
  makeUnique_eq_ok_iff.mpr (.inl ⟨h, rfl⟩)

end Identifier

namespace Profile

open Identifier

variable {p : Profile} {name repaired : String} {kind : NameKind} {names : NameSet} {unique : Bool}

theorem eq_delimit_of_delimitedBody? {body : String} (h : p.delimitedBody? name = some body)
    : name = p.delimit body := by
  unfold delimitedBody? at h
  split at h
  · cases h
  · next c cs hname =>
    split at h
    · next hdelimited =>
      obtain ⟨rfl, hlast, _⟩ := hdelimited
      cases h
      apply String.toList_inj.mp
      rw [hname]
      simp [delimit, List.dropLast_append_getLast? _ hlast]
    · cases h

theorem fit_of_length_le {max : Nat} (hlength : name.length ≤ max)
    (hreserved : p.isReserved name = false) : p.fit name max = name := by
  simp [fit, shorten_of_length_le hlength, hreserved]

/-! ## What a repair gives -/

theorem length_delimitLike_le {s : String} (hlimit : 2 ≤ p.maxNameLength kind)
    (hs : s.length = (p.fittedCore name kind).length)
    : (p.delimitLike name s).length ≤ p.maxNameLength kind := by
  unfold fittedCore at hs
  unfold delimitLike
  split at hs
  · next body hbody =>
    rw [hbody, Option.isSome_some, if_pos rfl, length_delimit, hs, length_shorten]
    omega
  · next hplain =>
    rw [hplain, Option.isSome_none, if_neg (by decide), hs]
    exact p.length_fit_le name (by omega)

theorem fits_of_repairName (hlimit : 2 ≤ p.maxNameLength kind)
    (h : p.repairName name kind names unique = .ok repaired)
    : repaired.length ≤ p.maxNameLength kind
        ∧ (unique = true → names.contains repaired = false) := by
  rw [repairName_eq] at h
  obtain ⟨s, hs, rfl⟩ := Compile.map_eq_ok_iff.mp h
  cases unique with
  | true =>
    rw [if_pos rfl] at hs
    obtain ⟨hfree, hlength⟩ := makeUnique_eq_ok hs
    exact ⟨length_delimitLike_le hlimit hlength, fun _ => hfree⟩
  | false =>
    cases hs
    exact ⟨length_delimitLike_le hlimit rfl, by simp⟩

/-! ## What a repair does not change -/

theorem delimitLike_fittedCore (hlength : name.length ≤ p.maxNameLength kind)
    (hreserved : p.isReserved name = false)
    : p.delimitLike name (p.fittedCore name kind) = name := by
  unfold delimitLike fittedCore
  cases hbody : p.delimitedBody? name with
  | none => simp [fit_of_length_le hlength hreserved]
  | some body =>
    have hname := eq_delimit_of_delimitedBody? hbody
    have hshort : body.length ≤ p.maxNameLength kind - 2 := by
      rw [hname, length_delimit] at hlength
      omega
    simp [shorten_of_length_le hshort, ← hname]

theorem repairName_of_fits (hlength : name.length ≤ p.maxNameLength kind)
    (hreserved : p.isReserved name = false) (hfree : unique = true → names.contains name = false)
    : p.repairName name kind names unique = .ok name := by
  have hname := delimitLike_fittedCore hlength hreserved
  rw [repairName_eq]
  cases unique with
  | false => exact congrArg Except.ok hname
  | true =>
    have hunique : makeUnique (fun s => names.contains (p.delimitLike name s))
        (p.fittedCore name kind) = .ok (p.fittedCore name kind) := by
      apply makeUnique_of_free
      rw [hname]
      exact hfree rfl
    rw [if_pos rfl, hunique]
    exact congrArg Except.ok hname

/--
A repaired name that is not reserved needs no other repair. If a name is not reserved, it comes back
as it is exactly if it fits and, where this is asked for, is free.
-/
theorem repairName_idempotent (p : Profile) (name : String) (kind : NameKind) (names : NameSet)
    (unique : Bool) (hlimit : 2 ≤ p.maxNameLength kind)
    : (∀ repaired, p.repairName name kind names unique = .ok repaired →
        p.isReserved repaired = false →
        p.repairName repaired kind names unique = .ok repaired)
      ∧ (p.isReserved name = false →
        (p.repairName name kind names unique = .ok name
          ↔ name.length ≤ p.maxNameLength kind
            ∧ (unique = true → names.contains name = false))) := by
  constructor
  · intro repaired h hreserved
    obtain ⟨hlength, hfree⟩ := fits_of_repairName hlimit h
    exact repairName_of_fits hlength hreserved hfree
  · intro hreserved
    constructor
    · exact fits_of_repairName hlimit
    · rintro ⟨hlength, hfree⟩
      exact repairName_of_fits hlength hreserved hfree

-- Between delimiters a limit of two leaves nothing, and what is left is no delimited name any more.
-- With more room a reserved word gets a zero, or another digit if the name with the zero is taken.
theorem repairName_idempotent_emptied
    : let naming := { Vendor.generic.profile.naming with reservedWords := .ofList ["ORDER"] }
      let p := { Vendor.generic.profile with naming }
      let short := { Vendor.generic.profile with naming := naming.withMaxLengths 2 }
      let names := NameSet.ofList ["order0", "ID"]
      2 ≤ short.maxNameLength .table
      ∧ short.repairName "\"ab\"" .table names true = .ok "\"\""
      ∧ short.delimitedBody? "\"\"" = none
      ∧ short.isReserved "\"\"" = false
      ∧ short.repairName "\"\"" .table names true = .ok "\"\""
      ∧ 2 ≤ p.maxNameLength .column
      ∧ p.repairName "ORDER" .column names true = .ok "ORDER1"
      ∧ p.isReserved "ORDER1" = false
      ∧ p.repairName "ORDER1" .column names true = .ok "ORDER1" := by
  intro naming p short names
  have hshort : short.repairName "\"ab\"" .table names true = .ok "\"\"" := by decide +kernel
  have hemptied : short.isReserved "\"\"" = false := by decide +kernel
  have hword : p.repairName "ORDER" .column names true = .ok "ORDER1" := by decide +kernel
  have hnumbered : p.isReserved "ORDER1" = false := by decide +kernel
  exact ⟨by decide, hshort, by decide +kernel, hemptied,
    (repairName_idempotent short "\"ab\"" .table names true (by decide)).1 _ hshort hemptied,
    by decide, hword, hnumbered,
    (repairName_idempotent p "ORDER" .column names true (by decide)).1 _ hword hnumbered⟩

end Profile

end SqlDialect
