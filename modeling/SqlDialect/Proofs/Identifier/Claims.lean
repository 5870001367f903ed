import Mathlib.Data.Nat.Digits.Defs
import SqlDialect.Identifier.Repair
import SqlDialect.Profile.Default
import SqlDialect.Proofs.Compile

/-!
This module contains runs of requests for names. Whatever was requested before, the name that a
request gets fits its kind and differs from all names that are taken, and from then on it is taken
too.
-/

namespace SqlDialect

/-! ## Sets of names -/

theorem length_insertWord {w : String} {vs : List String} (h : w ∉ vs)
    : (insertWord w vs).length = vs.length + 1 := by
  induction vs with
  | nil => rfl
  | cons v vs ih =>
    rw [List.mem_cons, not_or] at h
    rw [insertWord]
    split
    · rfl
    · rw [if_neg h.1]
      simp only [List.length_cons]
      rw [ih h.2]

theorem NameSet.contains_of_eqIgnoringCase {s : NameSet} {name other : String}
    (h : Text.eqIgnoringCase name other = true) (hother : s.contains other = true)
    : s.contains name = true := by
  rw [Text.eqIgnoringCase_iff] at h
  rw [contains, h]
  exact hother

theorem NameSet.size_insert {s : NameSet} {name : String} (h : s.contains name = false)
    : (s.insert name).size = s.size + 1 := by
  apply length_insertWord
  simpa [NameSet.contains] using h

/-! ## Numbers at the end of names -/

namespace Identifier

theorem length_padded {width n : Nat} (hwidth : 0 < width) (h : n < 10 ^ width)
    : (padded width n).length = width := by
  have hdigits := Nat.toDigits_length 10 n width hwidth h
  simp only [padded, List.length_append, List.length_replicate]
  omega

theorem firstFree?_eq_some {taken : String → Bool} {stem : List Char} {width n count : Nat}
    {name : String} (h : firstFree? taken stem width n count = some name)
    : taken name = false ∧ ∃ k < n + count, name = String.ofList (stem ++ padded width k) := by
  induction count generalizing n with
  | zero => cases h
  | succ count ih =>
    rw [firstFree?] at h
    split at h
    · obtain ⟨hfree, k, hk, hname⟩ := ih h
      exact ⟨hfree, k, by omega, hname⟩
    · next hfree =>
      cases h
      exact ⟨by simpa using hfree, n, by omega, rfl⟩

theorem makeUnique_eq_ok {taken : String → Bool} {name unique : String}
    (h : makeUnique taken name = .ok unique)
    : taken unique = false ∧ unique.length = name.length := by
  unfold makeUnique at h
  split at h
  · dsimp only at h
    split at h
    · next candidate hfound =>
      cases h
      obtain ⟨width, hwidth, hfree⟩ := List.exists_of_findSome?_eq_some hfound
      rw [List.mem_range'_1] at hwidth
      obtain ⟨hunique, k, hk, rfl⟩ := firstFree?_eq_some hfree
      -- The number is as wide as what it takes the place of.
      have hpadded : (padded width k).length = width :=
        length_padded (by omega) (by simpa using hk)
      refine ⟨hunique, ?_⟩
      simp only [String.length_ofList, List.length_append, List.length_take, hpadded,
        String.length_toList] at hwidth ⊢
      omega
    · cases h
  · next hfree =>
    cases h
    exact ⟨by simpa using hfree, rfl⟩

theorem length_shorten (name : String) (target : Nat)
    : (shorten name target).length = min name.length target := by
  rw [shorten, String.length_ofList, length_shortenChars, String.length_toList]

end Identifier

/-! ## Repaired names -/

namespace Profile

open Identifier

theorem length_fit_le (p : Profile) (name : String) {max : Nat} (hmax : 1 ≤ max)
    : (p.fit name max).length ≤ max := by
  unfold fit
  dsimp only
  split
  · rw [String.length_append, length_shorten, length_shorten]
    have hzero : "0".length = 1 := rfl
    omega
  · rw [length_shorten]
    omega

theorem length_delimit (p : Profile) (body : String)
    : (p.delimit body).length = body.length + 2 := by
  have hchar : ∀ c : Char, c.toString.length = 1 := fun _ => String.length_singleton
  simp only [delimit, String.length_append, hchar]
  omega

theorem delimitedBody?_delimit (p : Profile) {body : String} (h : body ≠ "")
    : p.delimitedBody? (p.delimit body) = some body := by
  have hlength : 0 < body.toList.length := by
    rw [List.length_pos_iff]
    simpa using h
  have htoList : (p.delimit body).toList
      = p.naming.quoteStyle.opening :: (body.toList ++ [p.naming.quoteStyle.closing]) := by
    simp [delimit]
  rw [delimitedBody?, htoList]
  simp [hlength]

theorem repairName_eq_ok {p : Profile} {name repaired : String} {kind : NameKind} {names : NameSet}
    (h : p.repairName name kind names true = .ok repaired)
    : names.contains repaired = false
        ∧ (2 ≤ p.maxNameLength kind → repaired.length ≤ p.maxNameLength kind)
        ∧ ((p.delimitedBody? name).isSome → ∃ body, repaired = p.delimit body) := by
  unfold repairName at h
  dsimp only at h
  split at h
  · simp only [if_true] at h
    obtain ⟨body, hbody, h⟩ := Compile.bind_eq_ok_iff.mp h
    cases h
    obtain ⟨hfree, hlength⟩ := makeUnique_eq_ok hbody
    refine ⟨hfree, ?_, fun _ => ⟨body, rfl⟩⟩
    intro hmax
    rw [length_delimit, hlength, length_shorten]
    omega
  · next hplain =>
    obtain ⟨hfree, hlength⟩ := makeUnique_eq_ok h
    refine ⟨hfree, ?_, by simp [hplain]⟩
    intro hmax
    rw [hlength]
    exact p.length_fit_le name (by omega)

theorem claimName_eq_ok_iff {p : Profile} {name claimed : String} {kind : NameKind}
    {names names' : NameSet}
    : p.claimName name kind names = .ok (claimed, names')
        ↔ p.repairName name kind names true = .ok claimed ∧ names' = names.insert claimed := by
  unfold claimName
  rw [Compile.bind_eq_ok_iff]
  constructor
  · rintro ⟨_, hrepair, h⟩
    cases h
    exact ⟨hrepair, rfl⟩
  · rintro ⟨hrepair, rfl⟩
    exact ⟨claimed, hrepair, rfl⟩

end Profile

/-! ## Runs -/

structure NameRequest where
  name : String
  kind : NameKind

namespace Profile

def namesAfter (p : Profile) (names : NameSet) (r : NameRequest) : NameSet :=
  match p.claimName r.name r.kind names with
  | .ok (_, names) => names
  | .error _ => names

def namesAfterAll (p : Profile) (names : NameSet) (requests : List NameRequest) : NameSet :=
  requests.foldl p.namesAfter names

def claimedNames (p : Profile) (names : NameSet) : List NameRequest → List String
  | [] => []
  | r :: requests =>
    match p.claimName r.name r.kind names with
    | .ok (name, names) => name :: claimedNames p names requests
    | .error _ => claimedNames p names requests

theorem contains_namesAfterAll_iff (p : Profile) (names : NameSet) (requests : List NameRequest)
    (other : String)
    : (p.namesAfterAll names requests).contains other = true
        ↔ names.contains other = true
          ∨ ∃ name ∈ p.claimedNames names requests, Text.eqIgnoringCase other name = true := by
  induction requests generalizing names with
  | nil => simp [namesAfterAll, claimedNames]
  | cons r requests ih =>
    have hstep : p.namesAfterAll names (r :: requests)
        = p.namesAfterAll (p.namesAfter names r) requests := rfl
    rw [hstep, ih, namesAfter, claimedNames]
    cases hclaim : p.claimName r.name r.kind names with
    | error e => rfl
    | ok result =>
      obtain ⟨name, names'⟩ := result
      obtain ⟨_, rfl⟩ := claimName_eq_ok_iff.mp hclaim
      simp only [NameSet.contains_insert_iff, List.exists_mem_cons_iff]
      rw [or_assoc, or_left_comm]

/--
A name that a request gets fits its kind and differs from the names that were taken at first and
from those that earlier requests got. It is the only name that is taken in addition, and a request
that fails takes none. A delimited name stays one.
-/
theorem claimName_of_run (p : Profile) (names : NameSet) (earlier : List NameRequest)
    (r : NameRequest) (hlimit : 2 ≤ p.maxNameLength r.kind)
    : let taken := p.namesAfterAll names earlier
      (∀ name taken', p.claimName r.name r.kind taken = .ok (name, taken') →
        name.length ≤ p.maxNameLength r.kind
        ∧ (∀ other, names.contains other = true → Text.eqIgnoringCase name other = false)
        ∧ (∀ other ∈ p.claimedNames names earlier, Text.eqIgnoringCase name other = false)
        ∧ p.namesAfter taken r = taken'
        ∧ taken'.size = taken.size + 1
        ∧ (∀ other, taken'.contains other = true
            ↔ Text.eqIgnoringCase other name = true ∨ taken.contains other = true)
        ∧ (∀ body, body ≠ "" → r.name = p.delimit body → ∃ body', name = p.delimit body'))
      ∧ ∀ e, p.claimName r.name r.kind taken = .error e → p.namesAfter taken r = taken := by
  intro taken
  refine ⟨?_, fun e h => by rw [namesAfter, h]⟩
  intro name taken' h
  have hafter : p.namesAfter taken r = taken' := by rw [namesAfter, h]
  obtain ⟨hrepair, rfl⟩ := claimName_eq_ok_iff.mp h
  obtain ⟨hfree, hlength, hdelimited⟩ := repairName_eq_ok hrepair
  have hnew : ¬ taken.contains name = true := by simp [hfree]
  rw [contains_namesAfterAll_iff, not_or] at hnew
  refine ⟨hlength hlimit, ?_, ?_, hafter, NameSet.size_insert hfree, ?_, ?_⟩
  · intro other hother
    rw [Bool.eq_false_iff]
    intro heq
    exact hnew.1 (NameSet.contains_of_eqIgnoringCase heq hother)
  · intro other hother
    rw [Bool.eq_false_iff]
    intro heq
    exact hnew.2 ⟨other, hother, heq⟩
  · intro other
    rw [NameSet.contains_insert_iff]
  · intro body hbody hname
    apply hdelimited
    rw [hname, p.delimitedBody?_delimit hbody]
    rfl

-- A reserved word loses a vowel to make room for a zero, and takes another number when it comes
-- again in other letters. A delimited name has room for three characters, of which it gives up the
-- last one.
theorem claimName_of_run_repeated
    : let naming := Vendor.generic.profile.naming.withMaxLengths 5
      let p := { Vendor.generic.profile with
        naming := { naming with reservedWords := .ofList ["ORDER"] } }
      let names := NameSet.ofList ["\"IDY\""]
      let earlier : List NameRequest :=
        [⟨"ORDER", .column⟩, ⟨"order", .column⟩, ⟨"\"Identity\"", .column⟩]
      let r : NameRequest := ⟨"\"Identity\"", .column⟩
      p.claimedNames names earlier = ["ORDR0", "ordr1", "\"Id0\""]
        ∧ 2 ≤ p.maxNameLength r.kind ∧ r.name = p.delimit "Identity"
        ∧ ∃ taken,
          p.claimName r.name r.kind (p.namesAfterAll names earlier) = .ok ("\"Id1\"", taken)
          ∧ "\"Id1\"".length ≤ p.maxNameLength r.kind
          ∧ (∀ other, names.contains other = true → Text.eqIgnoringCase "\"Id1\"" other = false)
          ∧ (∀ other ∈ p.claimedNames names earlier, Text.eqIgnoringCase "\"Id1\"" other = false)
          ∧ ∃ body, "\"Id1\"" = p.delimit body := by
  intro naming p names earlier r
  have hclaim := claimName_eq_ok_iff.mpr ⟨(by decide +kernel :
    p.repairName r.name r.kind (p.namesAfterAll names earlier) true = .ok "\"Id1\""), rfl⟩
  have hlimit : 2 ≤ p.maxNameLength r.kind := by decide
  have hname : r.name = p.delimit "Identity" := by decide
  obtain ⟨hlength, hinitial, hearlier, -, -, -, hdelimited⟩ :=
    (claimName_of_run p names earlier r hlimit).1 _ _ hclaim
  exact ⟨by decide +kernel, hlimit, hname, _, hclaim, hlength, hinitial, hearlier,
    hdelimited "Identity" (by decide) hname⟩

end Profile

end SqlDialect
