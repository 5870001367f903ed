import Mathlib.Data.List.TakeDrop
import SqlDialect.Proofs.Text.Search
import SqlDialect.Server.Protocol

/-!
This module contains which part of a URL is its protocol: the longest part in front that ends with a
colon, has at most three colons, and has none of the characters that a protocol does not contain.
-/

namespace SqlDialect
namespace Protocol

variable {n : Nat} {cs pre part : List Char}

/-! ## Cuts -/

structure IsCut (n : Nat) (cs pre : List Char) : Prop where
  isPrefix : pre <+: cs
  ends : ∀ c ∈ pre.getLast?, c = ':'
  colons : pre.count ':' ≤ n
  noStop : ∀ c ∈ pre, isStop c = false

def isInner (c : Char) : Bool := c != ':' && !isStop c

theorem isInner_iff {c : Char} : isInner c = true ↔ c ≠ ':' ∧ isStop c = false := by
  simp [isInner]

theorem IsCut.nil (n : Nat) (cs : List Char) : IsCut n cs [] where
  isPrefix := cs.nil_prefix
  ends := by simp
  colons := by simp
  noStop := by simp

theorem IsCut.append (hpart : ∀ c ∈ part, isInner c) (h : IsCut n cs pre)
    : IsCut (n + 1) (part ++ ':' :: cs) (part ++ ':' :: pre) where
  isPrefix := by simpa using h.isPrefix
  ends := by
    cases pre with
    | nil => simp
    | cons c pre => simpa using h.ends
  colons := by
    have hnone : part.count ':' = 0 := by
      apply List.count_eq_zero.mpr
      intro hmem
      exact (isInner_iff.mp (hpart _ hmem)).1 rfl
    have hcolons := h.colons
    simp only [List.count_append, List.count_cons_self]
    omega
  noStop := by
    intro c hc
    simp only [List.mem_append, List.mem_cons] at hc
    rcases hc with hc | rfl | hc
    · exact (isInner_iff.mp (hpart c hc)).2
    · rfl
    · exact h.noStop c hc

theorem IsCut.colon_mem (h : IsCut n cs pre) (hne : pre ≠ []) : ':' ∈ pre := by
  have hlast := List.getLast?_eq_some_getLast hne
  rw [h.ends _ hlast] at hlast
  exact List.mem_of_getLast? hlast

-- A cut that is not empty goes to its first colon, and what follows is a cut of what follows there.
theorem IsCut.exists_part (h : IsCut n cs pre) (hne : pre ≠ [])
    : ∃ m part tail rest, n = m + 1 ∧ cs = part ++ ':' :: tail ∧ pre = part ++ ':' :: rest
        ∧ (∀ c ∈ part, isInner c) ∧ IsCut m tail rest := by
  obtain ⟨part, rest, rfl, hfirst⟩ := List.eq_append_cons_of_mem (h.colon_mem hne)
  obtain ⟨t, rfl⟩ := h.isPrefix
  have hcolons := h.colons
  simp only [List.count_append, List.count_cons_self] at hcolons
  obtain ⟨m, rfl⟩ : ∃ m, n = m + 1 := ⟨n - 1, by omega⟩
  refine ⟨m, part, rest ++ t, rest, rfl, by simp, rfl, ?_, ?_⟩
  · intro c hc
    apply isInner_iff.mpr
    constructor
    · rintro rfl
      exact hfirst hc
    · apply h.noStop
      simp [hc]
  · refine ⟨List.prefix_append rest t, ?_, by omega, fun c hc => h.noStop c (by simp [hc])⟩
    intro c hc
    apply h.ends
    cases rest with
    | nil => simp at hc
    | cons d rest => simpa using hc

/-! ## Parts -/

theorem span_inner (cs : List Char)
    : cs.span (fun c => c != ':' && !isStop c) = (cs.takeWhile isInner, cs.dropWhile isInner) :=
  List.span_eq_takeWhile_dropWhile isInner cs

theorem parts_append (n : Nat) (hpart : ∀ c ∈ part, isInner c) (cs : List Char)
    : parts (n + 1) (part ++ ':' :: cs) = part ++ ':' :: parts n cs := by
  have hnext : ∀ c ∈ (':' :: cs).head?, isInner c = false := by simp [isInner]
  simp only [parts, span_inner, Text.takeWhile_append hpart hnext,
    Text.dropWhile_append hpart hnext]

theorem parts_eq_nil_or (n : Nat) (cs : List Char)
    : parts (n + 1) cs = []
        ∨ ∃ part rest, cs = part ++ ':' :: rest ∧ ∀ c ∈ part, isInner c := by
  simp only [parts, span_inner]
  split
  · next part rest h =>
    obtain ⟨rfl, hrest⟩ := Prod.mk.inj h
    refine .inr ⟨cs.takeWhile isInner, rest, ?_, fun c hc => List.mem_takeWhile_imp hc⟩
    rw [← hrest, List.takeWhile_append_dropWhile]
  · exact .inl rfl

theorem isCut_parts (n : Nat) (cs : List Char) : IsCut n cs (parts n cs) := by
  induction n generalizing cs with
  | zero => exact .nil 0 cs
  | succ n ih =>
    rcases parts_eq_nil_or n cs with hnil | ⟨part, rest, rfl, hpart⟩
    · rw [hnil]
      exact .nil _ cs
    · rw [parts_append n hpart]
      exact (ih rest).append hpart

theorem IsCut.isPrefix_parts (h : IsCut n cs pre) : pre <+: parts n cs := by
  induction n generalizing cs pre with
  | zero =>
    by_cases hne : pre = []
    · simp [hne]
    · obtain ⟨m, _, _, _, hm, _⟩ := h.exists_part hne
      omega
  | succ n ih =>
    by_cases hne : pre = []
    · simp [hne]
    · obtain ⟨m, part, tail, rest, hm, rfl, rfl, hpart, hrest⟩ := h.exists_part hne
      obtain rfl : n = m := by omega
      rw [parts_append n hpart]
      simpa using ih hrest

/-! ## Protocols -/

/--
What the protocol of a URL has to be: it stands in front and ends with a colon, and it has at most
three colons and none of the characters that set off what follows a protocol.
-/
structure IsCandidate (url protocol : String) : Prop where
  isPrefix : protocol.toList <+: url.toList
  ends : protocol.toList.getLast? = some ':'
  colons : protocol.toList.count ':' ≤ 3
  noAt : '@' ∉ protocol.toList
  noSlash : '/' ∉ protocol.toList
  noBackslash : '\\' ∉ protocol.toList

variable {url protocol : String}

theorem isCandidate_iff
    : IsCandidate url protocol ↔ IsCut 3 url.toList protocol.toList ∧ protocol.toList ≠ [] := by
  have hstop : ∀ c, isStop c = false ↔ c ≠ '@' ∧ c ≠ '/' ∧ c ≠ '\\' := by
    intro c
    simp [isStop, and_assoc]
  constructor
  · intro h
    constructor
    · refine ⟨h.isPrefix, by simp [h.ends], h.colons, fun c hc => (hstop c).mpr ?_⟩
      refine ⟨?_, ?_, ?_⟩
      · rintro rfl
        exact h.noAt hc
      · rintro rfl
        exact h.noSlash hc
      · rintro rfl
        exact h.noBackslash hc
    · intro hnil
      simpa [hnil] using h.ends
  · rintro ⟨h, hne⟩
    have hlast := List.getLast?_eq_some_getLast hne
    refine ⟨h.isPrefix, ?_, h.colons, ?_, ?_, ?_⟩
    · rw [hlast, h.ends _ hlast]
    · intro hmem
      exact ((hstop _).mp (h.noStop _ hmem)).1 rfl
    · intro hmem
      exact ((hstop _).mp (h.noStop _ hmem)).2.1 rfl
    · intro hmem
      exact ((hstop _).mp (h.noStop _ hmem)).2.2 rfl

theorem ofUrl?_eq_some_iff
    : ofUrl? url = some protocol
        ↔ "jdbc:".toList <+: url.toList ∧ protocol.toList = parts 3 url.toList := by
  have hjdbc : ∀ c ∈ "jdbc".toList, isInner c := List.all_eq_true.mp (by decide)
  have hparts : ∀ rest, parts 3 ("jdbc:".toList ++ rest) = "jdbc:".toList ++ parts 2 rest :=
    parts_append 2 hjdbc
  unfold ofUrl?
  cases hafter : Text.after? "jdbc:".toList url.toList with
  | none =>
    simp only [Option.bind_eq_bind, Option.bind_none, reduceCtorEq, false_iff]
    rintro ⟨⟨rest, hrest⟩, _⟩
    rw [Text.after?_eq_some_iff.mpr hrest.symm] at hafter
    cases hafter
  | some rest =>
    have hurl := Text.after?_eq_some_iff.mp hafter
    rw [hurl, hparts]
    simp [String.ext_iff, eq_comm]

theorem IsCandidate.isPrefix_of_ofUrl? {other : String} (hother : IsCandidate url other)
    (h : ofUrl? url = some protocol) : other.toList <+: protocol.toList := by
  rw [(ofUrl?_eq_some_iff.mp h).2]
  exact (isCandidate_iff.mp hother).1.isPrefix_parts

theorem isCandidate_of_ofUrl? (h : ofUrl? url = some protocol) : IsCandidate url protocol := by
  obtain ⟨hjdbc, hparts⟩ := ofUrl?_eq_some_iff.mp h
  have hshortest : IsCandidate url "jdbc:" := by
    refine ⟨hjdbc, ?_, ?_, ?_, ?_, ?_⟩ <;> decide
  have hfront := hshortest.isPrefix_of_ofUrl? h
  apply isCandidate_iff.mpr
  constructor
  · rw [hparts]
    exact isCut_parts 3 url.toList
  · intro hnil
    simp [hnil] at hfront

/--
A URL has a protocol if and only if it starts with `jdbc:`, and then its protocol is the longest of
all candidates.
-/
theorem ofUrl?_longest (url : String)
    : (ofUrl? url = none ↔ ¬ "jdbc:".toList <+: url.toList)
        ∧ ∀ protocol, ofUrl? url = some protocol
            ↔ "jdbc:".toList <+: url.toList ∧ IsCandidate url protocol
              ∧ ∀ other, IsCandidate url other → other.length ≤ protocol.length := by
  have hsome : "jdbc:".toList <+: url.toList →
      ofUrl? url = some (String.ofList (parts 3 url.toList)) :=
    fun hjdbc => ofUrl?_eq_some_iff.mpr ⟨hjdbc, String.toList_ofList⟩
  constructor
  · constructor
    · intro hnone hjdbc
      rw [hsome hjdbc] at hnone
      cases hnone
    · intro hjdbc
      cases h : ofUrl? url with
      | none => rfl
      | some protocol => exact absurd (ofUrl?_eq_some_iff.mp h).1 hjdbc
  · intro protocol
    constructor
    · intro h
      refine ⟨(ofUrl?_eq_some_iff.mp h).1, isCandidate_of_ofUrl? h, ?_⟩
      intro other hother
      rw [← String.length_toList, ← String.length_toList]
      exact (hother.isPrefix_of_ofUrl? h).length_le
    · rintro ⟨hjdbc, hcandidate, hmax⟩
      -- Two candidates of the same length are the same.
      have hle := hmax _ (isCandidate_of_ofUrl? (hsome hjdbc))
      rw [← String.length_toList, ← String.length_toList] at hle
      have hfront := hcandidate.isPrefix_of_ofUrl? (hsome hjdbc)
      rw [hsome hjdbc, Option.some_inj, String.ext_iff]
      exact (hfront.eq_of_length_le hle).symm

example : ofUrl? "jdbc:oracle:thin:@db:1521:orcl" = some "jdbc:oracle:thin:" := by decide

end Protocol
end SqlDialect
