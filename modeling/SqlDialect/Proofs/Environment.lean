import SqlDialect.Environment
import SqlDialect.Proofs.Compile
import SqlDialect.Proofs.Text.Search

/-!
This module contains how a text with references to variables is expanded. The rules by which it is
divided into pieces leave no choice and do not look at the environment, so nothing that stands in
the value of a variable is taken for a reference.
-/

namespace SqlDialect
namespace Reference

variable {c : Char} {name cs : List Char} {ps : List Piece}

/-! ## Pieces -/

/--
The rules by which a text is divided. A name in braces goes up to the first closing brace or to the
end of the text, and a name without braces is as long as possible.
-/
inductive Splits : List Char → List Piece → Prop where
  | nil : Splits [] []
  | char {c : Char} {cs : List Char} {ps : List Piece} (hc : c ≠ '$') (rest : Splits cs ps) :
      Splits (c :: cs) (.char c :: ps)
  | dollar {cs : List Char} {ps : List Piece}
      (hnext : ∀ c ∈ cs.head?, c ≠ '\x7b' ∧ isNameChar c = false) (rest : Splits cs ps) :
      Splits ('$' :: cs) (.char '$' :: ps)
  | bare {name cs : List Char} {ps : List Piece} (hne : name ≠ [])
      (hname : ∀ c ∈ name, isNameChar c) (hnext : ∀ c ∈ cs.head?, isNameChar c = false)
      (rest : Splits cs ps) :
      Splits ('$' :: (name ++ cs)) (.variable_ (String.ofList name) :: ps)
  | braced {name cs : List Char} {ps : List Piece} (hname : '\x7d' ∉ name) (rest : Splits cs ps) :
      Splits ('$' :: '\x7b' :: (name ++ '\x7d' :: cs)) (.variable_ (String.ofList name) :: ps)
  | unclosed {name : List Char} (hname : '\x7d' ∉ name) :
      Splits ('$' :: '\x7b' :: name) [.variable_ (String.ofList name)]

theorem pieces_char (hc : c ≠ '$') (cs : List Char)
    : pieces (c :: cs) = .char c :: pieces cs := by
  rw [pieces]
  · exact fun _ h _ => hc h
  · exact fun h => hc h

-- A dollar sign before a brace is another case.
theorem pieces_dollar (h : ∀ c ∈ cs.head?, c ≠ '\x7b')
    : pieces ('$' :: cs)
        =
      if (cs.takeWhile isNameChar).isEmpty then
        .char '$' :: pieces cs
      else
        .variable_ (String.ofList (cs.takeWhile isNameChar))
          :: pieces (cs.dropWhile isNameChar) := by
  rw [pieces]
  rintro rest rfl
  exact h '\x7b' rfl rfl

theorem pieces_lone (hnext : ∀ c ∈ cs.head?, c ≠ '\x7b' ∧ isNameChar c = false)
    : pieces ('$' :: cs) = .char '$' :: pieces cs := by
  have hempty : ([] ++ cs).takeWhile isNameChar = [] := by
    apply Text.takeWhile_append
    · simp
    · exact fun c hc => (hnext c hc).2
  rw [List.nil_append] at hempty
  rw [pieces_dollar fun c hc => (hnext c hc).1, hempty]
  rfl

theorem pieces_bare (hne : name ≠ []) (hname : ∀ c ∈ name, isNameChar c)
    (hnext : ∀ c ∈ cs.head?, isNameChar c = false)
    : pieces ('$' :: (name ++ cs)) = .variable_ (String.ofList name) :: pieces cs := by
  have hbrace : ∀ c ∈ (name ++ cs).head?, c ≠ '\x7b' := by
    have hdiffers : isNameChar '\x7b' = false := by decide +kernel
    intro c hc
    rw [List.head?_append_of_ne_nil _ hne] at hc
    rintro rfl
    rw [hname _ (List.mem_of_head? hc)] at hdiffers
    cases hdiffers
  rw [pieces_dollar hbrace, Text.takeWhile_append hname hnext, Text.dropWhile_append hname hnext]
  simp [hne]

theorem ne_brace_of_mem (hname : '\x7d' ∉ name) : ∀ c ∈ name, decide (c ≠ '\x7d') = true := by
  intro c hc
  rw [decide_eq_true_eq]
  rintro rfl
  exact hname hc

theorem pieces_braced (hname : '\x7d' ∉ name) (cs : List Char)
    : pieces ('$' :: '\x7b' :: (name ++ '\x7d' :: cs))
        =
      .variable_ (String.ofList name) :: pieces cs := by
  have hinner := ne_brace_of_mem hname
  rw [pieces, Text.takeWhile_append hinner (by simp), Text.dropWhile_append hinner (by simp)]
  simp

theorem pieces_unclosed (hname : '\x7d' ∉ name)
    : pieces ('$' :: '\x7b' :: name) = [.variable_ (String.ofList name)] := by
  have hinner := ne_brace_of_mem hname
  rw [pieces, List.takeWhile_eq_self_iff.mpr hinner, List.dropWhile_eq_nil_iff.mpr hinner]
  simp [pieces]

theorem Splits.eq_pieces (h : Splits cs ps) : ps = pieces cs := by
  induction h with
  | nil => simp [pieces]
  | char hc rest ih => rw [pieces_char hc, ← ih]
  | dollar hnext rest ih => rw [pieces_lone hnext, ← ih]
  | bare hne hname hnext rest ih => rw [pieces_bare hne hname hnext, ← ih]
  | braced hname rest ih => rw [pieces_braced hname, ← ih]
  | unclosed hname => rw [pieces_unclosed hname]

theorem splits_pieces (cs : List Char) : Splits cs (pieces cs) := by
  fun_induction pieces cs with
  | case1 => exact .nil
  | case2 cs ih =>
    by_cases hclosed : '\x7d' ∈ cs
    · obtain ⟨name, rest, rfl, hname⟩ := List.eq_append_cons_of_mem hclosed
      have hinner := ne_brace_of_mem hname
      rw [Text.takeWhile_append hinner (by simp)]
      rw [Text.dropWhile_append hinner (by simp)] at ih ⊢
      exact .braced hname ih
    · have hinner := ne_brace_of_mem hclosed
      rw [List.takeWhile_eq_self_iff.mpr hinner, List.dropWhile_eq_nil_iff.mpr hinner]
      simp only [List.drop_nil, pieces]
      exact .unclosed hclosed
  | case3 cs hbrace hempty ih =>
    refine .dollar ?_ ih
    cases cs with
    | nil => simp
    | cons c cs =>
      intro d hd
      obtain rfl : c = d := by simpa using hd
      constructor
      · rintro rfl
        exact hbrace cs rfl
      · cases hc : isNameChar c with
        | false => rfl
        | true => simp [hc] at hempty
  | case4 cs hbrace hne ih =>
    have hbare := Splits.bare (by simpa using hne) (fun c hc => List.mem_takeWhile_imp hc)
      (Text.head?_dropWhile isNameChar cs) ih
    rwa [List.takeWhile_append_dropWhile] at hbare
  | case5 c cs hbraces hdollar ih => exact .char hdollar ih

theorem splits_iff : Splits cs ps ↔ ps = pieces cs := by
  constructor
  · exact Splits.eq_pieces
  · rintro rfl
    exact splits_pieces cs

theorem pieces_of_notMem (h : '$' ∉ cs) : pieces cs = cs.map .char := by
  induction cs with
  | nil => simp [pieces]
  | cons c cs ih =>
    obtain ⟨hc, hcs⟩ := not_or.mp (mt List.mem_cons.mpr h)
    rw [pieces_char (Ne.symm hc), ih hcs, List.map_cons]

end Reference

/-! ## Variables -/

theorem Text.fromUTF8?_eq_some_iff {bytes : List UInt8} {s : String}
    : String.fromUTF8? bytes.toByteArray = some s ↔ bytes = utf8 s := by
  unfold utf8 String.fromUTF8?
  constructor
  · intro h
    split at h
    · cases h
      simp [String.fromUTF8]
    · cases h
  · rintro rfl
    have hbytes : s.toUTF8.data.toList.toByteArray = s.toByteArray := by
      ext1
      simp
    rw [hbytes, dif_pos s.isValidUTF8]
    rfl

namespace Environment

variable {env : Environment} {name : String}

def IsSet (env : Environment) (name : String) : Prop :=
  name ≠ "" ∧ '=' ∉ name.toList
    ∧ ∃ e ∈ env.entries, ∃ value, e.bytes = Text.utf8 (name ++ "=") ++ value

def HasNoText (env : Environment) (name : String) : Prop :=
  env.bytes? name = none ∨ ∃ bytes, env.bytes? name = some bytes ∧ ∀ t, bytes ≠ Text.utf8 t

theorem lookup?_eq_some_iff {t : String}
    : env.lookup? name = some t ↔ env.bytes? name = some (Text.utf8 t) := by
  unfold lookup?
  simp [Option.bind_eq_some_iff, Text.fromUTF8?_eq_some_iff]

theorem hasNoText_iff : env.HasNoText name ↔ env.lookup? name = none := by
  simp only [Option.eq_none_iff_forall_ne_some, ne_eq, lookup?_eq_some_iff, HasNoText]
  cases env.bytes? name with
  | none => simp
  | some bytes => simp

theorem not_hasNoText_iff : ¬ env.HasNoText name ↔ ∃ t, env.lookup? name = some t := by
  rw [hasNoText_iff, ← ne_eq, Option.ne_none_iff_exists']

theorem bytes?_eq_none_iff (hne : name ≠ "") (hname : '=' ∉ name.toList)
    : env.bytes? name = none ↔ ¬ env.IsSet name := by
  have hfalse : name.isEmpty = false := by simpa using hne
  rw [bytes?, hfalse, if_neg Bool.false_ne_true, List.findSome?_eq_none_iff]
  simp [IsSet, hne, hname, Option.eq_none_iff_forall_ne_some, Text.after?_eq_some_iff]

end Environment

/-! ## Expansion -/

namespace Reference

inductive StandsFor (env : Environment) : Piece → String → Prop where
  | char (c : Char) : StandsFor env (.char c) c.toString
  | variable_ {name value : String} (h : env.bytes? name = some (Text.utf8 value)) :
      StandsFor env (.variable_ name) value

variable {ps : List Piece} {env : Environment} {s : String}

theorem text_eq_ok_iff {piece : Piece} {t : String}
    : piece.text env = .ok t ↔ StandsFor env piece t := by
  cases piece with
  | char c =>
    constructor
    · intro h
      cases h
      exact .char c
    · intro h
      cases h
      rfl
  | variable_ name =>
    rw [Piece.text]
    constructor
    · intro h
      cases hvalue : env.lookup? name with
      | none => simp [hvalue] at h
      | some value =>
        simp only [hvalue, Except.ok.injEq] at h
        subst h
        exact .variable_ (Environment.lookup?_eq_some_iff.mp hvalue)
    · intro h
      cases h with
      | variable_ h => simp [Environment.lookup?_eq_some_iff.mpr h]

theorem text_eq_error_iff {piece : Piece} {name : String}
    : piece.text env = .error ⟨name⟩ ↔ piece = .variable_ name ∧ env.HasNoText name := by
  rw [Environment.hasNoText_iff]
  cases piece with
  | char c => simp [Piece.text]
  | variable_ other =>
    rw [Piece.text, Piece.variable_.injEq]
    cases hvalue : env.lookup? other with
    | none =>
      simp only [Except.error.injEq, UnsetVariable.mk.injEq]
      constructor
      · rintro rfl
        exact ⟨rfl, hvalue⟩
      · exact fun h => h.1
    | some value =>
      simp only [reduceCtorEq, false_iff]
      rintro ⟨rfl, hnone⟩
      rw [hvalue] at hnone
      cases hnone

theorem forall_exists_text_iff
    : (∀ piece ∈ ps, ∃ t, piece.text env = .ok t)
        ↔ ∀ name, .variable_ name ∈ ps → ¬ env.HasNoText name := by
  simp only [text_eq_ok_iff, Environment.not_hasNoText_iff, Environment.lookup?_eq_some_iff]
  constructor
  · intro h name hname
    obtain ⟨value, hvalue⟩ := h _ hname
    cases hvalue with
    | variable_ hvalue => exact ⟨value, hvalue⟩
  · intro h piece hpiece
    cases piece with
    | char c => exact ⟨_, .char c⟩
    | variable_ name =>
      obtain ⟨value, hvalue⟩ := h name hpiece
      exact ⟨value, .variable_ hvalue⟩

theorem expand_eq_ok_iff {t : String}
    : expand env s = .ok t
        ↔ ∃ values, List.Forall₂ (StandsFor env) (pieces s.toList) values
            ∧ String.join values = t := by
  simp only [expand, Compile.bind_eq_ok_iff, Compile.mapM_eq_ok_iff, Compile.pure_eq_ok,
    text_eq_ok_iff, Except.ok.injEq]

theorem expand_eq_error_iff {name : String}
    : expand env s = .error ⟨name⟩
        ↔ ∃ before after, pieces s.toList = before ++ .variable_ name :: after
            ∧ env.HasNoText name
            ∧ ∀ other, .variable_ other ∈ before → ¬ env.HasNoText other := by
  have hmap : expand env s = .error ⟨name⟩
      ↔ (pieces s.toList).mapM (Piece.text env) = .error ⟨name⟩ := by
    unfold expand
    cases (pieces s.toList).mapM (Piece.text env) <;> simp
  rw [hmap, Compile.mapM_eq_error_iff]
  simp only [text_eq_error_iff, forall_exists_text_iff]
  constructor
  · rintro ⟨before, _, after, hpieces, hset, rfl, hnone⟩
    exact ⟨before, after, hpieces, hnone, hset⟩
  · rintro ⟨before, after, hpieces, hnone, hset⟩
    exact ⟨before, _, after, hpieces, hset, rfl, hnone⟩

theorem exists_expand_iff
    : (∃ t, expand env s = .ok t)
        ↔ ∀ name, .variable_ name ∈ pieces s.toList → ¬ env.HasNoText name := by
  rw [← forall_exists_text_iff, ← Compile.exists_mapM_eq_ok_iff]
  simp only [expand, Compile.bind_eq_ok_iff, Compile.pure_eq_ok, Except.ok.injEq]
  constructor
  · rintro ⟨_, values, hvalues, _⟩
    exact ⟨values, hvalues⟩
  · rintro ⟨values, hvalues⟩
    exact ⟨_, values, hvalues, rfl⟩

theorem expand_of_notMem (env : Environment) (h : '$' ∉ s.toList) : expand env s = .ok s := by
  apply expand_eq_ok_iff.mpr
  refine ⟨s.toList.map Char.toString, ?_, ?_⟩
  · rw [pieces_of_notMem h, List.forall₂_map_left_iff, List.forall₂_map_right_iff]
    apply List.forall₂_same.mpr
    exact fun c _ => .char c
  · rw [String.ext_iff, String.toList_join, List.flatMap_map]
    simp [Char.toString]

/--
There is one way to divide a text into pieces, whatever the environment is. The text cannot be
expanded if and only if it refers to a variable without a text, and then the first such reference is
named. Otherwise all references are replaced by the values of the variables, which are taken as they
are. A text without dollar signs stays the same.
-/
theorem expand_substitutes (s : String)
    : ∃ ps, (∀ qs, Splits s.toList qs ↔ qs = ps)
        ∧ (∀ env, (∃ e, expand env s = .error e)
            ↔ ∃ name, .variable_ name ∈ ps ∧ env.HasNoText name)
        ∧ (∀ env name, expand env s = .error ⟨name⟩
            ↔ ∃ before after, ps = before ++ .variable_ name :: after ∧ env.HasNoText name
                ∧ ∀ other, .variable_ other ∈ before → ¬ env.HasNoText other)
        ∧ (∀ (env : Environment) name, name ≠ "" → '=' ∉ name.toList →
            (env.bytes? name = none ↔ ¬ env.IsSet name))
        ∧ (∀ env t, expand env s = .ok t
            ↔ ∃ values, List.Forall₂ (StandsFor env) ps values ∧ String.join values = t)
        ∧ ('$' ∉ s.toList → ∀ env, expand env s = .ok s) := by
  refine ⟨pieces s.toList, fun qs => splits_iff, ?_, ?_, ?_, ?_, ?_⟩
  · intro env
    have herror : (∃ e, expand env s = .error e) ↔ ¬ ∃ t, expand env s = .ok t := by
      cases expand env s <;> simp
    rw [herror, exists_expand_iff]
    simp only [not_forall, not_not, exists_prop]
  · exact fun env name => expand_eq_error_iff
  · exact fun env name => Environment.bytes?_eq_none_iff
  · exact fun env t => expand_eq_ok_iff
  · exact fun h env => expand_of_notMem env h

-- The value of the first variable looks like a reference to the second one, whose name is cut off
-- by the end of the text.
theorem expand_substitutes_adjacent
    : let s := "$$A_$\x7bB c"
      let env : Environment := ⟨[("A_", "$\x7bB c\x7d"), ("B c", "x$")]⟩
      Splits s.toList [.char '$', .variable_ "A_", .variable_ "B c"]
        ∧ expand env s = .ok "$$\x7bB c\x7dx$"
        ∧ expand ⟨[("A", "a")]⟩ s = .error ⟨"A_"⟩
        ∧ expand ⟨[]⟩ "a_b" = .ok "a_b" := by
  intro s env
  have hsplits : Splits s.toList [.char '$', .variable_ "A_", .variable_ "B c"] :=
    splits_iff.mpr (by decide +kernel)
  obtain ⟨ps, hps, _, herror, _, hok, _⟩ := expand_substitutes s
  obtain rfl := (hps _).mp hsplits
  refine ⟨hsplits, (hok _ _).mpr ?_, (herror _ _).mpr ?_, ?_⟩
  · refine ⟨["$", "$\x7bB c\x7d", "x$"], ?_, by decide⟩
    have hfirst : env.bytes? "A_" = some (Text.utf8 "$\x7bB c\x7d") := by decide +kernel
    have hsecond : env.bytes? "B c" = some (Text.utf8 "x$") := by decide +kernel
    exact .cons (.char '$') (.cons (.variable_ hfirst) (.cons (.variable_ hsecond) .nil))
  · exact ⟨[.char '$'], [.variable_ "B c"], rfl, .inl (by decide +kernel), by simp⟩
  · obtain ⟨_, _, _, _, _, _, hplain⟩ := expand_substitutes "a_b"
    exact hplain (by decide) ⟨[]⟩

-- A name with an equals sign reaches into the value of another variable, and a value that is no
-- text does not count.
theorem expand_beyond_names
    : let reaching : Environment := ⟨[("A", "B=x")]⟩
      let undecodable : Environment := ⟨[⟨Text.utf8 "A=" ++ [0xff]⟩]⟩
      ¬ reaching.IsSet "A=B" ∧ expand reaching "$\x7bA=B\x7d" = .ok "x"
        ∧ undecodable.IsSet "A" ∧ expand undecodable "$A" = .error ⟨"A"⟩ := by
  refine ⟨fun h => h.2.1 (by decide), by decide +kernel, ⟨by decide, by decide, ?_⟩,
    by decide +kernel⟩
  exact ⟨_, List.mem_singleton.mpr rfl, [0xff], by decide +kernel⟩

end Reference
end SqlDialect
