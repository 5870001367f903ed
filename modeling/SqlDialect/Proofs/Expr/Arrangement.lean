import SqlDialect.Proofs.Expr.Steps
import SqlDialect.Proofs.Query.Places

/-!
This module contains the order of the parameters of an expression and that of their places in its
text. Most texts have the places of their operands in the order of the operands. The text of a
trimming has the characters before what they are cut from, most dialects have what is searched for
before what it is searched in, and some write the start of a search twice. The parameters are listed
in the order of the operands nevertheless.
-/

namespace SqlDialect

/--
How the places of parameters follow each other in a text.
-/
inductive Arrangement where
  | none
  | place (name : String)
  | inOrder (first second : Arrangement)
  /-- The second one has its places before the first one. -/
  | swapped (first second : Arrangement)
  /-- All places occur twice. -/
  | twice (first : Arrangement)

namespace Arrangement

def names : Arrangement → List String
  | .none => []
  | .place name => [name]
  | .inOrder a b | .swapped a b => a.names ++ b.names
  | .twice a => a.names

def places : Arrangement → List String
  | .none => []
  | .place name => [name]
  | .inOrder a b => a.places ++ b.places
  | .swapped a b => b.places ++ a.places
  | .twice a => a.places ++ a.places

/--
Whether nothing that has parameters is swapped with something that has parameters, or written twice.
-/
def keepsOrder : Arrangement → Bool
  | .none | .place _ => true
  | .inOrder a b => a.keepsOrder && b.keepsOrder
  | .swapped a b => (a.names.isEmpty || b.names.isEmpty) && a.keepsOrder && b.keepsOrder
  | .twice a => a.names.isEmpty

theorem mem_places_iff (a : Arrangement) {name : String} : name ∈ a.places ↔ name ∈ a.names := by
  induction a with
  | none | place => rfl
  | inOrder a b iha ihb => simp [places, names, iha, ihb]
  | swapped a b iha ihb => simp [places, names, iha, ihb, or_comm]
  | twice a ih => simp [places, names, ih]

theorem places_eq_nil {a : Arrangement} (h : a.names = []) : a.places = [] := by
  apply List.eq_nil_iff_forall_not_mem.mpr
  intro name hname
  rw [mem_places_iff, h] at hname
  cases hname

theorem length_names_le (a : Arrangement) : a.names.length ≤ a.places.length := by
  induction a with
  | none | place => exact Nat.le_refl _
  | inOrder a b iha ihb | swapped a b iha ihb =>
    simp only [places, names, List.length_append]
    omega
  | twice a ih =>
    simp only [places, names, List.length_append]
    omega

theorem places_eq_names {a : Arrangement} (h : a.keepsOrder) : a.places = a.names := by
  induction a with
  | none | place => rfl
  | inOrder a b iha ihb =>
    simp only [keepsOrder, Bool.and_eq_true] at h
    rw [places, names, iha h.1, ihb h.2]
  | swapped a b iha ihb =>
    simp only [keepsOrder, Bool.and_eq_true, Bool.or_eq_true, List.isEmpty_iff] at h
    rw [places, names, iha h.1.2, ihb h.2]
    obtain hempty | hempty := h.1.1
    · rw [hempty, List.append_nil, List.nil_append]
    · rw [hempty, List.append_nil, List.nil_append]
  | twice a ih =>
    rw [keepsOrder, List.isEmpty_iff] at h
    rw [places, places_eq_nil h, names, h]
    rfl

theorem names_eq_nil_of_swapped {a b : Arrangement}
    (hdisjoint : ∀ x ∈ a.names, ∀ y ∈ b.names, x ≠ y)
    (h : b.places ++ a.places = a.names ++ b.names) : a.names = [] ∨ b.names = [] := by
  cases ha : a.names with
  | nil => exact .inl rfl
  | cons x xs =>
    cases hb : b.places with
    | nil =>
      have hlength := b.length_names_le
      rw [hb] at hlength
      exact .inr (List.length_eq_zero_iff.mp (Nat.le_zero.mp hlength))
    | cons y ys =>
      rw [ha, hb] at h
      have hy : y ∈ b.names := b.mem_places_iff.mp (by simp [hb])
      exact absurd (List.cons.inj h).1.symm (hdisjoint x (by simp [ha]) y hy)

theorem keepsOrder_of_places_eq {a : Arrangement} (hnodup : a.names.Nodup)
    (h : a.places = a.names) : a.keepsOrder := by
  induction a with
  | none | place => rfl
  | inOrder a b iha ihb =>
    obtain ⟨hna, hnb, -⟩ := List.nodup_append.mp hnodup
    have hlength := congrArg List.length h
    have hla := a.length_names_le
    have hlb := b.length_names_le
    simp only [places, names, List.length_append] at hlength
    obtain ⟨ha, hb⟩ := List.append_inj h (by omega)
    rw [keepsOrder, iha hna ha, ihb hnb hb]
    rfl
  | swapped a b iha ihb =>
    obtain ⟨hna, hnb, hdisjoint⟩ := List.nodup_append.mp hnodup
    simp only [places, names] at h
    have hempty := names_eq_nil_of_swapped hdisjoint h
    have hplaces : a.places = a.names ∧ b.places = b.names := by
      obtain hempty | hempty := hempty
      · rw [hempty, places_eq_nil hempty, List.append_nil, List.nil_append] at h
        exact ⟨by rw [hempty, places_eq_nil hempty], h⟩
      · rw [hempty, places_eq_nil hempty, List.append_nil, List.nil_append] at h
        exact ⟨h, by rw [hempty, places_eq_nil hempty]⟩
    simp only [keepsOrder, Bool.and_eq_true, Bool.or_eq_true, List.isEmpty_iff]
    exact ⟨⟨hempty, iha hna hplaces.1⟩, ihb hnb hplaces.2⟩
  | twice a ih =>
    have hlength := congrArg List.length h
    have hla := a.length_names_le
    simp only [places, names, List.length_append] at hlength
    rw [keepsOrder, List.isEmpty_iff, ← List.length_eq_zero_iff]
    omega

/-! ## Functions -/

def search (v : Vendor) (haystack needle : Arrangement) : Arrangement :=
  if v = .oracle then .inOrder haystack needle else .swapped haystack needle

def searchFrom (v : Vendor) (haystack needle start : Arrangement) : Arrangement :=
  match v with
  | .oracle | .db2 | .mySql | .sqlServer => .inOrder (search v haystack needle) start
  | .generic | .postgres => .inOrder (search v haystack needle) (.twice start)

theorem names_search (v : Vendor) (a b : Arrangement)
    : (search v a b).names = a.names ++ b.names := by
  unfold search
  split <;> rfl

theorem names_searchFrom (v : Vendor) (a b c : Arrangement)
    : (searchFrom v a b c).names = a.names ++ b.names ++ c.names := by
  rw [← names_search v]
  cases v <;> rfl

end Arrangement

namespace Expr

mutual

def arrangement (v : Vendor) : Expr → Arrangement
  | .param name => .place name
  | .binary _ a b | .like a b _ _ | .concat a b | .suffix a b =>
    .inOrder (a.arrangement v) (b.arrangement v)
  | .unary _ a | .isNull a _ | .inSelect a _ _ | .cast a _ | .textFunction _ a
  | .aggregate _ a _ => a.arrangement v
  | .inList a vs _ => .inOrder (a.arrangement v) (arrangementOfAll v vs)
  | .trim a b _ => .swapped (a.arrangement v) (b.arrangement v)
  | .substring a b c =>
    .inOrder (.inOrder (a.arrangement v) (b.arrangement v)) (c.arrangement v)
  | .indexOf a b => .search v (a.arrangement v) (b.arrangement v)
  | .indexOfFrom a b c => .searchFrom v (a.arrangement v) (b.arrangement v) (c.arrangement v)
  | .column .. | .literal _ | .existsIn .. | .clock _ | .aggregateRows .. | .raw _ => .none

def arrangementOfAll (v : Vendor) : List Expr → Arrangement
  | [] => .none
  | e :: es => .inOrder (e.arrangement v) (arrangementOfAll v es)

end

end Expr

/-! ## Texts -/

structure Rendered.Arranged (a : Arrangement) (r : Rendered) (s : Binding → Rendered) : Prop where
  params : r.params = a.names
  binds : Rendered.Binds ⟨r.sql, a.places⟩ s

structure Fragment.Arranged (p : Profile) (a : Arrangement) (f : Fragment)
    (g : Binding → Fragment) : Prop where
  params : f.params = a.names
  binds : Fragment.Binds p ⟨f.tokens, a.places⟩ g

theorem Fragment.Arranged.render {p : Profile} {a : Arrangement} {f : Fragment}
    {g : Binding → Fragment} (h : Arranged p a f g)
    : (f.render p).Arranged a fun ρ => (g ρ).render p :=
  ⟨h.params, h.binds⟩

theorem Assembly.tokens_build {p : Profile} (a : Assembly) {fs gs : List Fragment}
    (h : fs.map (·.tokens) = gs.map (·.tokens))
    : (a.build p fs).tokens = (a.build p gs).tokens := by
  have hpiece (i : Nat) : (fs.getD i .empty).tokens = (gs.getD i .empty).tokens := by
    have hi := congrArg (fun tss => tss[i]?) h
    simp only [List.getElem?_map] at hi
    simp only [List.getD_eq_getElem?_getD]
    cases hf : fs[i]? <;> cases hg : gs[i]? <;> simp_all
  have hargs (count : Nat) : (args p fs count).map (·.sql) = (args p gs count).map (·.sql) := by
    simp only [args, List.map_map]
    exact List.map_congr_left fun i _ => congrArg (Token.writeAll p) (hpiece i)
  induction a with
  | piece i => exact hpiece i
  | before ts a ih => exact congrArg (ts ++ ·) ih
  | after a ts ih => exact congrArg (· ++ ts) ih
  | between a ts b iha ihb => exact congrArg₂ (· ++ ts ++ ·) iha ihb
  | parens a ih => exact congrArg Token.parens ih
  | rest =>
    have htail := congrArg List.tail h
    rw [← List.map_tail, ← List.map_tail] at htail
    exact congrArg (List.intercalate [.symbol .comma, .space]) htail
  | template count text | call count name => simp [build, Expr.fillTemplate, Expr.callByName, hargs]

/-! ## Templates of the dialects -/

namespace Vendor

open Template (references)

theorem references_trim (v : Vendor) (side : TrimSide)
    : references 2 (Expr.trimTemplate v.profile.functions side) = [1, 0] := by
  cases v <;> cases side <;> decide +kernel

theorem references_indexOf (v : Vendor)
    : references 2 v.profile.functions.indexOf = if v = .oracle then [0, 1] else [1, 0] := by
  cases v <;> decide +kernel

theorem references_indexOfFrom (v : Vendor)
    : references 3 v.profile.functions.indexOfFrom
        =
      references 2 v.profile.functions.indexOf
        ++ if v = .generic ∨ v = .postgres then [2, 2] else [2] := by
  cases v <;> decide +kernel

end Vendor

/-! ## Expressions -/

namespace Expr

open Compile (Tracks)

variable {v : Vendor} {ctx : RenderContext}

theorem names_arrangementOfAll (es : List Expr)
    : (arrangementOfAll v es).names = (es.map fun e => (e.arrangement v).names).flatten := by
  induction es with
  | nil => rfl
  | cons e es ih => rw [arrangementOfAll, Arrangement.names, ih, List.map_cons, List.flatten_cons]

theorem places_arrangementOfAll (es : List Expr)
    : (arrangementOfAll v es).places = (es.map fun e => (e.arrangement v).places).flatten := by
  induction es with
  | nil => rfl
  | cons e es ih => rw [arrangementOfAll, Arrangement.places, ih, List.map_cons, List.flatten_cons]

theorem nestedSelects_of_mem_operands {e a : Expr} (h : e.nestedSelects = []) (ha : a ∈ e.operands)
    : a.nestedSelects = [] := by
  rw [nestedSelects, List.filterMap_eq_nil_iff] at h ⊢
  intro step hstep
  apply h
  rw [steps_eq_operands]
  exact List.mem_append_left _ (List.mem_flatMap_of_mem ha hstep)

theorem ownSelect?_eq_none {e : Expr} (h : e.nestedSelects = []) : e.ownSelect? = none := by
  cases e with
  | existsIn => cases h
  | inSelect => simp [nestedSelects, steps, RenderStep.scope?] at h
  | _ => rfl

theorem names_arrangement {e : Expr} {own : List Fragment} (he : e.nestedSelects = [])
    (hown : e.own ctx = .ok own)
    : (e.arrangement v).names
        =
      ((e.operands.map fun a => (a.arrangement v).names) ++ own.map (·.params)).flatten := by
  cases e with
  | existsIn | inSelect => cases ownSelect?_eq_none he
  | literal =>
    obtain ⟨t, -, h⟩ := Compile.bind_eq_ok_iff.mp hown
    cases h
    rfl
  | like a b escape negated =>
    cases escape <;> cases hown <;>
      simp [arrangement, operands, Arrangement.names, Fragment.ofTokens]
  | _ =>
    cases hown
    simp [arrangement, operands, Arrangement.names, Arrangement.names_search,
      Arrangement.names_searchFrom, names_arrangementOfAll, Fragment.ofTokens, Fragment.ofParam,
      Fragment.ofRendered]

theorem places_arrangement {e : Expr} {own : List Fragment} (h : e.takesInOrder)
    (he : e.nestedSelects = []) (hown : e.own ctx = .ok own)
    : (e.arrangement v).places
        =
      ((e.operands.map fun a => (a.arrangement v).places) ++ own.map (·.params)).flatten := by
  cases e with
  | trim | indexOf | indexOfFrom => cases h
  | existsIn | inSelect => cases ownSelect?_eq_none he
  | literal =>
    obtain ⟨t, -, h⟩ := Compile.bind_eq_ok_iff.mp hown
    cases h
    rfl
  | like a b escape negated =>
    cases escape <;> cases hown <;>
      simp [arrangement, operands, Arrangement.places, Fragment.ofTokens]
  | _ =>
    cases hown
    simp [arrangement, operands, Arrangement.places, places_arrangementOfAll, Fragment.ofTokens,
      Fragment.ofParam, Fragment.ofRendered]

theorem places_assembly {e : Expr} {own : List Fragment} (he : e.nestedSelects = [])
    (hown : e.own ctx = .ok own)
    : (e.assembly v.profile).places
          ((e.operands.map fun a => (a.arrangement v).places) ++ own.map (·.params))
        =
      (e.arrangement v).places := by
  by_cases h : e.takesInOrder
  · have hassembly := inOrder_assembly v.functions_inOrder h
    rw [Assembly.places_eq_names hassembly, places_arrangement h he hown]
    exact names_assembly _ hown (List.length_map _) (List.length_map _)
  · cases e with
    | trim a b side =>
      cases hown
      simp [assembly, Assembly.places, Assembly.collect, Assembly.taken, v.references_trim,
        operands, arrangement, Arrangement.places]
    | indexOf a b =>
      cases hown
      simp only [assembly, Assembly.places, Assembly.collect, v.references_indexOf]
      cases v <;>
        simp [Assembly.taken, operands, arrangement, Arrangement.search, Arrangement.places]
    | indexOfFrom a b c =>
      cases hown
      simp only [assembly, Assembly.places, Assembly.collect, v.references_indexOfFrom,
        v.references_indexOf]
      cases v <;>
        simp [Assembly.taken, operands, arrangement, Arrangement.searchFrom, Arrangement.search,
          Arrangement.places]
    | _ => exact absurd rfl h

theorem exists_placed {p : Profile} {es : List Expr} {fs : List Fragment}
    {gs : Binding → List Fragment}
    (h : Alongside (fun e => Fragment.Arranged p (e.arrangement v)) es fs gs)
    : fs.map (·.params) = (es.map fun e => (e.arrangement v).names)
        ∧ ∃ placed : List Fragment, placed.map (·.tokens) = fs.map (·.tokens)
          ∧ placed.map (·.params) = (es.map fun e => (e.arrangement v).places)
          ∧ Listwise (Fragment.Binds p) placed gs := by
  induction h with
  | nil => exact ⟨rfl, [], rfl, rfl, .nil⟩
  | @cons e f _ _ _ _ head tail ih =>
    obtain ⟨hnames, placed, htokens, hplaces, hbinds⟩ := ih
    refine ⟨by simp [head.params, hnames], ⟨f.tokens, (e.arrangement v).places⟩ :: placed, ?_, ?_,
      .cons head.binds hbinds⟩
    · simp [htokens]
    · simp [hplaces]

theorem tracks_arranged (hprofile : ctx.profile = v.profile) (e : Expr)
    : e.nestedSelects = [] →
        Tracks (Fragment.Arranged ctx.profile (e.arrangement v)) (e.fragment ctx)
          fun ρ => (e.bind ρ).fragment ctx := by
  refine tracks_fragment_of (·.nestedSelects = []) ctx (fun _ => ctx) bind
    (R := fun e => Fragment.Arranged ctx.profile (e.arrangement v)) (fun _ => rfl) operands_bind
    (fun ρ => assembly_bind ρ ctx.profile) (fun e he a => nestedSelects_of_mem_operands he) ?_ e
  intro e he fs gs hfs own hown
  have hnone : ∀ scope ∈ e.ownSelect?,
      Tracks Rendered.Binds (ctx.subselect scope) fun _ => ctx.subselect scope := by
    simp [ownSelect?_eq_none he]
  obtain ⟨own', hown', hbinds⟩ := tracks_own hnone own hown
  obtain ⟨hnames, placed, htokens, hplaces, hplaced⟩ := exists_placed hfs
  refine ⟨own', hown', ⟨?_, ?_⟩⟩
  · rw [Assembly.params_build, List.map_append, hnames, names_arrangement he hown]
    exact names_assembly _ hown (List.length_map _) (List.length_map _)
  · have hbuilt := Assembly.binds_build (e.assembly ctx.profile) (hplaced.append hbinds)
    have hbuild : ((e.assembly ctx.profile).build ctx.profile (placed ++ own)).tokens
        = ((e.assembly ctx.profile).build ctx.profile (fs ++ own)).tokens :=
      Assembly.tokens_build _ (by simp [htokens])
    have hlisted : (e.assembly ctx.profile).places ((placed ++ own).map (·.params))
        = (e.arrangement v).places := by
      rw [List.map_append, hplaces, hprofile]
      exact places_assembly he hown
    rwa [hbuild, hlisted] at hbuilt

theorem tracks_sql (hprofile : ctx.profile = v.profile) {e : Expr} (he : e.nestedSelects = [])
    : Tracks (Rendered.Arranged (e.arrangement v)) (e.sql ctx) fun ρ => (e.bind ρ).sql ctx := by
  simp only [sql_eq]
  apply Tracks.map (tracks_arranged hprofile e he)
  intro f f' h
  exact h.render

theorem exists_reads (hprofile : ctx.profile = v.profile) {e : Expr} (he : e.nestedSelects = [])
    {r : Rendered} (hr : e.sql ctx = .ok r)
    : r.params = (e.arrangement v).names
        ∧ ∃ t : PlacedText, t.Reads r.sql (fun ρ => ((e.bind ρ).sql ctx).toOption)
          ∧ t.names = (e.arrangement v).places := by
  obtain ⟨r', hr', h⟩ := tracks_sql hprofile he r hr
  obtain ⟨t, ht, rfl⟩ := h.binds
  obtain ⟨hsql, hplaces⟩ := Rendered.mk.inj ht
  refine ⟨h.params, t, ⟨hsql, ?_⟩, hplaces⟩
  intro ρ
  exact congrArg Except.toOption (hr' ρ)

/--
The places in the text of an expression are those that its arrangement tells, whatever the dialect
and whether or not columns are qualified. The parameters are listed in the order of the operands,
which is that of the places if the arrangement keeps the order, and only then if no parameter occurs
twice.
-/
theorem sql_places (v : Vendor) (ctx : RenderContext) (hprofile : ctx.profile = v.profile)
    (e : Expr) (he : e.nestedSelects = []) (r : Rendered) (hr : e.sql ctx = .ok r)
    : let bound : Binding → Option Rendered := fun ρ => ((e.bind ρ).sql ctx).toOption
      r.params = (e.arrangement v).names
        ∧ (∃ t : PlacedText, t.Reads r.sql bound ∧ t.names = (e.arrangement v).places)
        ∧ ((e.arrangement v).keepsOrder → Query.PlacesAgree r bound)
        ∧ (r.params.Nodup → Query.PlacesAgree r bound → (e.arrangement v).keepsOrder) := by
  intro bound
  obtain ⟨hparams, t, ht, hplaces⟩ := exists_reads hprofile he hr
  refine ⟨hparams, ⟨t, ht, hplaces⟩, ?_, ?_⟩
  · intro hkeeps
    refine ⟨⟨t, ht⟩, ?_⟩
    intro u hu
    rw [hu.names_eq ht, hplaces, Arrangement.places_eq_names hkeeps, hparams]
  · intro hnodup hagree
    apply Arrangement.keepsOrder_of_places_eq
    · rwa [← hparams]
    · rw [← hplaces, hagree.2 t ht, hparams]

-- Both operands of a search have parameters, and so has its start, which one dialect writes twice.
theorem sql_places_search
    : let e : Expr := .indexOfFrom (.concat (.param "a") (.cast (.param "b") "TEXT"))
        (.textFunction .lower (.param "c")) (.param "d")
      let bound (v : Vendor) : Binding → Option Rendered :=
        fun ρ => ((e.bind ρ).sql { profile := v.profile }).toOption
      e.nestedSelects = []
        ∧ (∃ r, e.sql { profile := Vendor.oracle.profile } = .ok r
          ∧ r.params = ["a", "b", "c", "d"] ∧ Query.PlacesAgree r (bound .oracle))
        ∧ ∃ r, e.sql { profile := Vendor.postgres.profile } = .ok r
          ∧ r.params = ["a", "b", "c", "d"] ∧ ¬ Query.PlacesAgree r (bound .postgres)
          ∧ ∃ t : PlacedText, t.Reads r.sql (bound .postgres)
            ∧ t.names = ["c", "a", "b", "d", "d"] := by
  intro e bound
  refine ⟨rfl, ⟨_, rfl, rfl, ?_⟩, _, rfl, rfl, ?_, ?_⟩
  · exact (sql_places .oracle _ rfl e rfl _ rfl).2.2.1 rfl
  · intro hagree
    cases (sql_places .postgres _ rfl e rfl _ rfl).2.2.2 (by decide) hagree
  · exact (sql_places .postgres _ rfl e rfl _ rfl).2.1

-- The characters to cut off come first in the text, but what they are cut from in the list.
theorem trim_lists_operand_first
    : let e : Expr := .trim (.param "a") (.param "b") .leading
      let ctx : RenderContext := { profile := Vendor.generic.profile }
      ∃ r, e.sql ctx = .ok r ∧ r = ⟨"TRIM(LEADING ? FROM ?)", ["a", "b"]⟩
        ∧ ∃ t : PlacedText, t.Reads r.sql (fun ρ => ((e.bind ρ).sql ctx).toOption)
          ∧ t.names = ["b", "a"] := by
  intro e ctx
  have hprofile : ctx.profile = Vendor.generic.profile := rfl
  have he : e.nestedSelects = [] := rfl
  have hr : e.sql ctx = .ok ⟨"TRIM(LEADING ? FROM ?)", ["a", "b"]⟩ := by decide +kernel
  exact ⟨_, hr, rfl, (exists_reads hprofile he hr).2⟩

end Expr

end SqlDialect
