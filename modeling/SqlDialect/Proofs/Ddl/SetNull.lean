import SqlDialect.Proofs.Ddl.NameLengths

/-!
This module contains which foreign keys set their columns to null, and which columns a table
declares never to be null. A key looks at the columns that are declared so by themselves, and only
for what happens when a row is deleted.
-/

namespace SqlDialect

/-! ## Words of a foreign key -/

theorem keyword_notMem_columnTokens (k : Keyword) (columns : List String)
    : .keyword k ∉ columnTokens columns := by
  intro h
  unfold columnTokens Token.parens Token.commaSep at h
  simp only [List.cons_append, List.mem_cons, List.mem_append, reduceCtorEq, List.not_mem_nil,
    false_or, or_false] at h
  rcases Token.mem_intercalate h with h | ⟨ts, hts, h⟩
  · simp at h
  · obtain ⟨column, _, rfl⟩ := List.mem_map.mp hts
    simp at h

namespace ConstraintRule

def eventTokens (event : Keyword) (action : String) : List Token :=
  [.keyword .on, .space, .keyword event, .space, .raw action]

theorem actionTokens_of_text? {action : ReferentialAction} {text : String} (event : Keyword)
    (h : action.text? = some text)
    : actionTokens event action = .space :: eventTokens event text := by
  rw [actionTokens, h]
  rfl

theorem keyword_mem_actionTokens {event event' : Keyword} {action : ReferentialAction}
    (hon : event ≠ .on) (h : .keyword event ∈ actionTokens event' action) : event = event' := by
  unfold actionTokens at h
  cases htext : action.text? with
  | none => simp [htext] at h
  | some text => simpa [htext, hon] using h

theorem keyword_mem_deferralTokens {p : Profile} {deferred : Bool} {k : Keyword}
    (h : .keyword k ∈ deferralTokens p deferred) : k = .initiallyDeferred ∨ k = .deferrable := by
  unfold deferralTokens at h
  rcases List.mem_append.mp h with h | h
  · left
    cases deferred <;> simp_all
  · right
    split at h <;> simp_all

-- An event that is named once is named by its own action.
theorem eventTokens_infix_iff {event : Keyword} {action : ReferentialAction} {text : String}
    {before after : List Token} (hon : event ≠ .on) (hbefore : .keyword event ∉ before)
    (hafter : .keyword event ∉ after)
    : eventTokens event text <:+: before ++ actionTokens event action ++ after
        ↔ action.text? = some text := by
  constructor
  · rintro ⟨start, rest, h⟩
    cases htext : action.text? with
    | none =>
      have hmem : .keyword event ∈ before ++ actionTokens event action ++ after := by
        rw [← h]
        simp [eventTokens]
      simp [actionTokens, htext, hbefore, hafter] at hmem
    | some written =>
      let on : List Token := [.keyword .on, .space]
      have hsplit : (before ++ .space :: on) ++ .keyword event :: .space :: .raw written :: after
          = (start ++ on) ++ .keyword event :: .space :: .raw text :: rest := by
        rw [actionTokens_of_text? event htext] at h
        simpa [eventTokens, on] using h.symm
      rw [List.append_cons_inj_of_notMem (by simp [on, hbefore, hon]) (by simp [hafter])] at hsplit
      have haction : written = text ∧ after = rest := by simpa using hsplit.2
      rw [haction.1]
  · intro h
    rw [actionTokens_of_text? event h]
    exact ⟨before ++ [.space], after, by simp⟩

end ConstraintRule

namespace Constraint

open ConstraintRule (eventTokens actionTokens)

variable {c : Constraint} {p : Profile}

def Says (c : Constraint) (p : Profile) (event : Keyword) (action : String) : Prop :=
  eventTokens event action <:+: c.tokens p

def nameTokens (c : Constraint) (p : Profile) (place : ConstraintNaming) : List Token :=
  if p.naming.constraintNaming = place then
    c.name.elim [] fun name =>
      match place with
      | .before => [.keyword .constraint, .space, .ident name, .space]
      | .mid => [.ident name, .space]
      | .after => [.space, .keyword .constraint, .space, .ident name]
  else
    []

theorem tokens_eq (p : Profile) (c : Constraint)
    : c.tokens p
        =
      c.nameTokens p .before ++ [.keyword c.rule.keyword, .space] ++ c.nameTokens p .mid
        ++ c.rule.tokens p ++ c.nameTokens p .after :=
  rfl

theorem keyword_mem_nameTokens {place : ConstraintNaming} {k : Keyword}
    (h : .keyword k ∈ c.nameTokens p place) : k = .constraint := by
  unfold nameTokens at h
  split at h
  · cases hname : c.name with
    | none => simp [hname] at h
    | some name => cases place <;> simp_all
  · cases h

-- Neither the names nor the other words of a foreign key are events.
theorem exists_tokens_eq {columns referenced : List String} {table : String}
    {deleteAction updateAction : ReferentialAction} {deferred : Bool}
    (h : c.rule = .foreignKey columns table referenced deleteAction updateAction deferred)
    : ∃ before after,
        c.tokens p = before ++ actionTokens .delete deleteAction
            ++ actionTokens .update updateAction ++ after
        ∧ ∀ event : Keyword, event = .delete ∨ event = .update →
          .keyword event ∉ before ∧ .keyword event ∉ after := by
  let opening : List Token := [.keyword .foreignKey, .space]
  let reference : List Token := [.space, .keyword .references, .space, .ident table, .space]
  refine ⟨c.nameTokens p .before ++ opening ++ c.nameTokens p .mid ++ columnTokens columns
      ++ reference ++ columnTokens referenced,
    ConstraintRule.deferralTokens p deferred ++ c.nameTokens p .after, ?_, ?_⟩
  · rw [tokens_eq, h]
    simp [ConstraintRule.tokens, ConstraintRule.keyword, opening, reference]
  · intro event hevent
    have hname : ∀ place, .keyword event ∉ c.nameTokens p place := by
      intro place hmem
      cases keyword_mem_nameTokens hmem
      simp at hevent
    have hdeferral : .keyword event ∉ ConstraintRule.deferralTokens p deferred := by
      intro hmem
      rcases ConstraintRule.keyword_mem_deferralTokens hmem with rfl | rfl
      all_goals simp at hevent
    have hwords : .keyword event ∉ opening ∧ .keyword event ∉ reference := by
      rcases hevent with rfl | rfl <;> simp [opening, reference]
    simp [keyword_notMem_columnTokens, hname, hdeferral, hwords]

theorem says_delete_iff {columns referenced : List String} {table text : String}
    {deleteAction updateAction : ReferentialAction} {deferred : Bool}
    (h : c.rule = .foreignKey columns table referenced deleteAction updateAction deferred)
    : c.Says p .delete text ↔ deleteAction.text? = some text := by
  obtain ⟨before, after, htokens, hfree⟩ := exists_tokens_eq (p := p) h
  obtain ⟨hbefore, hafter⟩ := hfree .delete (.inl rfl)
  have hother : .keyword .delete ∉ actionTokens .update updateAction := by
    intro hmem
    cases ConstraintRule.keyword_mem_actionTokens (by decide) hmem
  rw [Says, htokens, List.append_assoc (before ++ _)]
  exact ConstraintRule.eventTokens_infix_iff (by decide) hbefore (by simp [hother, hafter])

theorem says_update_iff {columns referenced : List String} {table text : String}
    {deleteAction updateAction : ReferentialAction} {deferred : Bool}
    (h : c.rule = .foreignKey columns table referenced deleteAction updateAction deferred)
    : c.Says p .update text ↔ updateAction.text? = some text := by
  obtain ⟨before, after, htokens, hfree⟩ := exists_tokens_eq (p := p) h
  obtain ⟨hbefore, hafter⟩ := hfree .update (.inr rfl)
  have hother : .keyword .update ∉ actionTokens .delete deleteAction := by
    intro hmem
    cases ConstraintRule.keyword_mem_actionTokens (by decide) hmem
  rw [Says, htokens]
  exact ConstraintRule.eventTokens_infix_iff (by decide) (by simp [hother, hbefore]) hafter

end Constraint

theorem ReferentialAction.text?_eq_setNull_iff {action : ReferentialAction}
    : action.text? = some "SET NULL" ↔ action = .setNull := by
  cases action <;> decide

namespace DdlStatement

/--
Whether a statement adds a constraint that sets columns to null on an event.
-/
def SetsNull (p : Profile) (event : Keyword) : DdlStatement → Prop
  | .addConstraint _ c => c.Says p event "SET NULL"
  | _ => False

def DeclaresNotNull (column : String) : DdlStatement → Prop
  | .createTable _ declarations _ =>
    ∃ d ∈ declarations, Text.eqIgnoringCase d.name column = true ∧ .keyword .notNull ∈ d.tokens
  | _ => False

end DdlStatement

theorem ColumnDeclaration.notNull_mem_tokens_iff {d : ColumnDeclaration}
    : .keyword .notNull ∈ d.tokens ↔ d.notNull = true := by
  unfold tokens
  cases d.default <;> cases d.notNull <;> cases d.autoAssign <;> simp

/-! ## Columns -/

namespace Table

open Text (eqIgnoringCase)

variable {t : Table} {p : Profile} {created added : List DdlStatement} {fk : ForeignKey}

def isNeverNull (t : Table) (p : Profile) (c : Column) : Bool :=
  c.notNull || !p.supports .nullUniqueColumn && t.isUniqueColumn c

theorem notNull_declareColumn {c : Column} {d : ColumnDeclaration}
    (h : t.declareColumn p c false = .ok d) : d.notNull = t.isNeverNull p c := by
  obtain ⟨_, _, h⟩ := Compile.bind_eq_ok_iff.mp h
  cases h
  rfl

theorem not_declaresNotNull_of_createAutoAssign {statements : List DdlStatement} {column : String}
    (h : t.createAutoAssign p = .ok statements)
    : ∀ s ∈ statements, ¬ s.DeclaresNotNull column := by
  rw [createAutoAssign_eq] at h
  cases h
  intro s hs
  split at hs
  · obtain ⟨c, _, hs⟩ := List.mem_flatMap.mp hs
    simp only [AutoAssignNames.create, List.mem_cons, List.not_mem_nil, or_false] at hs
    rcases hs with rfl | rfl
    all_goals exact id
  · cases hs

theorem declaresNotNull_iff (h : t.create p = .ok created) {column : String}
    : (∃ s ∈ created, s.DeclaresNotNull column)
        ↔ ∃ c ∈ t.columns, eqIgnoringCase c.name column = true ∧ t.isNeverNull p c = true := by
  obtain ⟨uniques, declarations, rest, _, hdeclarations, hrest, rfl⟩ := exists_of_create h
  have hcreate : (∃ s ∈ .createTable t.objectName declarations
        ((t.primaryKeyConstraint? p).toList ++ uniques) :: rest, s.DeclaresNotNull column)
      ↔ ∃ d ∈ declarations, eqIgnoringCase d.name column = true ∧ .keyword .notNull ∈ d.tokens := by
    rw [List.exists_mem_cons_iff, or_iff_left]
    · rfl
    · rintro ⟨s, hs, hnull⟩
      exact not_declaresNotNull_of_createAutoAssign hrest s hs hnull
  have hdeclared := Compile.mapM_eq_ok_iff.mp hdeclarations
  rw [hcreate]
  constructor
  · rintro ⟨d, hd, hname, hnull⟩
    obtain ⟨c, hc, hcd⟩ := Compile.exists_of_mem_forall₂ hdeclared d hd
    rw [ColumnDeclaration.notNull_mem_tokens_iff, notNull_declareColumn hcd] at hnull
    rw [name_declareColumn hcd] at hname
    exact ⟨c, hc, hname, hnull⟩
  · rintro ⟨c, hc, hname, hnull⟩
    obtain ⟨d, hd, hcd⟩ := Compile.exists_of_mem_forall₂
      (R := fun d c => t.declareColumn p c false = .ok d) hdeclared.flip c hc
    refine ⟨d, hd, ?_, ?_⟩
    · rw [name_declareColumn hcd]
      exact hname
    · rw [ColumnDeclaration.notNull_mem_tokens_iff, notNull_declareColumn hcd]
      exact hnull

theorem column?_eq_some_iff
    (h : t.columns.Pairwise fun c d => eqIgnoringCase c.name d.name = false) {name : String}
    {c : Column}
    : t.column? name = some c ↔ c ∈ t.columns ∧ eqIgnoringCase c.name name = true := by
  unfold column?
  constructor
  · intro hfind
    have hname := List.find?_some hfind
    exact ⟨List.mem_of_find?_eq_some hfind, hname⟩
  · rintro ⟨hc, hname⟩
    obtain ⟨before, after, hcolumns⟩ := List.append_of_mem hc
    rw [List.find?_eq_some_iff_append]
    refine ⟨hname, before, after, hcolumns, ?_⟩
    intro d hd
    rw [hcolumns, List.pairwise_append] at h
    have hdiffers := h.2.2 d hd c List.mem_cons_self
    rw [Bool.not_eq_true', Bool.eq_false_iff]
    intro hdname
    rw [Bool.eq_false_iff, ne_eq, Text.eqIgnoringCase_iff] at hdiffers
    rw [Text.eqIgnoringCase_iff] at hname hdname
    exact hdiffers (hdname.trans hname.symm)

theorem declaresNotNull_iff_of_nullable (h : t.create p = .ok created)
    (hdistinct : t.columns.Pairwise fun c d => eqIgnoringCase c.name d.name = false)
    {column : String} (hnullable : ∀ c, t.column? column = some c → c.notNull = false)
    : (∃ s ∈ created, s.DeclaresNotNull column)
        ↔ p.supports .nullUniqueColumn = false
          ∧ ∃ c, t.column? column = some c ∧ t.isUniqueColumn c = true := by
  have hforced : ∀ c, t.column? column = some c →
      (t.isNeverNull p c = true
        ↔ p.supports .nullUniqueColumn = false ∧ t.isUniqueColumn c = true) := by
    intro c hc
    simp [isNeverNull, hnullable c hc]
  rw [declaresNotNull_iff h]
  constructor
  · rintro ⟨c, hc, hname, hnever⟩
    have hfound := (column?_eq_some_iff hdistinct).mpr ⟨hc, hname⟩
    obtain ⟨hunsupported, hunique⟩ := (hforced c hfound).mp hnever
    exact ⟨hunsupported, c, hfound, hunique⟩
  · rintro ⟨hunsupported, c, hfound, hunique⟩
    obtain ⟨hc, hname⟩ := (column?_eq_some_iff hdistinct).mp hfound
    exact ⟨c, hc, hname, (hforced c hfound).mpr ⟨hunsupported, hunique⟩⟩

/-! ## Keys that set null -/

theorem setsNull_iff (h : t.addForeignKey p fk = .ok added) (event : Keyword)
    : (∃ s ∈ added, s.SetsNull p event)
        ↔ fk.deleteAction ≠ .unspecified ∧ (t.keyConstraint fk).Says p event "SET NULL" := by
  rw [addForeignKey_eq_ok h]
  split
  · next hunspecified => simp [hunspecified]
  · next hspecified => simp [hspecified, DdlStatement.SetsNull]

theorem effectiveDeleteAction_eq_setNull_iff
    : t.effectiveDeleteAction fk = .setNull
        ↔ fk.deleteAction = .setNull
          ∧ ∀ column ∈ fk.columns, ∀ c, t.column? column = some c → c.notNull = false := by
  unfold effectiveDeleteAction
  have hnullable : (fk.columns.any fun c => (t.column? c).any (·.notNull)) = false
      ↔ ∀ column ∈ fk.columns, ∀ c, t.column? column = some c → c.notNull = false := by
    simp [Option.any_eq_false]
  rw [← hnullable, ← Bool.not_eq_true]
  split
  · next h => simp [h.1, h.2]
  · next h =>
    constructor
    · intro hset
      exact ⟨hset, fun hany => h ⟨hset, hany⟩⟩
    · exact And.left

theorem setsNull_delete_iff (h : t.addForeignKey p fk = .ok added)
    : (∃ s ∈ added, s.SetsNull p .delete)
        ↔ fk.deleteAction = .setNull
          ∧ ∀ column ∈ fk.columns, ∀ c, t.column? column = some c → c.notNull = false := by
  rw [setsNull_iff h, Constraint.says_delete_iff rfl, ReferentialAction.text?_eq_setNull_iff,
    effectiveDeleteAction_eq_setNull_iff, and_iff_right_iff_imp]
  rintro ⟨hset, _⟩
  rw [hset]
  decide

theorem setsNull_update_iff (h : t.addForeignKey p fk = .ok added)
    : (∃ s ∈ added, s.SetsNull p .update)
        ↔ fk.updateAction = .setNull ∧ fk.deleteAction ≠ .unspecified := by
  rw [setsNull_iff h, Constraint.says_update_iff rfl, ReferentialAction.text?_eq_setNull_iff,
    and_comm]

/--
A foreign key sets its columns to null when a row is deleted exactly if it is to do so and none of
the columns is never null by itself. When a row is updated it does so whatever the columns are. A
table also declares columns never to be null because they are unique, in dialects where unique
columns cannot be null. These are the columns that are set to null in spite of their declaration
when a row is deleted.
-/
theorem setNull_of_addForeignKey (hcreate : t.create p = .ok created)
    (hadd : t.addForeignKey p fk = .ok added)
    : let setsNull (event : Keyword) : Prop := ∃ s ∈ added, s.SetsNull p event
      let neverNull (column : String) : Prop := ∃ s ∈ created, s.DeclaresNotNull column
      (setsNull .delete ↔ fk.deleteAction = .setNull
        ∧ ∀ column ∈ fk.columns, ∀ c, t.column? column = some c → c.notNull = false)
      ∧ (setsNull .update ↔ fk.updateAction = .setNull ∧ fk.deleteAction ≠ .unspecified)
      ∧ (∀ column, neverNull column
        ↔ ∃ c ∈ t.columns, eqIgnoringCase c.name column = true ∧ t.isNeverNull p c = true)
      ∧ (t.columns.Pairwise (fun c d => eqIgnoringCase c.name d.name = false) →
        setsNull .delete → ∀ column ∈ fk.columns,
          (neverNull column ↔ p.supports .nullUniqueColumn = false
            ∧ ∃ c, t.column? column = some c ∧ t.isUniqueColumn c = true)) := by
  intro setsNull neverNull
  refine ⟨setsNull_delete_iff hadd, setsNull_update_iff hadd,
    fun column => declaresNotNull_iff hcreate, ?_⟩
  intro hdistinct hsets column hcolumn
  obtain ⟨_, hnullable⟩ := (setsNull_delete_iff hadd).mp hsets
  exact declaresNotNull_iff_of_nullable hcreate hdistinct (hnullable column hcolumn)

-- Of the two columns that are set to null, only the one that is not unique can be.
theorem setNull_of_addForeignKey_unique
    : let p := Vendor.db2.profile
      let t : Table := { name := "ORDERS"
                         columns := [{ name := "code" }, { name := "note" }]
                         uniques := [{ columns := ["CODE"] }] }
      let fk : ForeignKey := { columns := ["Code", "note"]
                               referencedTable := "CODES"
                               primaryKeyColumns := ["id", "note"]
                               deleteAction := .setNull }
      ∃ created added, t.create p = .ok created ∧ t.addForeignKey p fk = .ok added
        ∧ (∃ s ∈ added, s.SetsNull p .delete) ∧ ¬ (∃ s ∈ added, s.SetsNull p .update)
        ∧ (∃ s ∈ created, s.DeclaresNotNull "Code")
        ∧ ¬ (∃ s ∈ created, s.DeclaresNotNull "note") := by
  intro p t fk
  obtain ⟨created, hcreate⟩ : ∃ created, t.create p = .ok created := by
    rw [← Compile.failure?_eq_none_iff]
    decide +kernel
  have hadd : t.addForeignKey p fk = .ok [.addConstraint t.objectName (t.keyConstraint fk)] := by
    decide +kernel
  obtain ⟨hdelete, hupdate, _, hspite⟩ := setNull_of_addForeignKey hcreate hadd
  have hsets := hdelete.mpr ⟨rfl, by decide +kernel⟩
  have hnever := hspite (by decide +kernel) hsets
  refine ⟨created, _, hcreate, hadd, hsets, ?_, ?_, ?_⟩
  · intro hset
    exact absurd (hupdate.mp hset).1 (by decide)
  · exact (hnever "Code" (by decide)).mpr ⟨by decide +kernel, { name := "code" }, by decide +kernel⟩
  · intro hnull
    obtain ⟨_, c, hc, hunique⟩ := (hnever "note" (by decide)).mp hnull
    have hfound : t.column? "note" = some { name := "note" } := by decide +kernel
    cases hfound.symm.trans hc
    exact absurd hunique (by decide +kernel)

-- One key sets a unique column to null when a row is deleted. Another one, which may not do so with
-- a column that is never null, does it when a row is updated.
theorem setNull_of_addForeignKey_notNull
    : let p := Vendor.db2.profile
      let t : Table := { name := "ORDERS"
                         columns := [{ name := "id", notNull := true }, { name := "code" }]
                         uniques := [{ columns := ["code"] }] }
      let toCodes : ForeignKey := { columns := ["code"]
                                    referencedTable := "CODES"
                                    primaryKeyColumns := ["id"]
                                    deleteAction := .setNull }
      let toParent : ForeignKey := { columns := ["id"]
                                     referencedTable := "PARENT"
                                     primaryKeyColumns := ["id"]
                                     updateAction := .setNull }
      ∃ created, t.create p = .ok created
        ∧ (∃ s ∈ created, s.DeclaresNotNull "code")
        ∧ (∃ added, t.addForeignKey p toCodes = .ok added ∧ ∃ s ∈ added, s.SetsNull p .delete)
        ∧ (∃ s ∈ created, s.DeclaresNotNull "id")
        ∧ (∃ added, t.addForeignKey p toParent = .ok added
          ∧ ∃ s ∈ added, s.SetsNull p .update) := by
  intro p t toCodes toParent
  obtain ⟨created, hcreate⟩ : ∃ created, t.create p = .ok created := by
    rw [← Compile.failure?_eq_none_iff]
    decide +kernel
  have hadd : ∀ fk ∈ [toCodes, toParent], t.addForeignKey p fk
      = .ok [.addConstraint t.objectName (t.keyConstraint fk)] := by decide +kernel
  have hcodes := hadd toCodes (by decide)
  have hparent := hadd toParent (by decide)
  refine ⟨created, hcreate, ?_, ⟨_, hcodes, ?_⟩, ?_, ⟨_, hparent, ?_⟩⟩
  · rw [declaresNotNull_iff hcreate]
    decide +kernel
  · rw [setsNull_delete_iff hcodes]
    exact ⟨rfl, by decide +kernel⟩
  · rw [declaresNotNull_iff hcreate]
    decide +kernel
  · rw [setsNull_update_iff hparent]
    decide

end Table
end SqlDialect
