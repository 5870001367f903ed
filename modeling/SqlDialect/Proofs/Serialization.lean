import SqlDialect.Ddl.Statement
import SqlDialect.Expr.Fragment
import SqlDialect.Proofs.Compile

/-!
This module contains the texts of tokens and fragments, and when writing them does not panic. Only a
float that is infinite or no number has no text, and the statements that define tables have no
floats.
-/

namespace SqlDialect

/-! ## Tokens -/

namespace Token

variable {p : Profile} {t : Token} {ts us : List Token}

def isWritable : Token → Bool
  | .float x => x.isFinite
  | _ => true

theorem serialize_eq_ok (h : t.isWritable = true) : t.serialize p = .ok (t.write p) := by
  cases t with
  | float x =>
    have hx : x.isFinite = true := h
    simp [serialize, ofFloat, hx]
  | _ => rfl

theorem floatText_of_isFinite {x : Binary64} (h : x.isFinite = true)
    : floatText x = floatLayout.writeFloat ⟨x, h⟩ := by
  rw [floatText, FiniteBinary64.ofBinary64?, dif_pos h]

theorem serializeAll_eq_ok (h : ∀ t ∈ ts, t.isWritable = true)
    : serializeAll p ts = .ok (writeAll p ts) := by
  have hts : ts.mapM (serialize p) = .ok (ts.map (write p)) := by
    rw [Compile.mapM_eq_ok_iff, List.forall₂_map_right_iff, List.forall₂_same]
    exact fun t ht => serialize_eq_ok (h t ht)
  rw [serializeAll, hts]
  rfl

theorem writeAll_append (ts us : List Token)
    : writeAll p (ts ++ us) = writeAll p ts ++ writeAll p us := by
  simp [writeAll]

theorem writeAll_intercalate (separator : List Token) (tss : List (List Token))
    : writeAll p (separator.intercalate tss)
        =
      (writeAll p separator).intercalate (tss.map (writeAll p)) := by
  induction tss with
  | nil => rfl
  | cons ts tss ih =>
    cases tss with
    | nil => simp
    | cons us tss =>
      rw [List.intercalate_cons_cons, writeAll_append, writeAll_append, ih]
      simp [String.intercalate_cons_cons]

theorem mem_intercalate {separator : List Token} {tss : List (List Token)}
    (h : t ∈ separator.intercalate tss) : t ∈ separator ∨ ∃ ts ∈ tss, t ∈ ts := by
  induction tss with
  | nil => cases h
  | cons ts tss ih =>
    cases tss with
    | nil => exact .inr ⟨ts, List.mem_cons_self, by simpa using h⟩
    | cons us tss =>
      rw [List.intercalate_cons_cons] at h
      grind

theorem isWritable_intercalate {separator : List Token} {tss : List (List Token)}
    (hseparator : ∀ t ∈ separator, t.isWritable = true)
    (h : ∀ ts ∈ tss, ∀ t ∈ ts, t.isWritable = true)
    : ∀ t ∈ separator.intercalate tss, t.isWritable = true := by
  intro t ht
  obtain ht | ⟨ts, hts, ht⟩ := mem_intercalate ht
  · exact hseparator t ht
  · exact h ts hts t ht

theorem isWritable_commaSep {tss : List (List Token)}
    (h : ∀ ts ∈ tss, ∀ t ∈ ts, t.isWritable = true) : ∀ t ∈ commaSep tss, t.isWritable = true :=
  isWritable_intercalate (by simp [isWritable]) h

theorem isWritable_parens
    : (∀ t ∈ parens ts, t.isWritable = true) ↔ ∀ t ∈ ts, t.isWritable = true := by
  unfold parens
  rw [List.forall_mem_append, List.forall_mem_cons, List.forall_mem_singleton]
  exact ⟨fun h => h.1.2, fun h => ⟨⟨rfl, h⟩, rfl⟩⟩

theorem writeAll_raw (p : Profile) (sql : String) : writeAll p [.raw sql] = sql := by
  simp [writeAll, write]

end Token

/-! ## Fragments -/

instance : Append Rendered where
  append r s := ⟨r.sql ++ s.sql, r.params ++ s.params⟩

namespace Fragment

variable {p : Profile} {f g : Fragment} {fs : List Fragment}

def render (p : Profile) (f : Fragment) : Rendered := ⟨Token.writeAll p f.tokens, f.params⟩

theorem append_assoc (f g h : Fragment) : f ++ g ++ h = f ++ (g ++ h) :=
  congrArg₂ Fragment.mk (List.append_assoc ..) (List.append_assoc ..)

theorem append_empty (f : Fragment) : f ++ .ofTokens [] = f :=
  congrArg₂ Fragment.mk (List.append_nil _) (List.append_nil _)

theorem render_append (f g : Fragment) : (f ++ g).render p = f.render p ++ g.render p := by
  simp only [render, tokens_append, params_append, Token.writeAll_append]
  rfl

theorem render_raw (sql : String) (params : List String)
    : (⟨[.raw sql], params⟩ : Fragment).render p = ⟨sql, params⟩ := by
  rw [render, Token.writeAll_raw]

@[simp]
theorem render_ofRendered (r : Rendered) : (ofRendered r).render p = r := render_raw r.sql r.params

theorem render_parens (f : Fragment)
    : f.parens.render p = ⟨"(" ++ (f.render p).sql ++ ")", (f.render p).params⟩ := by
  simp [render, parens, Token.parens, Token.writeAll, Token.write, Symbol.text, String.append_assoc]

theorem render_separated (separator : List Token) (fs : List Fragment)
    : (separated separator fs).render p
        =
      ⟨(Token.writeAll p separator).intercalate ((fs.map (render p)).map (·.sql)),
        (fs.map (render p)).flatMap (·.params)⟩ := by
  simp only [render, separated, Token.writeAll_intercalate, List.map_map, List.flatMap_map]
  rfl

/-! ### Fragments that can be written -/

def Writable (f : Fragment) : Prop := ∀ t ∈ f.tokens, t.isWritable = true

theorem serialize_eq_ok (h : f.Writable) : f.serialize p = .ok (f.render p) := by
  rw [serialize, Token.serializeAll_eq_ok h]
  rfl

@[simp]
theorem writable_append : (f ++ g).Writable ↔ f.Writable ∧ g.Writable := List.forall_mem_append

@[simp]
theorem writable_ofTokens {ts : List Token}
    : (ofTokens ts).Writable ↔ ∀ t ∈ ts, t.isWritable = true :=
  Iff.rfl

@[simp]
theorem writable_empty : empty.Writable := by simp [Writable, empty]

@[simp]
theorem writable_ofParam (name : String) : (ofParam name).Writable := by
  simp [Writable, ofParam, Token.isWritable]

@[simp]
theorem writable_ofRendered (r : Rendered) : (ofRendered r).Writable := by
  simp [Writable, ofRendered, Token.isWritable]

@[simp]
theorem writable_parens : f.parens.Writable ↔ f.Writable := Token.isWritable_parens

theorem Writable.separated {separator : List Token}
    (hseparator : ∀ t ∈ separator, t.isWritable = true) (h : ∀ f ∈ fs, f.Writable)
    : (separated separator fs).Writable :=
  Token.isWritable_intercalate hseparator (List.forall_mem_map.mpr h)

theorem Writable.commaSep (h : ∀ f ∈ fs, f.Writable) : (commaSep fs).Writable :=
  separated (by simp [Token.isWritable]) h

end Fragment

/-! ## Statements that define tables -/

theorem ObjectName.isWritable_tokens (n : ObjectName) : ∀ t ∈ n.tokens, t.isWritable = true := by
  unfold tokens Token.qualified
  split <;> simp [Token.isWritable]

theorem isWritable_columnTokens (columns : List String)
    : ∀ t ∈ columnTokens columns, t.isWritable = true :=
  Token.isWritable_parens.mpr (Token.isWritable_commaSep (by simp [Token.isWritable]))

theorem ColumnDeclaration.isWritable_tokens (c : ColumnDeclaration)
    : ∀ t ∈ c.tokens, t.isWritable = true := by
  unfold tokens
  cases c.default <;> cases c.notNull <;> cases c.autoAssign <;> simp [Token.isWritable]

theorem ConstraintRule.isWritable_tokens (rule : ConstraintRule) (p : Profile)
    : ∀ t ∈ rule.tokens p, t.isWritable = true := by
  have hdeferral (deferred : Bool) : ∀ t ∈ deferralTokens p deferred, t.isWritable = true := by
    unfold deferralTokens
    split <;> split <;> simp [Token.isWritable]
  have haction (event : Keyword) (action : ReferentialAction)
      : ∀ t ∈ actionTokens event action, t.isWritable = true := by
    unfold actionTokens
    cases action.text? <;> simp [Token.isWritable]
  cases rule with
  | primaryKey columns => exact isWritable_columnTokens columns
  | unique columns deferred =>
    exact List.forall_mem_append.mpr ⟨isWritable_columnTokens columns, hdeferral deferred⟩
  | foreignKey columns table referenced deleteAction updateAction deferred =>
    simp only [tokens, List.forall_mem_append]
    exact ⟨⟨⟨⟨⟨isWritable_columnTokens columns, by simp [Token.isWritable]⟩,
      isWritable_columnTokens referenced⟩, haction _ _⟩, haction _ _⟩, hdeferral deferred⟩

theorem Constraint.isWritable_tokens (c : Constraint) (p : Profile)
    : ∀ t ∈ c.tokens p, t.isWritable = true := by
  simp only [tokens, List.forall_mem_append]
  refine ⟨⟨⟨⟨?_, by simp [Token.isWritable]⟩, ?_⟩, c.rule.isWritable_tokens p⟩, ?_⟩
  all_goals
    split
    · cases c.name <;> simp [Token.isWritable]
    · simp

namespace DdlStatement

theorem isWritable_alterTokens (table : ObjectName)
    : ∀ t ∈ alterTokens table, t.isWritable = true := by
  simp only [alterTokens, List.forall_mem_append]
  exact ⟨⟨by simp [Token.isWritable], table.isWritable_tokens⟩, by simp [Token.isWritable]⟩

theorem isWritable_tokens (d : DdlStatement) (p : Profile)
    : ∀ t ∈ d.tokens p, t.isWritable = true := by
  cases d with
  | createTable table columns constraints =>
    simp only [tokens, List.forall_mem_append, Token.isWritable_parens]
    refine ⟨⟨⟨by simp [Token.isWritable], table.isWritable_tokens⟩, by simp [Token.isWritable]⟩,
      Token.isWritable_commaSep ?_⟩
    simp only [List.forall_mem_append, List.forall_mem_map]
    exact ⟨fun c _ => c.isWritable_tokens, fun c _ => c.isWritable_tokens p⟩
  | dropTable table | createAssignTrigger _ _ table => exact table.isWritable_tokens
  | addColumn table column =>
    simp only [tokens, List.forall_mem_append]
    exact ⟨⟨isWritable_alterTokens table, by simp [Token.isWritable]⟩, column.isWritable_tokens⟩
  | addConstraint table constraint =>
    simp only [tokens, List.forall_mem_append]
    exact ⟨⟨isWritable_alterTokens table, by simp [Token.isWritable]⟩,
      constraint.isWritable_tokens p⟩
  | dropColumn table | dropConstraint table =>
    exact List.forall_mem_append.mpr ⟨isWritable_alterTokens table, by simp [Token.isWritable]⟩
  | createIndex index table columns unique =>
    simp only [tokens, indexTokens, List.forall_mem_append]
    refine ⟨⟨⟨⟨⟨⟨⟨by simp [Token.isWritable], ?_⟩, by simp [Token.isWritable]⟩,
      index.isWritable_tokens⟩, by simp [Token.isWritable]⟩, table.isWritable_tokens⟩,
      by simp [Token.isWritable]⟩, isWritable_columnTokens columns⟩
    cases unique <;> simp [Token.isWritable]
  | createSequence sequence start increment =>
    simp only [tokens, sequenceTokens, List.forall_mem_append]
    refine ⟨⟨⟨by simp [Token.isWritable], sequence.isWritable_tokens⟩, ?_⟩, ?_⟩
    · cases start <;> simp [Token.isWritable]
    · cases increment <;> simp [Token.isWritable]
  | dropIndex name | dropSequence name =>
    exact List.forall_mem_append.mpr ⟨by simp [Token.isWritable], name.isWritable_tokens⟩
  | createAssignSequence => simp [tokens]

theorem serialize_eq_ok (d : DdlStatement) (p : Profile)
    : d.serialize p = .ok (d.layout p (Token.writeAll p (d.tokens p))) := by
  rw [serialize, Token.serializeAll_eq_ok (d.isWritable_tokens p)]
  rfl

theorem text_eq (d : DdlStatement) (p : Profile)
    : d.text p = d.layout p (Token.writeAll p (d.tokens p)) := by
  rw [text, serialize_eq_ok]
  rfl

end DdlStatement

end SqlDialect
