import SqlDialect.Token

/-!
This module contains pieces of statements: tokens or text, together with the names of the parameters
whose places they hold, in the order of those places.
-/

namespace SqlDialect

structure Rendered where
  sql : String
  params : List String
  deriving DecidableEq, Repr

structure Fragment where
  tokens : List Token
  params : List String
  deriving DecidableEq

namespace Fragment

def empty : Fragment := ⟨[], []⟩

instance : Append Fragment where
  append f g := ⟨f.tokens ++ g.tokens, f.params ++ g.params⟩

def ofTokens (ts : List Token) : Fragment := ⟨ts, []⟩

def ofParam (name : String) : Fragment := ⟨[.param], [name]⟩

def ofRendered (r : Rendered) : Fragment := ⟨[.raw r.sql], r.params⟩

def serialize (p : Profile) (f : Fragment) : Compile Rendered :=
  return ⟨← Token.serializeAll p f.tokens, f.params⟩

def parens (f : Fragment) : Fragment := ⟨Token.parens f.tokens, f.params⟩

def parensIf (f : Fragment) (needed : Bool) : Fragment := if needed then f.parens else f

def separated (separator : List Token) (fs : List Fragment) : Fragment :=
  ⟨separator.intercalate (fs.map (·.tokens)), fs.flatMap (·.params)⟩

def commaSep (fs : List Fragment) : Fragment := separated [.symbol .comma, .space] fs

@[simp]
theorem tokens_append (f g : Fragment) : (f ++ g).tokens = f.tokens ++ g.tokens := rfl

@[simp]
theorem params_append (f g : Fragment) : (f ++ g).params = f.params ++ g.params := rfl

end Fragment

end SqlDialect
