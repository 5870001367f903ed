/-!
This module contains quotation: a text is put between two delimiters, and a closing delimiter inside
the text is written twice.
-/

namespace SqlDialect
namespace Text

def double (close : Char) : List Char → List Char
  | [] => []
  | c :: cs => if c = close then c :: c :: double close cs else c :: double close cs

def quote (opening closing : Char) (s : String) : String :=
  String.ofList (opening :: (double closing s.toList ++ [closing]))

def quoteString (s : String) : String :=
  quote '\'' '\'' s

@[simp]
theorem toList_quote (opening closing : Char) (s : String) :
    (quote opening closing s).toList = opening :: (double closing s.toList ++ [closing]) := by
  simp [quote]

theorem double_append (close : Char) (cs ds : List Char) :
    double close (cs ++ ds) = double close cs ++ double close ds := by
  induction cs with
  | nil => rfl
  | cons c cs ih => by_cases h : c = close <;> simp [double, h, ih]

theorem double_eq_self {close : Char} {cs : List Char} (h : close ∉ cs) : double close cs = cs := by
  induction cs with
  | nil => rfl
  | cons c cs ih => grind [double]

end Text
end SqlDialect
