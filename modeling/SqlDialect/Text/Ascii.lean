/-!
This module contains the case rules that look at ASCII letters only. Names of schema objects,
reserved words and type names are compared under them.
-/

namespace SqlDialect
namespace Text

def upperAscii (s : String) : String :=
  String.ofList (s.toList.map Char.toUpper)

def eqIgnoringCase (s t : String) : Bool :=
  upperAscii s == upperAscii t

@[simp]
theorem toList_upperAscii (s : String) : (upperAscii s).toList = s.toList.map Char.toUpper := by
  simp [upperAscii]

theorem eqIgnoringCase_iff {s t : String} :
    eqIgnoringCase s t = true ↔ upperAscii s = upperAscii t := by
  simp [eqIgnoringCase]

end Text
end SqlDialect
