/-!
# Columns and lists

Texts padded to a column width, and lists of numbers written in brackets.

## Main definitions

* `alignRight`, `alignLeft`: Padding with blanks.
* `bracketed`: A list with commas, in square brackets.
-/

namespace OuterApprox

namespace Text

/-- Blanks in front, up to `width` characters. -/
def alignRight (width : Nat) (s : String) : String :=
  String.ofList (List.replicate (width - s.length) ' ') ++ s

/-- Blanks behind, up to `width` characters. -/
def alignLeft (width : Nat) (s : String) : String :=
  s ++ String.ofList (List.replicate (width - s.length) ' ')

/-- Items in square brackets, separated by a comma and a blank. -/
def bracketed (items : List String) : String :=
  "[" ++ String.intercalate ", " items ++ "]"

/-- Indices in square brackets. -/
def indexList (is : List Nat) : String := bracketed (is.map toString)

end Text

end OuterApprox
