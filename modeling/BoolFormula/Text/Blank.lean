/-! White space in the sense of the Unicode property `White_Space`, which has 25
code points, and the trimming of texts by it. -/

namespace BoolFormula.Text

/-- Has `x` the property `White_Space`? -/
def isBlank (x : Char) : Bool :=
  ('\t' ≤ x && x ≤ '\r') || x == ' ' || x == '\u0085' || x == '\u00a0' || x == '\u1680' ||
  ('\u2000' ≤ x && x ≤ '\u200a') || x == '\u2028' || x == '\u2029' || x == '\u202f' ||
  x == '\u205f' || x == '\u3000'

/-- The list without the blanks at its end. -/
def dropBlankEnd (xs : List Char) : List Char := (xs.reverse.dropWhile isBlank).reverse

/-- The text without the blanks at either end. -/
def trim (s : String) : String := String.ofList (dropBlankEnd (s.toList.dropWhile isBlank))

/-- Does the text hold nothing but blanks? -/
def isBlankText (s : String) : Bool := s.toList.all isBlank

end BoolFormula.Text
