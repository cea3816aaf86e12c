import BoolFormula.Diagnostic.Error
import BoolFormula.Text.Blank

/-! The excerpt of a text around a cursor: the line that the cursor is on, or the
part of it that fits a window, and below it a marker under what has not been
consumed of the part shown. -/

namespace BoolFormula

/-- What is written around the parts of an excerpt, such as the escape sequences that color
a terminal, and how its marker starts. -/
structure Style where
  /-- Before the line number. -/
  lineNumber : String
  /-- Before the bar between the line number and the line. -/
  separator : String
  /-- Before the marker. -/
  marker : String
  /-- Before the line and column of a report. -/
  position : String
  /-- After each of them, before plain text. -/
  plain : String
  /-- Does the marker start with a caret? -/
  caret : Bool

namespace Style

def monochrome : Style := ⟨"", "", "", "", "", true⟩

def colored : Style :=
  ⟨"\x1b[37;1m", "\x1b[34;1m", "\x1b[31m", "\x1b[33m", "\x1b[0m", true⟩

/-- The colored style, if color is wanted. -/
def ofColor (color : Bool) : Style := if color then colored else monochrome

end Style

/-- The largest number of code points that an excerpt shows of a line. -/
def windowWidth : Nat := 80

namespace Cursor

/-- The part of the cursor's line that lies before it. -/
def lineBefore (c : Cursor) : List Char := c.consumed.drop (c.offset + 1 - c.col)

/-- The part of the cursor's line from it on. -/
def lineFrom (c : Cursor) : List Char := c.remaining.takeWhile (· != '\n')

/-- The end of `lineBefore` that fits into half a window. -/
def shownBefore (c : Cursor) : List Char :=
  c.lineBefore.drop (c.lineBefore.length - windowWidth / 2)

/-- The start of `lineFrom` that fits into the rest of the window, without blanks at its end. -/
def shownFrom (c : Cursor) : List Char :=
  Text.dropBlankEnd (c.lineFrom.take (windowWidth - c.shownBefore.length))

end Cursor

/-- A line of dashes under `width` code points, at least one, the first perhaps a caret. -/
def marker (caret : Bool) (width : Nat) : List Char :=
  (if caret then '^' else '-') :: List.replicate (width - 1) '-'

/-- The line around the cursor under its number, and the marker on a second line. -/
def excerpt (style : Style) (c : Cursor) : String :=
  let number := toString c.line
  let before := c.shownBefore
  let shown := c.shownFrom
  style.lineNumber ++ number ++ " " ++ style.separator ++ "|" ++ style.plain ++ " " ++
    String.ofList before ++ String.ofList shown ++ "\n" ++
    String.ofList (List.replicate (number.length + 3 + before.length) ' ') ++
    style.marker ++ String.ofList (marker style.caret shown.length) ++ style.plain

/-- The excerpt around the cursor, with `message` and its place on a third line. -/
def report (style : Style) (c : Cursor) (message : String) : String :=
  excerpt style c ++ "\n" ++ style.position ++
    "[" ++ toString c.line ++ ":" ++ toString c.col ++ "]" ++ style.plain ++ " " ++ message

/-- The value of an answer, provided that nothing is left of the text, and else a report of
the error. -/
def Reply.resultOrReport {α : Type} (style : Style) (r : Reply α) : Except String α :=
  r.result.mapError fun e => report style r.rest e.description

end BoolFormula
