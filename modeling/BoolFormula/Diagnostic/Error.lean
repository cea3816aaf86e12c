import BoolFormula.Parser.Basic

/-! Why a text is refused. A parser itself only fails; it is the demand that a
whole text be read which turns an answer into an error, at the place where the
answer stopped. -/

namespace BoolFormula

inductive ParseError
  /-- The parser failed at this place. -/
  | noMatch (place : Position)
  /-- The parser succeeded, but left the text from this place on. -/
  | trailingInput (place : Position)
deriving DecidableEq, Repr

namespace ParseError

/-- The first place that was not consumed. -/
def position : ParseError → Position
  | noMatch place => place
  | trailingInput place => place

/-- The error in words, without its place. -/
def description : ParseError → String
  | noMatch _ => "Unexpected token or end of input"
  | trailingInput _ => "Unexpected trailing input"

/-- The error in words, with the line and column of its place. -/
def message (e : ParseError) : String :=
  e.description ++ " (" ++ toString e.position.line ++ ":" ++ toString e.position.col ++ ")"

end ParseError

/-- The value of an answer, provided that nothing is left of the text. -/
def Reply.result {α : Type} (r : Reply α) : Except ParseError α :=
  match r.value with
  | none => .error (.noMatch r.rest.position)
  | some a => if r.rest.atEnd then .ok a else .error (.trailingInput r.rest.position)

end BoolFormula
