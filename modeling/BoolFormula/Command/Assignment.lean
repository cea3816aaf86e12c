import BoolFormula.Text.Blank
import BoolFormula.Text.Quoted

/-! Assignments of variables as they are given on the command line, in the form
`NAME=BOOL`. Of several assignments to one name the last counts. -/

namespace BoolFormula.Command

structure Assignment where
  name : String
  value : Bool
deriving DecidableEq, Repr

inductive AssignmentError
  /-- The text has no equals sign. -/
  | noEquals (text : String)
  /-- What follows the equals sign is no truth value. -/
  | notBoolean (value : String)
deriving DecidableEq, Repr

def AssignmentError.message : AssignmentError → String
  | noEquals text => "expected NAME=BOOL, got " ++ Text.quoted text
  | notBoolean value => "not a boolean: " ++ Text.quoted value

namespace Assignment

/-- The truth values that can be assigned. -/
def readValue? (s : String) : Option Bool :=
  if s = "true" ∨ s = "1" then some true
  else if s = "false" ∨ s = "0" then some false
  else none

/-- Reads `NAME=BOOL`. The first equals sign counts, and blanks around either side do not. -/
def ofString (s : String) : Except AssignmentError Assignment :=
  let (name, rest) := s.toList.span (· != '=')
  match rest with
  | [] => .error (.noEquals s)
  | _ :: value =>
    let value := Text.trim (String.ofList value)
    match readValue? value with
    | some b => .ok ⟨Text.trim (String.ofList name), b⟩
    | none => .error (.notBoolean value)

/-- The value that the last of `given` for `name` assigns. -/
def lookup (given : List Assignment) (name : String) : Option Bool :=
  given.foldl (fun found a => if a.name = name then some a.value else found) none

end Assignment

end BoolFormula.Command
