import BoolFormula.Formula.Variables

/-! The truth table of a formula: its value under every assignment of its
variables. Read as binary numbers, the first variable leading, the assignments
count up from zero. A table doubles with every variable, so there is none for
formulas that have too many. -/

namespace BoolFormula

/-- The largest number of variables that a truth table has. -/
def maxTableVariables : Nat := 16

/-- Every assignment of `names`, those that make the first name false before the others. -/
def assignments : List String → List (List (String × Bool))
  | [] => [[]]
  | name :: names =>
    let rest := assignments names
    rest.map ((name, false) :: ·) ++ rest.map ((name, true) :: ·)

/-- An assignment, with a value for each variable in ascending order, and the value of the
formula under it. -/
structure TruthRow where
  assignment : List (String × Bool)
  value : Bool
deriving DecidableEq, Repr

namespace Formula

/-- The row of the formula for an assignment. -/
def row (f : Formula) (assignment : List (String × Bool)) : TruthRow :=
  ⟨assignment, f.eval (assignment.lookup ·)⟩

/-- The rows of the formula, unless it has more than `maxTableVariables` variables. -/
def truthTable (f : Formula) : Option (List TruthRow) :=
  let names := f.«variables»
  if names.length ≤ maxTableVariables then some ((assignments names).map f.row) else none

end Formula

end BoolFormula
