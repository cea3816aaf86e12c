import BoolFormula.Formula.TruthTable

/-! The written form of a truth table. The header names the columns, and each row
has its digits right-aligned below the names. -/

namespace BoolFormula

/-- The digit that stands for a truth value. -/
def digit (value : Bool) : String := if value then "1" else "0"

/-- The digit for `value`, at the right end of a column as wide as `name`. -/
def cell (name : String) (value : Bool) : String :=
  String.ofList (List.replicate (name.length - 1) ' ') ++ digit value

/-- The header over the columns `names`. -/
def tableHeader (names : List String) : String := " ".intercalate names ++ " | ="

/-- The line of a row. -/
def TruthRow.line (row : TruthRow) : String :=
  " ".intercalate (row.assignment.map fun (name, value) => cell name value) ++ " | " ++
    digit row.value

/-- The lines of the truth table of `f`, if it has one. -/
def Formula.tableLines (f : Formula) : Option (List String) :=
  f.truthTable.map fun rows => tableHeader f.«variables» :: rows.map TruthRow.line

end BoolFormula
