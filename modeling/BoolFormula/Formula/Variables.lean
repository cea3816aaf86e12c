import BoolFormula.Formula.Basic
import Std.Data.TreeSet.Basic

/-! The variables of a formula, in ascending order and each once. -/

namespace BoolFormula.Formula

/-- The names in `names`, with those of the formula added. -/
def addNames : Formula → Std.TreeSet String → Std.TreeSet String
  | var name, names => names.insert name
  | neg inner, names => inner.addNames names
  | conj lhs rhs, names => rhs.addNames (lhs.addNames names)
  | disj lhs rhs, names => rhs.addNames (lhs.addNames names)

/-- The names that occur in the formula, in the order of their code points. -/
def «variables» (f : Formula) : List String := (f.addNames ∅).toList

end BoolFormula.Formula
