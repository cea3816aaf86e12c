/-! Boolean formulas over named variables, and their value under a lookup of
variables, which may know only some of them. -/

namespace BoolFormula

inductive Formula
  | var (name : String)
  | neg (inner : Formula)
  | conj (lhs rhs : Formula)
  | disj (lhs rhs : Formula)
deriving DecidableEq, Repr

namespace Formula

/-- The value of the formula. A variable that `lookup` does not know is false. -/
def eval (lookup : String → Option Bool) : Formula → Bool
  | var name => (lookup name).getD false
  | neg inner => !inner.eval lookup
  | conj lhs rhs => lhs.eval lookup && rhs.eval lookup
  | disj lhs rhs => lhs.eval lookup || rhs.eval lookup

/-- The formula below `count` negations. -/
def negate : Nat → Formula → Formula
  | 0, f => f
  | count + 1, f => negate count (neg f)

/-- The conjunction of two formulas, or the first alone where there is no second. -/
def conjoin (lhs : Formula) : Option Formula → Formula
  | none => lhs
  | some rhs => conj lhs rhs

/-- The disjunction of two formulas, or the first alone where there is no second. -/
def disjoin (lhs : Formula) : Option Formula → Formula
  | none => lhs
  | some rhs => disj lhs rhs

end Formula

end BoolFormula
