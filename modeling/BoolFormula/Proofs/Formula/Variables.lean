import BoolFormula.Formula.Variables
import Mathlib.Logic.Basic
import Std.Data.TreeSet.Lemmas

/-! The variables of a formula. They are the names that occur in it, in ascending order, each of
them once. No other name matters for the value of the formula. -/

namespace BoolFormula.Formula

/-- The variable occurs in the formula. -/
def Mentions (name : String) : Formula → Prop
  | var x => x = name
  | neg inner => inner.Mentions name
  | conj lhs rhs => lhs.Mentions name ∨ rhs.Mentions name
  | disj lhs rhs => lhs.Mentions name ∨ rhs.Mentions name

theorem mem_addNames {name : String} {f : Formula} {names : Std.TreeSet String} :
    name ∈ f.addNames names ↔ f.Mentions name ∨ name ∈ names := by
  induction f generalizing names with
  | var x => rw [addNames, Std.TreeSet.mem_insert, Std.LawfulEqCmp.compare_eq_iff_eq, Mentions]
  | neg inner ih => exact ih
  | conj lhs rhs ihl ihr | disj lhs rhs ihl ihr =>
    rw [addNames, ihr, ihl, Mentions, or_assoc, or_left_comm]

theorem mem_variables {name : String} {f : Formula} : name ∈ f.«variables» ↔ f.Mentions name := by
  rw [«variables», Std.TreeSet.mem_toList, mem_addNames]
  exact or_iff_left Std.TreeSet.not_mem_emptyc

/-- Names are compared code point by code point. -/
theorem compare_eq_lt_iff {x y : String} : compare x y = .lt ↔ x.toList < y.toList :=
  compareOfLessAndEq_eq_lt

/-- The names ascend. -/
theorem pairwise_variables (f : Formula) :
    f.«variables».Pairwise fun x y => x.toList < y.toList :=
  Std.TreeSet.ordered_toList.imp fun h => compare_eq_lt_iff.1 h

/-- Only the variables of a formula matter for its value, and one that is missing is false. -/
theorem eval_congr {f : Formula} {l m : String → Option Bool}
    (h : ∀ name, f.Mentions name → (l name).getD false = (m name).getD false) :
    f.eval l = f.eval m := by
  induction f with
  | var x => exact h x rfl
  | neg inner ih => rw [eval, eval, ih h]
  | conj lhs rhs ihl ihr | disj lhs rhs ihl ihr =>
    rw [eval, eval, ihl fun x hx => h x (.inl hx), ihr fun x hx => h x (.inr hx)]

end BoolFormula.Formula
