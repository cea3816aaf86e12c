import BoolFormula.Formula.Basic
import BoolFormula.Text.Quoted

/-! Two written forms of a formula. The display form puts the operator in front of
its parenthesized operands, and names between single quotes as they are. The
constructor form spells out the tree, with names quoted. Either is written onto
the end of a text, and the lemmas say what it is on its own. -/

namespace BoolFormula.Formula

/-- The text `s`, with the display form of the formula after it. -/
def displayOnto (s : String) : Formula → String
  | var name => s ++ "'" ++ name ++ "'"
  | neg inner => inner.displayOnto (s ++ "!(") ++ ")"
  | conj lhs rhs => rhs.displayOnto (lhs.displayOnto (s ++ "&(") ++ ",") ++ ")"
  | disj lhs rhs => rhs.displayOnto (lhs.displayOnto (s ++ "|(") ++ ",") ++ ")"

/-- The display form, such as `&('a',!('b'))`. -/
def display (f : Formula) : String := f.displayOnto ""

/-- The text `s`, with the constructor form of the formula after it. -/
def describeOnto (s : String) : Formula → String
  | var name => s ++ "Var(" ++ Text.quoted name ++ ")"
  | neg inner => inner.describeOnto (s ++ "Not(") ++ ")"
  | conj lhs rhs => rhs.describeOnto (lhs.describeOnto (s ++ "And(") ++ ", ") ++ ")"
  | disj lhs rhs => rhs.describeOnto (lhs.describeOnto (s ++ "Or(") ++ ", ") ++ ")"

/-- The constructor form, such as `And(Var("a"), Not(Var("b")))`. -/
def describe (f : Formula) : String := f.describeOnto ""

theorem displayOnto_eq (s : String) (f : Formula) : f.displayOnto s = s ++ f.display := by
  induction f generalizing s with
  | var name => simp [display, displayOnto, String.append_assoc]
  | neg inner ih => simp [display, displayOnto, ih (_ ++ _), ih "!(", String.append_assoc]
  | conj lhs rhs ihl ihr | disj lhs rhs ihl ihr =>
    simp only [display, displayOnto]
    rw [ihl, ihr, ihl, ihr]
    simp [String.append_assoc]

@[simp] theorem display_var (name : String) : (var name).display = "'" ++ name ++ "'" := by
  show "" ++ "'" ++ name ++ "'" = _
  rw [String.empty_append]

@[simp] theorem display_neg (f : Formula) : (neg f).display = "!(" ++ f.display ++ ")" := by
  show f.displayOnto ("" ++ "!(") ++ ")" = _
  rw [displayOnto_eq, String.empty_append]

@[simp] theorem display_conj (f g : Formula) :
    (conj f g).display = "&(" ++ f.display ++ "," ++ g.display ++ ")" := by
  show g.displayOnto (f.displayOnto ("" ++ "&(") ++ ",") ++ ")" = _
  rw [displayOnto_eq, displayOnto_eq, String.empty_append]

@[simp] theorem display_disj (f g : Formula) :
    (disj f g).display = "|(" ++ f.display ++ "," ++ g.display ++ ")" := by
  show g.displayOnto (f.displayOnto ("" ++ "|(") ++ ",") ++ ")" = _
  rw [displayOnto_eq, displayOnto_eq, String.empty_append]

theorem describeOnto_eq (s : String) (f : Formula) : f.describeOnto s = s ++ f.describe := by
  induction f generalizing s with
  | var name => simp [describe, describeOnto, String.append_assoc]
  | neg inner ih => simp [describe, describeOnto, ih (_ ++ _), ih "Not(", String.append_assoc]
  | conj lhs rhs ihl ihr | disj lhs rhs ihl ihr =>
    simp only [describe, describeOnto]
    rw [ihl, ihr, ihl, ihr]
    simp [String.append_assoc]

@[simp] theorem describe_var (name : String) :
    (var name).describe = "Var(" ++ Text.quoted name ++ ")" := by
  show "" ++ "Var(" ++ Text.quoted name ++ ")" = _
  rw [String.empty_append]

@[simp] theorem describe_neg (f : Formula) : (neg f).describe = "Not(" ++ f.describe ++ ")" := by
  show f.describeOnto ("" ++ "Not(") ++ ")" = _
  rw [describeOnto_eq, String.empty_append]

@[simp] theorem describe_conj (f g : Formula) :
    (conj f g).describe = "And(" ++ f.describe ++ ", " ++ g.describe ++ ")" := by
  show g.describeOnto (f.describeOnto ("" ++ "And(") ++ ", ") ++ ")" = _
  rw [describeOnto_eq, describeOnto_eq, String.empty_append]

@[simp] theorem describe_disj (f g : Formula) :
    (disj f g).describe = "Or(" ++ f.describe ++ ", " ++ g.describe ++ ")" := by
  show g.describeOnto (f.describeOnto ("" ++ "Or(") ++ ", ") ++ ")" = _
  rw [describeOnto_eq, describeOnto_eq, String.empty_append]

end BoolFormula.Formula
