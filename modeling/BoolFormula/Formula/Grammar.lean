import BoolFormula.Formula.Printing
import BoolFormula.Parser.Silent

/-! The grammar of formulas.

    expression  ::= disjunction spaces
    disjunction ::= conjunction ("|" disjunction)?
    conjunction ::= negation ("&" conjunction)?
    negation    ::= "!"* atom
    atom        ::= variable | "(" expression ")"
    variable    ::= [a-zA-Z_][a-zA-Z0-9_]*

Spaces are allowed in front of every symbol and identifier, and at the end of an
expression. Both operators group to the right, and a conjunction binds tighter. -/

namespace BoolFormula

/-- The rules that yield formulas. -/
inductive Rule
  | expression | disjunction | conjunction | negation | atom | variable
deriving DecidableEq, Repr

def Rule.name : Rule → String
  | .expression => "expression"
  | .disjunction => "disjunction"
  | .conjunction => "conjunction"
  | .negation => "negation"
  | .atom => "atom"
  | .variable => "variable"

namespace Grammar

open ParserT

variable {m : Type → Type} [Monad m]

/-- Counts the marks in front of an atom. -/
@[inline] def exclamationMarks : ParserT m Nat := (token "!").many.map List.length

/-- Each rule in terms of all of them. -/
@[inline] def body (rule : Rule → ParserT m Formula) : Rule → ParserT m Formula
  | .expression => ((rule .disjunction).pair spaces).fst
  | .disjunction =>
    ((rule .conjunction).pair ((token "|").pair (rule .disjunction)).snd.optional).map
      fun (lhs, rhs) => lhs.disjoin rhs
  | .conjunction =>
    ((rule .negation).pair ((token "&").pair (rule .conjunction)).snd.optional).map
      fun (lhs, rhs) => lhs.conjoin rhs
  | .negation => (exclamationMarks.pair (rule .atom)).map fun (count, inner) => inner.negate count
  | .atom => (rule .variable).orElse (((token "(").pair (rule .expression)).pair (token ")")).fst.snd
  | .variable => (afterSpaces identifier).map .var

variable [MonadTrace m]

/-- The same, with each rule traced under its name. -/
@[inline] def step (rule : Rule → ParserT m Formula) (r : Rule) : ParserT m Formula :=
  (body rule r).traced r.name Formula.describe

end Grammar

/-- The parser of a rule. Between two code points consumed, no rule refers to itself, so with
`k` code points left no chain of references is longer than `6 * (k + 1)`. -/
@[specialize] def Rule.parser {m : Type → Type} [Monad m] [MonadTrace m] (r : Rule) :
    ParserT m Formula :=
  fun c => ParserT.unroll Grammar.step (6 * (c.left + 1)) r c

namespace Grammar

theorem run_step (rule : Rule → Parser Formula) (r : Rule) (c : Cursor) :
    Parser.run (step rule r) c = Parser.run (body rule r) c := rfl

theorem run_rule (r : Rule) (c : Cursor) :
    Parser.run r.parser c = Parser.run (ParserT.unroll step (6 * (c.left + 1)) r) c := by
  simp only [Parser.run, Rule.parser]

end Grammar

end BoolFormula
