import BoolFormula.Parser.Basic

/-! Recursive rules. A family of parsers that refer to each other is given by its
step: each parser of the family in terms of the whole family. `unroll` runs the
step down to a chosen depth, below which every parser fails, so a depth that
exceeds the longest chain of references is as good as none. -/

namespace BoolFormula.ParserT

variable {m : Type → Type} [Monad m] {ι α : Type}

/-- The family whose step is `step`, to a depth of `n` references. -/
@[specialize] def unroll (step : (ι → ParserT m α) → ι → ParserT m α) : Nat → ι → ParserT m α
  | 0, _ => fail
  | n + 1, i => step (unroll step n) i

end BoolFormula.ParserT
