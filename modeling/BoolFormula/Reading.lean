import BoolFormula.Diagnostic.Excerpt
import BoolFormula.Formula.Grammar

/-! Reading a whole text, with the error as a value or as a report. -/

namespace BoolFormula

variable {m : Type → Type} [Monad m] [MonadTrace m] {α : Type}

/-- The value of `p` on the whole of `text`. -/
@[inline] def parse (p : ParserT m α) (text : String) : m (Except ParseError α) := do
  let r ← p (.ofString text)
  match r.result with
  | .ok a => pure (.ok a)
  | .error e =>
    MonadTrace.tell fun _ => .refusal text (some e)
    pure (.error e)

/-- The value of `p` on the whole of `text`, or a report of where the reading stopped. -/
@[inline] def parseOrReport (p : ParserT m α) (color : Bool) (text : String) :
    m (Except String α) := do
  let r ← p (.ofString text)
  match r.resultOrReport (.ofColor color) with
  | .ok a => pure (.ok a)
  | .error e =>
    MonadTrace.tell fun _ => .refusal text none
    pure (.error e)

/-- The formula that `text` is. -/
def Formula.ofString (text : String) : Except ParseError Formula :=
  Id.run (parse Rule.expression.parser text)

end BoolFormula
