import BoolFormula.Command.Run

/-! The command. Standard input is read only if no expression is given. -/

open BoolFormula.Command in
def main (words : List String) : IO UInt32 := do
  let reads := match Settings.ofWords words with
    | .ok s => s.expression.isNone
    | .error _ => false
  let input ← if reads then (← IO.getStdin).readBinToEnd else pure .empty
  let outcome := run words input.toList
  IO.print outcome.stdout
  IO.eprint outcome.stderr
  return outcome.code.toUInt32
