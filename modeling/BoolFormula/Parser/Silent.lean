import BoolFormula.Parser.Lexical
import BoolFormula.Parser.Recursion
import BoolFormula.Trace

/-! Silent runs, one equation per parser: the answer of each combinator in terms of
the answers of its parts. -/

namespace BoolFormula.ParserT

variable {α β : Type} (p : Parser α) (q : Parser β) (c : Cursor)

theorem run_fail : Parser.run (fail : Parser α) c = .failure c := rfl

theorem run_map (f : α → β) : Parser.run (p.map f) c = (p.run c).map f := rfl

theorem run_pair : Parser.run (p.pair q) c =
    match (p.run c).value with
    | none => .failure c
    | some a =>
      match (q.run (p.run c).rest).value with
      | none => .failure c
      | some b => .success (a, b) (q.run (p.run c).rest).rest := rfl

theorem run_orElse (p q : Parser α) : Parser.run (p.orElse q) c =
    if (p.run c).isSuccess then p.run c else q.run c := rfl

theorem run_optional : Parser.run p.optional c =
    match (p.run c).value with
    | none => .success none c
    | some a => .success (some a) (p.run c).rest := rfl

theorem run_fst (p : Parser (α × β)) : Parser.run p.fst c = (p.run c).map Prod.fst := rfl

theorem run_snd (p : Parser (α × β)) : Parser.run p.snd c = (p.run c).map Prod.snd := rfl

theorem run_many : Parser.run p.many c = Parser.run (p.manyFrom (c.left + 1) []) c := rfl

theorem run_manyFrom_zero (found : List α) :
    Parser.run (p.manyFrom 0 found) c = .success found.reverse c := rfl

theorem run_manyFrom_succ (n : Nat) (found : List α) : Parser.run (p.manyFrom (n + 1) found) c =
    match (p.run c).value with
    | none => .success found.reverse c
    | some a =>
      if (p.run c).rest.offset == c.offset then .success (a :: found).reverse c
      else Parser.run (p.manyFrom n (a :: found)) (p.run c).rest := rfl

theorem run_satisfy (f : Char → Bool) : Parser.run (satisfy f) c =
    match c.peek? with
    | none => .failure c
    | some x => if f x then .success x c.advance else .failure c := rfl

theorem run_string (s : String) : Parser.run (string s) c =
    match skipList s.toList c with
    | none => .failure c
    | some rest => .success s rest := rfl

theorem run_traced (name : String) (write : α → String) :
    Parser.run (p.traced name write) c = p.run c := rfl

variable {ι : Type} (step : (ι → Parser α) → ι → Parser α) (i : ι)

theorem run_unroll_zero : Parser.run (unroll step 0 i) c = .failure c := rfl

theorem run_unroll_succ (n : Nat) :
    Parser.run (unroll step (n + 1) i) c = (step (unroll step n) i).run c := rfl

end BoolFormula.ParserT
