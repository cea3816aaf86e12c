import BoolFormula.Proofs.Parser.Answer
import BoolFormula.Reading

/-! Reading a whole text, in terms of what the parser finds at its start: a value with nothing left
behind it, a value with something left, or nothing. -/

namespace BoolFormula

open BoolFormula.Parser MonadAnswer

variable {α : Type}

/-- Telling of a refusal does not change the answer. -/
theorem answer_parse {m : Type → Type} [Monad m] [MonadTrace m] [MonadAnswer m]
    (p : ParserT m α) (text : String) :
    answer (parse p text) = (run p.silent (.ofString text)).result := by
  simp only [parse, answer_bind, ParserT.answer_apply p]
  cases (run p.silent (.ofString text)).result with
  | ok a => exact answer_pure _
  | error e =>
    simp only [answer_bind]
    exact answer_pure _

theorem answer_parseOrReport {m : Type → Type} [Monad m] [MonadTrace m] [MonadAnswer m]
    (p : ParserT m α) (color : Bool) (text : String) : answer (parseOrReport p color text) =
      (run p.silent (.ofString text)).resultOrReport (.ofColor color) := by
  simp only [parseOrReport, answer_bind, ParserT.answer_apply p]
  cases (run p.silent (.ofString text)).resultOrReport (.ofColor color) with
  | ok a => exact answer_pure _
  | error e =>
    simp only [answer_bind]
    exact answer_pure _

variable {p : Parser α} {text : String} {a : α} {place : Position}

theorem run_parse (p : Parser α) (text : String) :
    Id.run (parse p text) = (p.run (.ofString text)).result := answer_parse p text

/-- The report tells of the error that is the value of the same reading. -/
theorem run_parseOrReport (p : Parser α) (color : Bool) (text : String) :
    Id.run (parseOrReport p color text) = (Id.run (parse p text)).mapError fun e =>
      report (.ofColor color) (p.run (.ofString text)).rest e.description := by
  rw [run_parse]
  exact answer_parseOrReport p color text

theorem run_parse_of_some {d : Cursor} (h : p.read? (.ofString text) = some (a, d)) :
    Id.run (parse p text) =
      if d.remaining = [] then .ok a else .error (.trailingInput d.position) := by
  rw [run_parse, read?_eq_some_iff.1 h]
  simp only [Reply.result, Reply.success, Cursor.atEnd_iff]

theorem run_parse_of_none (hp : Upholds p) (h : p.read? (.ofString text) = none) :
    Id.run (parse p text) = .error (.noMatch ⟨0, 1, 1⟩) := by
  rw [run_parse, hp.failure h]
  simp only [Reply.result, Reply.failure, Cursor.position, Cursor.line_eq, Cursor.col_eq]
  rfl

theorem run_parse_eq_ok_iff (hp : Upholds p) : Id.run (parse p text) = .ok a ↔
    ∃ d, p.read? (.ofString text) = some (a, d) ∧ d.remaining = [] := by
  cases h : p.read? (.ofString text) with
  | none => simp [run_parse_of_none hp h]
  | some bd =>
    obtain ⟨b, d⟩ := bd
    rw [run_parse_of_some h]
    split <;> grind

theorem run_parse_eq_noMatch_iff (hp : Upholds p) :
    Id.run (parse p text) = .error (.noMatch place) ↔
      p.read? (.ofString text) = none ∧ place = ⟨0, 1, 1⟩ := by
  cases h : p.read? (.ofString text) with
  | none => simp [run_parse_of_none hp h, eq_comm]
  | some bd =>
    obtain ⟨b, d⟩ := bd
    rw [run_parse_of_some h]
    split <;> simp

theorem run_parse_eq_trailingInput_iff (hp : Upholds p) :
    Id.run (parse p text) = .error (.trailingInput place) ↔
      ∃ a d, p.read? (.ofString text) = some (a, d) ∧ d.remaining ≠ [] ∧ place = d.position := by
  cases h : p.read? (.ofString text) with
  | none => simp [run_parse_of_none hp h]
  | some bd =>
    obtain ⟨b, d⟩ := bd
    rw [run_parse_of_some h]
    split <;> grind

end BoolFormula
