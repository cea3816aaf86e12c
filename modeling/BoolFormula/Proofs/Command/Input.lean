import BoolFormula.Proofs.Command.Lines
import BoolFormula.Proofs.Reading

/-! The run on standard input, line by line. A line is answered, passed over, or ends the run, and
it does so whatever lines come before it. So a run on lines goes on from where a run on the first of
them has stopped, unless that has been ended: what it writes is put together from what they write. -/

namespace BoolFormula.Command

namespace Outcome

variable (x y z : Outcome)

theorem empty_append : empty.append x = x := by simp [append, empty]

theorem append_empty (h : x.code = 0) : x.append empty = x := by
  cases x
  cases h
  simp [append, empty]

theorem append_assoc : (x.append y).append z = x.append (y.append z) := by
  simp [append, String.append_assoc]

@[simp] theorem code_append : (x.append y).code = y.code := rfl

end Outcome

variable {s : Settings} {text : String} {f : Formula} {line : List UInt8}

/-! ### Reading and answering -/

theorem readExpression_of_ok (s : Settings) (h : Formula.ofString text = .ok f) :
    readExpression s text = .ok f := by
  rw [Formula.ofString] at h
  rw [readExpression, run_parseOrReport, h]
  rfl

theorem readExpression_of_error {e : ParseError} (s : Settings)
    (h : Formula.ofString text = .error e) :
    ∃ rendering, Id.run (parseOrReport Rule.expression.parser s.color text) = .error rendering ∧
      readExpression s text = .error (.syntaxError rendering) := by
  rw [Formula.ofString] at h
  rw [readExpression, run_parseOrReport, h]
  exact ⟨_, rfl, rfl⟩

/-- The formula has too many variables for the table that is asked for. -/
def TooWide (s : Settings) (f : Formula) : Prop :=
  s.table = true ∧ maxTableVariables < f.«variables».length

theorem answer_of_tooWide (h : TooWide s f) :
    answer s f = .error (.tooManyVariables f.«variables».length) := by
  have hnone : f.tableLines = none := by
    rw [Formula.tableLines, Formula.truthTable, if_neg (Nat.not_le.2 h.2), Option.map_none]
  rw [answer, if_pos h.1, hnone]

theorem exists_answer (h : ¬ TooWide s f) : ∃ output, answer s f = .ok output := by
  rw [answer]
  split
  · next htable =>
    have hle : f.«variables».length ≤ maxTableVariables := Nat.not_lt.1 fun hlt => h ⟨htable, hlt⟩
    rw [Formula.tableLines, Formula.truthTable, if_pos hle]
    exact ⟨_, rfl⟩
  · exact ⟨_, rfl⟩

/-! ### One line -/

/-- The line ends the run: it is not UTF-8, or a formula that is too wide. -/
def Fatal (s : Settings) (line : List UInt8) : Prop :=
  decodeLine line = none ∨ ∃ text f, decodeLine line = some text ∧ Text.isBlankText text = false ∧
    Formula.ofString text = .ok f ∧ TooWide s f

/-- There is nothing to answer on the line: it is blank or no formula. -/
def PassedOver (line : List UInt8) : Prop :=
  ∃ text, decodeLine line = some text ∧
    (Text.isBlankText text = true ∨ ∃ e, Formula.ofString text = .error e)

theorem runLine_of_blank (s : Settings) (hdecode : decodeLine line = some text)
    (hblank : Text.isBlankText text = true) : runLine s line = .empty := by
  simp only [runLine, hdecode, hblank, ↓reduceIte]

theorem runLine_of_ok (s : Settings) (hdecode : decodeLine line = some text)
    (hblank : Text.isBlankText text = false) (hf : Formula.ofString text = .ok f) :
    runLine s line = .ofResult (answer s f) := by
  simp only [runLine, hdecode, hblank, readExpression_of_ok s hf]
  rfl

theorem runLine_of_error {e : Failure} (hdecode : decodeLine line = some text)
    (hblank : Text.isBlankText text = false) (hread : readExpression s text = .error e) :
    runLine s line = ⟨0, "", e.message ++ "\n"⟩ := by
  simp only [runLine, hdecode, hblank, hread]
  rfl

theorem runLine_of_passedOver (s : Settings) (h : PassedOver line) :
    ∃ message, runLine s line = ⟨0, "", message⟩ := by
  obtain ⟨text, hdecode, h⟩ := h
  cases hblank : Text.isBlankText text with
  | true => exact ⟨"", runLine_of_blank s hdecode hblank⟩
  | false =>
    obtain ⟨e, he⟩ := h.resolve_left (by simp [hblank])
    obtain ⟨rendering, -, hread⟩ := readExpression_of_error s he
    exact ⟨rendering ++ "\n", runLine_of_error hdecode hblank hread⟩

theorem runLine_of_fatal (h : Fatal s line) : ∃ e, runLine s line = .ofResult (.error e) := by
  obtain hnone | ⟨text, f, hdecode, hblank, hf, hwide⟩ := h
  · exact ⟨.undecodable, by simp only [runLine, hnone]⟩
  · refine ⟨.tooManyVariables f.«variables».length, ?_⟩
    rw [runLine_of_ok s hdecode hblank hf, answer_of_tooWide hwide]

/-- Whatever does not end the run leaves its code at zero. -/
theorem code_runLine_of_not_fatal (h : ¬ Fatal s line) : (runLine s line).code = 0 := by
  rw [Fatal, not_or] at h
  obtain ⟨text, hdecode⟩ := Option.ne_none_iff_exists'.1 h.1
  cases hblank : Text.isBlankText text with
  | true =>
    rw [runLine_of_blank s hdecode hblank]
    rfl
  | false =>
    cases hparse : Formula.ofString text with
    | error e =>
      obtain ⟨message, hline⟩ := runLine_of_passedOver s ⟨text, hdecode, .inr ⟨e, hparse⟩⟩
      rw [hline]
    | ok f =>
      have hwide : ¬ TooWide s f := fun hwide => h.2 ⟨text, f, hdecode, hblank, hparse, hwide⟩
      obtain ⟨output, hanswer⟩ := exists_answer hwide
      rw [runLine_of_ok s hdecode hblank hparse, hanswer]
      rfl

/-! ### All lines -/

section Lines

variable (s : Settings)

theorem runLines_step (x : Outcome) (line : List UInt8) (lines : List (List UInt8)) :
    runLines s x (line :: lines) =
      if (runLine s line).code = 0 then runLines s (x.append (runLine s line)) lines
      else x.append (runLine s line) := rfl

/-- What has been written before is only kept. -/
theorem runLines_eq_append {x : Outcome} (hx : x.code = 0) (lines : List (List UInt8)) :
    runLines s x lines = x.append (runLines s .empty lines) := by
  induction lines generalizing x with
  | nil => exact (x.append_empty hx).symm
  | cons line lines ih =>
    rw [runLines_step, runLines_step, Outcome.empty_append]
    by_cases hcode : (runLine s line).code = 0
    · rw [if_pos hcode, if_pos hcode, ih (x := x.append (runLine s line)) hcode, ih hcode,
        Outcome.append_assoc]
    · rw [if_neg hcode, if_neg hcode]

theorem runLines_cons (line : List UInt8) (lines : List (List UInt8)) :
    runLines s .empty (line :: lines) =
      if (runLine s line).code = 0 then (runLine s line).append (runLines s .empty lines)
      else runLine s line := by
  rw [runLines_step, Outcome.empty_append]
  by_cases hcode : (runLine s line).code = 0
  · rw [if_pos hcode, if_pos hcode]
    exact runLines_eq_append s hcode lines
  · rw [if_neg hcode, if_neg hcode]

theorem runLines_append (lines more : List (List UInt8)) :
    runLines s .empty (lines ++ more) =
      if (runLines s .empty lines).code = 0 then
        (runLines s .empty lines).append (runLines s .empty more)
      else runLines s .empty lines := by
  induction lines with
  | nil => exact (Outcome.empty_append _).symm
  | cons line lines ih =>
    rw [List.cons_append, runLines_cons, runLines_cons, ih]
    by_cases hline : (runLine s line).code = 0
    · rw [if_pos hline, if_pos hline, Outcome.code_append]
      split
      · exact (Outcome.append_assoc _ _ _).symm
      · rfl
    · rw [if_neg hline, if_neg hline, if_neg hline]

/-- A run has the code 1 if a line ends it, and else the code 0. -/
theorem code_runLines (lines : List (List UInt8)) :
    (runLines s .empty lines).code = 0 ∧ (∀ line ∈ lines, ¬ Fatal s line) ∨
      (runLines s .empty lines).code = 1 ∧ ∃ line ∈ lines, Fatal s line := by
  induction lines with
  | nil => exact .inl ⟨rfl, by simp⟩
  | cons line lines ih =>
    rw [runLines_cons]
    by_cases hfatal : Fatal s line
    · obtain ⟨e, hline⟩ := runLine_of_fatal hfatal
      rw [hline]
      exact .inr ⟨rfl, line, List.mem_cons_self, hfatal⟩
    · rw [if_pos (code_runLine_of_not_fatal hfatal), Outcome.code_append]
      obtain ⟨hcode, hnone⟩ | ⟨hcode, other, hmem, hother⟩ := ih
      · exact .inl ⟨hcode, List.forall_mem_cons.2 ⟨hfatal, hnone⟩⟩
      · exact .inr ⟨hcode, other, List.mem_cons_of_mem _ hmem, hother⟩

end Lines

/-! ### Inputs -/

section Inputs

variable {words : List String} {a : List UInt8}

theorem run_eq_runLines (hs : Settings.ofWords words = .ok s) (hnone : s.expression = none)
    (input : List UInt8) : run words input = runLines s .empty (cutLines input) := by
  simp only [run, hs, hnone, runInput]

theorem run_append (hs : Settings.ofWords words = .ok s) (hnone : s.expression = none)
    (ha : WholeLines a) (b : List UInt8) : run words (a ++ b) =
      if (run words a).code = 0 then (run words a).append (run words b) else run words a := by
  rw [run_eq_runLines hs hnone, run_eq_runLines hs hnone, run_eq_runLines hs hnone,
    cutLines_append ha, runLines_append]

theorem run_line (hs : Settings.ofWords words = .ok s) (hnone : s.expression = none)
    (hline : lineFeed ∉ line) :
    run words (line ++ [lineFeed]) = runLine s (line ++ [lineFeed]) := by
  rw [run_eq_runLines hs hnone, cutLines_line hline, runLines_step, runLines,
    Outcome.empty_append, ite_self]

/-- Lines are independent of each other. A run on whole lines and what follows them writes what the
run on the lines writes, and goes on as the run on the rest alone, unless one of the lines ends it:
then the rest makes no difference. A line in between that is blank or no formula adds its message and
changes nothing else, and one that ends the run keeps what has been written. -/
theorem run_lines_independent (hs : Settings.ofWords words = .ok s) (hnone : s.expression = none)
    (ha : WholeLines a) (b : List UInt8) :
    ((run words a).code = 0 ∧ (∀ line ∈ cutLines a, ¬ Fatal s line) ∧
        run words (a ++ b) = ⟨(run words b).code, (run words a).stdout ++ (run words b).stdout,
          (run words a).stderr ++ (run words b).stderr⟩ ∨
      (run words a).code = 1 ∧ (∃ line ∈ cutLines a, Fatal s line) ∧
        run words (a ++ b) = run words a) ∧
    ∀ line, lineFeed ∉ line → (run words a).code = 0 →
      (PassedOver (line ++ [lineFeed]) → ∃ message,
        run words (line ++ [lineFeed]) = ⟨0, "", message⟩ ∧
        run words (a ++ (line ++ [lineFeed] ++ b)) =
          ⟨(run words b).code, (run words a).stdout ++ (run words b).stdout,
            (run words a).stderr ++ (message ++ (run words b).stderr)⟩) ∧
      (Fatal s (line ++ [lineFeed]) → ∃ e : Failure,
        run words (a ++ (line ++ [lineFeed] ++ b)) =
          ⟨1, (run words a).stdout, (run words a).stderr ++ ("Error: " ++ e.message ++ "\n")⟩) := by
  have happend := run_append hs hnone ha
  refine ⟨?_, fun line hline hcode => ⟨fun hpassed => ?_, fun hfatal => ?_⟩⟩
  · rw [happend b]
    have hcode := code_runLines s (cutLines a)
    rw [← run_eq_runLines hs hnone] at hcode
    obtain ⟨hcode, hnone'⟩ | ⟨hcode, hsome⟩ := hcode
    · exact .inl ⟨hcode, hnone', if_pos hcode⟩
    · exact .inr ⟨hcode, hsome, if_neg (by omega)⟩
  · obtain ⟨message, hrun⟩ := runLine_of_passedOver s hpassed
    rw [← run_line hs hnone hline] at hrun
    refine ⟨message, hrun, ?_⟩
    rw [happend, if_pos hcode, run_append hs hnone (wholeLines_line line), hrun]
    simp [Outcome.append]
  · obtain ⟨e, hrun⟩ := runLine_of_fatal hfatal
    rw [← run_line hs hnone hline] at hrun
    refine ⟨e, ?_⟩
    rw [happend, if_pos hcode, run_append hs hnone (wholeLines_line line), hrun]
    simp [Outcome.append, Outcome.ofResult]

/-- A table behind a line that is no formula, and in front of bytes that are not UTF-8. -/
theorem run_lines_independent_undecodable :
    Settings.ofWords ["--table"] = .ok ⟨none, [], [.table]⟩ ∧ WholeLines (encoded "a&\nx\n") ∧
      (run ["--table"] (encoded "a&\nx\n")).code = 0 ∧ (run ["--table"] [0xff]).code = 1 ∧
      run ["--table"] (encoded "a&\nx\n" ++ [0xff]) =
        ⟨(run ["--table"] [0xff]).code,
          (run ["--table"] (encoded "a&\nx\n")).stdout ++ (run ["--table"] [0xff]).stdout,
          (run ["--table"] (encoded "a&\nx\n")).stderr ++ (run ["--table"] [0xff]).stderr⟩ := by
  have hs : Settings.ofWords ["--table"] = .ok ⟨none, [], [.table]⟩ := by rfl
  have ha : WholeLines (encoded "a&\nx\n") := .inr (by decide +kernel)
  have hcode : (run ["--table"] (encoded "a&\nx\n")).code = 0 := by decide +kernel
  refine ⟨hs, ha, hcode, by decide +kernel, ?_⟩
  rcases (run_lines_independent hs rfl ha [0xff]).1 with ⟨-, -, h⟩ | ⟨hone, -, -⟩
  · exact h
  · rw [hcode] at hone
    cases hone

end Inputs

end BoolFormula.Command
