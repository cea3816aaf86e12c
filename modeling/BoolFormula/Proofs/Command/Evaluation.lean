import BoolFormula.Proofs.Command.Options
import BoolFormula.Proofs.Command.Table
import BoolFormula.Proofs.Formula.Relevance

/-! Evaluating under assignments. Without a table the answer to an expression is its value where
every variable has the value of the last assignment to it, and is false if there is none. So two
runs that differ in their assignments only are the same run if the assignments give every variable
that is asked for the same value, and they are the same in any case if tables are printed. -/

namespace BoolFormula

/-! ### Texts that are read are not blank -/

theorem exists_letter_of_derives {r : Rule} {t : List Char} (h : Derives r t f) :
    ∃ x ∈ t, Letter x := by
  induction h with
  | var _ hx _ => exact ⟨_, by simp, hx⟩
  | disjunction _ ih | conjunction _ ih | negation _ ih | atom _ ih => exact ih
  | expression _ _ ih | not _ _ ih | parens _ _ _ ih | or _ _ _ ih _ | and _ _ _ ih _ =>
    obtain ⟨x, hx, hletter⟩ := ih
    exact ⟨x, by simp [hx], hletter⟩

theorem Letter.graphic {x : Char} (h : Letter x) : ' ' < x ∧ x ≤ '~' := by
  obtain h | h | rfl := h
  · exact ⟨lt_of_lt_of_le (by decide) h.1, le_trans h.2 (by decide)⟩
  · exact ⟨lt_of_lt_of_le (by decide) h.1, le_trans h.2 (by decide)⟩
  · decide

/-- No blank is among the graphic code points of ASCII. -/
theorem not_isBlank_of_graphic {x : Char} (h : ' ' < x ∧ x ≤ '~') : Text.isBlank x = false := by
  rw [← Bool.not_eq_true, Text.isBlank]
  simp only [Bool.or_eq_true, Bool.and_eq_true, decide_eq_true_eq, beq_iff_eq]
  rintro ((((((((((hx | rfl) | rfl) | rfl) | rfl) | hx) | rfl) | rfl) | rfl) | rfl) | rfl)
  any_goals (revert h; decide)
  · exact absurd (lt_of_lt_of_le h.1 hx.2) (by decide)
  · exact absurd (le_trans hx.1 h.2) (by decide)

theorem isBlankText_of_ofString {text : String} {f : Formula}
    (hf : Formula.ofString text = .ok f) :
    Text.isBlankText text = false := by
  obtain ⟨x, hx, hletter⟩ := exists_letter_of_derives (Grammar.run_parse_rule_eq_ok_iff.1 hf)
  rw [Text.isBlankText, List.all_eq_false]
  exact ⟨x, hx, Bool.not_eq_true _ ▸ not_isBlank_of_graphic hletter.graphic⟩

namespace Command

open Assignment (Final Inert Written final_iff lookup)

variable {s s' : Settings} {words words' : List String} {text : String} {f : Formula}
  {input line : List UInt8}

/-! ### The value that is printed -/

theorem answer_of_value (htable : s.table = false) (f : Formula) :
    answer s f = .ok (toString (f.eval (lookup s.assignments)) ++ "\n") := by
  rw [answer, htable]
  cases f.eval (lookup s.assignments) <;> rfl

theorem run_of_line (hs : Settings.ofWords words = .ok s) (hnone : s.expression = none)
    (hline : lineFeed ∉ line) (hdecode : decodeLine (line ++ [lineFeed]) = some text)
    (hf : Formula.ofString text = .ok f) :
    run words (line ++ [lineFeed]) = .ofResult (answer s f) := by
  rw [run_line hs hnone hline, runLine_of_ok s hdecode (isBlankText_of_ofString hf) hf]

/-! ### Runs that are the same -/

/-- The texts that a run reads: the expression, or else the lines of the input. -/
def Asked (s : Settings) (input : List UInt8) (text : String) : Prop :=
  s.expression = some text ∨
    s.expression = none ∧ ∃ line ∈ cutLines input, decodeLine line = some text

/-- The settings differ in the assignments only. -/
structure Alike (s s' : Settings) : Prop where
  expression : s.expression = s'.expression
  table : s.table = s'.table
  color : s.color = s'.color

theorem Alike.readExpression (h : Alike s s') (text : String) :
    readExpression s text = readExpression s' text := by
  rw [Command.readExpression, Command.readExpression, h.color]

theorem Alike.answer (h : Alike s s') (hvalue : s.table = true ∨
    f.eval (lookup s.assignments) = f.eval (lookup s'.assignments)) : answer s f = answer s' f := by
  rw [Command.answer, Command.answer, ← h.table]
  obtain htable | hvalue := hvalue
  · rw [if_pos htable, if_pos htable]
  · rw [hvalue]

theorem Alike.read_answer (h : Alike s s')
    (hanswer : ∀ f, Formula.ofString text = .ok f → Command.answer s f = Command.answer s' f) :
    (Command.readExpression s text >>= Command.answer s) =
      (Command.readExpression s' text >>= Command.answer s') := by
  rw [← h.readExpression]
  cases hparse : Formula.ofString text with
  | error e =>
    obtain ⟨rendering, -, hread⟩ := readExpression_of_error s hparse
    rw [hread]
    rfl
  | ok f =>
    rw [readExpression_of_ok s hparse]
    exact hanswer f hparse

theorem Alike.runLine (h : Alike s s')
    (hanswer : ∀ text f, decodeLine line = some text → Formula.ofString text = .ok f →
      Command.answer s f = Command.answer s' f) : runLine s line = runLine s' line := by
  cases hdecode : decodeLine line with
  | none => simp only [Command.runLine, hdecode]
  | some text =>
    cases hblank : Text.isBlankText text with
    | true => rw [runLine_of_blank s hdecode hblank, runLine_of_blank s' hdecode hblank]
    | false =>
      cases hparse : Formula.ofString text with
      | error e =>
        obtain ⟨rendering, -, hread⟩ := readExpression_of_error s hparse
        rw [runLine_of_error hdecode hblank hread,
          runLine_of_error hdecode hblank ((h.readExpression text).symm.trans hread)]
      | ok f =>
        rw [runLine_of_ok s hdecode hblank hparse, runLine_of_ok s' hdecode hblank hparse,
          hanswer text f hdecode hparse]

theorem runLines_congr {lines : List (List UInt8)}
    (h : ∀ line ∈ lines, runLine s line = runLine s' line) (x : Outcome) :
    runLines s x lines = runLines s' x lines := by
  induction lines generalizing x with
  | nil => rfl
  | cons line lines ih =>
    rw [List.forall_mem_cons] at h
    rw [runLines_step, runLines_step, h.1, ih h.2]

theorem run_congr (hs : Settings.ofWords words = .ok s) (hs' : Settings.ofWords words' = .ok s')
    (h : Alike s s')
    (hanswer : ∀ text f, Asked s input text → Formula.ofString text = .ok f →
      answer s f = answer s' f) : run words input = run words' input := by
  cases hexpression : s.expression with
  | some text =>
    have hexpression' := h.expression.symm.trans hexpression
    simp only [run, hs, hs', hexpression, hexpression', runExpression]
    rw [h.read_answer fun f => hanswer text f (.inl hexpression)]
  | none =>
    rw [run_eq_runLines hs hexpression, run_eq_runLines hs' (h.expression.symm.trans hexpression)]
    refine runLines_congr (fun line hline => h.runLine fun text f hdecode => ?_) _
    exact hanswer text f (.inr ⟨hexpression, line, hline, hdecode⟩)

/-- Assignments are a map in which the last one to a name counts, and only the names of variables
matter. A command line whose values are all accepted gives them in their order. Without a table the
run prints the value of the expression where each variable has the value of the last assignment to
it, or false if there is none, be the expression an argument or a line of the input. Two runs with
the same flags and expression are the same if their assignments differ by a change that is inert for
all that is read, or if tables are printed. -/
theorem last_assignments_decide :
    (∀ {words values : List String} {given : List Assignment} {flags : List Flag}
      {e : Option String}, Line words values flags e → List.Forall₂ Written values given →
        flags.Nodup → Settings.ofWords words = .ok ⟨e, given, flags⟩) ∧
    ∀ {words : List String} {s : Settings}, Settings.ofWords words = .ok s →
      (s.table = false → ∃ value : String → Bool,
        (∀ name, Final s.assignments name (value name)) ∧
        ∀ text f, Formula.ofString text = .ok f →
          (s.expression = some text → ∀ input,
            run words input = ⟨0, toString (f.eval fun name => some (value name)) ++ "\n", ""⟩) ∧
          (s.expression = none → ∀ line, lineFeed ∉ line →
            decodeLine (line ++ [lineFeed]) = some text → run words (line ++ [lineFeed]) =
              ⟨0, toString (f.eval fun name => some (value name)) ++ "\n", ""⟩)) ∧
      ∀ {words' : List String} {s' : Settings}, Settings.ofWords words' = .ok s' → Alike s s' →
        ∀ input, (s.table = true ∨ ∀ text f, Asked s input text → Formula.ofString text = .ok f →
          Inert f s.assignments s'.assignments) → run words input = run words' input := by
  refine ⟨ofWords_of_line, fun {words s} hs => ⟨fun htable => ?_, fun {words' s'} hs' halike => ?_⟩⟩
  · refine ⟨fun name => (lookup s.assignments name).getD false, fun _ => final_iff.2 rfl,
      fun text f hf => ?_⟩
    have hvalue : f.eval (lookup s.assignments) =
        f.eval fun name => some ((lookup s.assignments name).getD false) :=
      Formula.eval_congr_variables fun _ _ => rfl
    refine ⟨fun hexpression input => ?_, fun hnone line hline hdecode => ?_⟩
    · rw [run_of_expression hs hexpression hf, answer_of_value htable, hvalue]
      rfl
    · rw [run_of_line hs hnone hline hdecode hf, answer_of_value htable, hvalue]
      rfl
  · intro input hinert
    refine run_congr hs hs' halike fun text f hasked hf => halike.answer ?_
    refine hinert.imp_right fun hinert => Formula.eval_congr_variables fun name hname => ?_
    exact (hinert text f hasked hf).getD_lookup hname

/-- A value is assigned once more behind the expression. -/
theorem last_assignments_decide_again :
    Settings.ofWords ["--set", "b=0", "a & b", "-a=" ++ "a=1", "-a" ++ "b = true "] =
        .ok ⟨some "a & b", [⟨"b", false⟩, ⟨"a", true⟩, ⟨"b", true⟩], []⟩ ∧
      run ["--set", "b=0", "a & b", "-a=" ++ "a=1", "-a" ++ "b = true "] [] =
        ⟨0, "true\n", ""⟩ ∧
      run ["--set", "b=0", "a & b", "-a=" ++ "a=1", "-a" ++ "b = true "] [] =
        run ["a & b", "--set=a=1", "-ab=1"] [] := by
  have hline : Line ["--set", "b=0", "a & b", "-a=" ++ "a=1", "-a" ++ "b = true "]
      ["b=0", "a=1", "b = true "] [] (some "a & b") :=
    .assign (.next (by decide) (by simp [Plain])) <| .expression (by simp [Plain]) <|
      .assign (.attached (by decide)) <| .assign (.joined rfl (by decide)) .nil
  have hvalues : List.Forall₂ Written ["b=0", "a=1", "b = true "]
      [⟨"b", false⟩, ⟨"a", true⟩, ⟨"b", true⟩] := by
    simp only [← Assignment.ofString_eq_ok_iff, List.forall₂_cons, List.Forall₂.nil, and_true]
    exact ⟨rfl, rfl, rfl⟩
  have hs := last_assignments_decide.1 hline hvalues List.nodup_nil
  have hs' : Settings.ofWords ["a & b", "--set=a=1", "-ab=1"] =
      .ok ⟨some "a & b", [⟨"a", true⟩, ⟨"b", true⟩], []⟩ := by rfl
  obtain ⟨hvalue, hsame⟩ := last_assignments_decide.2 hs
  obtain ⟨value, hfinal, hrun⟩ := hvalue rfl
  have hparse : Formula.ofString "a & b" = .ok (.conj (.var "a") (.var "b")) := rfl
  have ha : value "a" = true := (final_iff.1 (hfinal "a")).symm
  have hb : value "b" = true := (final_iff.1 (hfinal "b")).symm
  refine ⟨hs, ?_, hsame hs' ⟨rfl, rfl, rfl⟩ [] (.inr fun _ _ _ _ => ?_)⟩
  · rw [(hrun _ _ hparse).1 rfl [], Formula.eval, Formula.eval, Formula.eval, ha, hb]
    rfl
  · exact @Inert.overridden _ [] _ _ ⟨⟨"b", true⟩, by simp, rfl⟩

end Command

end BoolFormula
