import BoolFormula.Proofs.Command.Input

/-! One expression, given as an argument or on a line of the input. Words that end the options and
give the expression add nothing to the settings but that, and a line is read back as the text that
was written on it. So both ways have the same answer, and differ only in what they make of a text
that is no formula: an argument ends the run with an error, and a line is passed over. -/

namespace BoolFormula.Command

theorem exists_of_bind_eq_ok {ε α β : Type} {x : Except ε α} {g : α → Except ε β} {b : β}
    (h : x >>= g = .ok b) : ∃ a, x = .ok a ∧ g a = .ok b := by
  cases x with
  | error e => cases h
  | ok a => exact ⟨a, rfl, h⟩

namespace Scan

/-- What a word does that is not the end of the options. -/
def step (s : Scan) (word : String) : Except UsageError Scan :=
  match word.toList with
  | '-' :: '-' :: name => s.long name
  | '-' :: x :: xs => s.short (x :: xs)
  | _ => s.plain word

theorem words_cons {word : String} (h : word ≠ "--") (rest : List String) (s : Scan) :
    words (word :: rest) s = s.step word >>= words rest := by
  rw [words, step]
  split
  · next hend => exact absurd (String.toList_inj.1 hend) h
  · next hlong => rw [hlong]; rfl
  · next hshort => simp only [hshort]
  · next hlong hshort =>
    split
    · next name hname => exact absurd hname (hlong name)
    · next x xs _ hxs => exact absurd hxs (hshort x xs)
    · rfl

/-- The words before the end of the options are scanned one by one. -/
theorem words_append {ws : List String} (h : "--" ∉ ws) (more : List String) (s : Scan) :
    words (ws ++ more) s = ws.foldlM step s >>= words more := by
  induction ws generalizing s with
  | nil => rfl
  | cons word ws ih =>
    rw [List.mem_cons, not_or] at h
    rw [List.cons_append, words_cons (Ne.symm h.1), List.foldlM_cons, bind_assoc]
    exact bind_congr fun t => ih h.2 t

variable {s t : Scan}

/-- What is settled is settled for good, and there is no expression in it. -/
theorem settle_eq_ok (h : s.settle = .ok t) :
    t.pending = .nothing ∧ t.settings.expression = s.settings.expression := by
  rw [settle] at h
  split at h
  · next hnothing =>
    cases h
    exact ⟨hnothing, rfl⟩
  · cases h
  · rw [assign] at h
    split at h
    · cases h
      exact ⟨rfl, rfl⟩
    · cases h

/-- A text behind the end of the options is the expression, if there is none yet. -/
theorem words_expression (h : s.settle = .ok t) (hnone : t.settings.expression = none)
    (text : String) :
    words ["--", text] s = .ok { t with settings.expression := some text } := by
  obtain ⟨hnothing, hexpression⟩ := settle_eq_ok h
  have hpositional : s.positional text = .ok { t with settings.expression := some text } := by
    rw [positional, ← hexpression, hnone, h]
    rfl
  have hsettled : settle { t with settings.expression := some text } =
      .ok { t with settings.expression := some text } := by
    rw [settle, hnothing]
  have hwords : words ["--", text] s = [text].foldlM (fun s word => positional word s) s >>= settle :=
    rfl
  rw [hwords, List.foldlM_cons, hpositional]
  exact hsettled

end Scan

/-- Words that are accepted are scanned one by one, and what is pending then is settled. -/
theorem exists_settle_of_ofWords {words : List String} {s : Settings}
    (hs : Settings.ofWords words = .ok s) (hwords : "--" ∉ words) :
    ∃ t u, words.foldlM Scan.step Scan.start = .ok t ∧ t.settle = .ok u ∧ u.settings = s := by
  obtain ⟨u, hscan, rfl⟩ : ∃ u, Scan.start.words words = .ok u ∧ u.settings = s := by
    rw [Settings.ofWords] at hs
    cases hscan : Scan.start.words words with
    | error e =>
      rw [hscan] at hs
      cases hs
    | ok u =>
      rw [hscan] at hs
      exact ⟨u, rfl, Except.ok.inj hs⟩
  rw [← List.append_nil words, Scan.words_append hwords] at hscan
  obtain ⟨t, hfold, hsettle⟩ := exists_of_bind_eq_ok hscan
  exact ⟨t, u, hfold, hsettle, rfl⟩

/-- Behind words that give options only, an expression is added to what they give. -/
theorem ofWords_expression {words : List String} {s : Settings} (hs : Settings.ofWords words = .ok s)
    (hnone : s.expression = none) (hwords : "--" ∉ words) (text : String) :
    Settings.ofWords (words ++ ["--", text]) = .ok { s with expression := some text } := by
  obtain ⟨t, u, hfold, hsettle, rfl⟩ := exists_settle_of_ofWords hs hwords
  rw [Settings.ofWords, Scan.words_append hwords, hfold]
  exact congrArg (Except.map Scan.settings) (Scan.words_expression hsettle hnone text)

/-! ### The two ways -/

section Text

variable {words : List String} {s : Settings} {text : String}

theorem run_argument (hs : Settings.ofWords words = .ok s) (hnone : s.expression = none)
    (hwords : "--" ∉ words) (text : String) (input : List UInt8) :
    run (words ++ ["--", text]) input = .ofResult (readExpression s text >>= answer s) := by
  simp only [run, ofWords_expression hs hnone hwords text]
  rfl

theorem run_line_encoded (hs : Settings.ofWords words = .ok s) (hnone : s.expression = none)
    (hfeed : '\n' ∉ text.toList) :
    run words (encoded (text ++ "\n")) = runLine s (encoded text ++ [lineFeed]) := by
  have hend : encoded "\n" = [lineFeed] := by decide
  rw [encoded_append, hend, run_line hs hnone (lineFeed_notMem_encoded hfeed)]

/-- An expression may be given as an argument behind the options or on a line of the input. Both
print the same. If it cannot be read, the line is told of it and passed over, where the argument ends
the run with the same report as an error; in all other cases there is no difference at all. -/
theorem run_argument_line (hs : Settings.ofWords words = .ok s) (hnone : s.expression = none)
    (hwords : "--" ∉ words) (hfeed : '\n' ∉ text.toList)
    (hreturn : text.toList.getLast? ≠ some '\r') (hblank : Text.isBlankText text = false)
    (input : List UInt8) :
    (run (words ++ ["--", text]) input).stdout = (run words (encoded (text ++ "\n"))).stdout ∧
    (∀ e, Formula.ofString text = .error e → ∃ rendering,
      Id.run (parseOrReport Rule.expression.parser s.color text) = .error rendering ∧
      run words (encoded (text ++ "\n")) = ⟨0, "", rendering ++ "\n"⟩ ∧
      run (words ++ ["--", text]) input = ⟨1, "", "Error: " ++ (rendering ++ "\n")⟩) ∧
    ∀ f, Formula.ofString text = .ok f →
      run (words ++ ["--", text]) input = run words (encoded (text ++ "\n")) := by
  have hdecode := decodeLine_encoded hreturn
  rw [run_argument hs hnone hwords, run_line_encoded hs hnone hfeed]
  cases hparse : Formula.ofString text with
  | error e =>
    obtain ⟨rendering, hreport, hread⟩ := readExpression_of_error s hparse
    have hline : runLine s (encoded text ++ [lineFeed]) = ⟨0, "", rendering ++ "\n"⟩ :=
      runLine_of_error hdecode hblank hread
    have hargument : Outcome.ofResult (readExpression s text >>= answer s) =
        ⟨1, "", "Error: " ++ (rendering ++ "\n")⟩ := by
      rw [hread, ← String.append_assoc]
      rfl
    rw [hline, hargument]
    refine ⟨rfl, fun _ _ => ⟨rendering, hreport, rfl, rfl⟩, fun f hf => ?_⟩
    cases hf
  | ok f =>
    have hargument : Outcome.ofResult (readExpression s text >>= answer s) =
        .ofResult (answer s f) := by
      rw [readExpression_of_ok s hparse]
      rfl
    rw [runLine_of_ok s hdecode hblank hparse, hargument]
    refine ⟨rfl, fun e he => ?_, fun _ _ => rfl⟩
    cases he

/-- An operand is missing behind an assigned variable. -/
theorem run_argument_line_operand : ∃ rendering,
    run ["--no-color", "-a", "b=1"] (encoded ("b &" ++ "\n")) = ⟨0, "", rendering ++ "\n"⟩ ∧
    run (["--no-color", "-a", "b=1"] ++ ["--", "b &"]) [] =
      ⟨1, "", "Error: " ++ (rendering ++ "\n")⟩ := by
  have hs : Settings.ofWords ["--no-color", "-a", "b=1"] =
      .ok ⟨none, [⟨"b", true⟩], [.noColor]⟩ := by rfl
  have hparse : Formula.ofString "b &" = .error (.trailingInput ⟨2, 1, 3⟩) := by rfl
  have hfeed : '\n' ∉ "b &".toList := by decide
  obtain ⟨-, herror, -⟩ := run_argument_line hs rfl (by decide) hfeed (by decide) (by decide) []
  obtain ⟨rendering, -, hline, hargument⟩ := herror _ hparse
  exact ⟨rendering, hline, hargument⟩

end Text

end BoolFormula.Command
