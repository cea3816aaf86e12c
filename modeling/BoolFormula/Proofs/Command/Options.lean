import BoolFormula.Proofs.Command.Assignment
import BoolFormula.Proofs.Command.Modes

/-! Command lines. The value of an option may be attached to it or be the next word, options and the
expression come in any order, and a value that is held is checked when something else settles it. So
the scan of a command line gives its assignments, its flags and its expression in the order in which
they stand there, by induction on the line. -/

namespace BoolFormula.Command

/-- The word names no option. -/
def Plain (word : String) : Prop := ∀ x xs, word.toList ≠ '-' :: x :: xs

/-- The words for a flag. -/
def Flag.words : Flag → List String
  | table => ["--table", "-t"]
  | noColor => ["--no-color"]

/-- The words give the option that assigns a variable, with the value. -/
inductive Spelling (value : String) : List String → Prop
  | next {option : String} : option ∈ ["--set", "-a"] → Plain value →
    Spelling value [option, value]
  | attached {option : String} : option ∈ ["--set=", "-a="] → Spelling value [option ++ value]
  | joined {x : Char} {xs : List Char} : value.toList = x :: xs → x ≠ '=' →
    Spelling value ["-a" ++ value]

/-- A command line, with the values of its assignments, its flags and its expression, in the order
in which they are given. -/
inductive Line : List String → List String → List Flag → Option String → Prop
  | nil : Line [] [] [] none
  | stop : Line ["--"] [] [] none
  | last (text : String) : Line ["--", text] [] [] (some text)
  | assign {value : String} {option words values : List String} {flags : List Flag}
    {e : Option String} : Spelling value option → Line words values flags e →
      Line (option ++ words) (value :: values) flags e
  | flag {word : String} {words values : List String} {flag : Flag} {flags : List Flag}
    {e : Option String} : word ∈ flag.words → Line words values flags e →
      Line (word :: words) values (flag :: flags) e
  | expression {text : String} {words values : List String} {flags : List Flag} : Plain text →
    Line words values flags none → Line (text :: words) values flags (some text)

namespace Scan

/-- Once the option that is pending is settled, the settings are `t`. -/
def Settles (s : Scan) (t : Settings) : Prop := s.settle = .ok ⟨t, .nothing⟩

variable {s : Scan} {t : Settings} {value word : String} {a : Assignment}

theorem assign_of_ok (hvalue : Assignment.ofString value = .ok a) :
    assign value ⟨t, .nothing⟩ =
      .ok ⟨{ t with assignments := t.assignments ++ [a] }, .nothing⟩ := by
  rw [assign, hvalue]

theorem settles_of_nothing (t : Settings) : Settles ⟨t, .nothing⟩ t := rfl

/-- A value that is held counts as assigned. -/
theorem settles_held (hvalue : Assignment.ofString value = .ok a) :
    Settles ⟨t, .held value⟩ { t with assignments := t.assignments ++ [a] } :=
  assign_of_ok hvalue

/-! ### One word -/

theorem step_of_plain (h : Plain word) (s : Scan) : s.step word = s.plain word := by
  rw [step]
  split
  · next name hname => exact absurd hname (h _ _)
  · next x xs _ hxs => exact absurd hxs (h _ _)
  · rfl

theorem ne_end_of_plain (h : Plain word) : word ≠ "--" := by
  rintro rfl
  exact h '-' [] rfl

theorem ne_end_of_length (h : 2 < word.length) : word ≠ "--" := by
  rintro rfl
  revert h
  decide

theorem assignment_some (hs : s.Settles t) (hvalue : Assignment.ofString value = .ok a) :
    s.assignment (some value) = .ok ⟨{ t with assignments := t.assignments ++ [a] }, .nothing⟩ := by
  rw [assignment, hs]
  exact assign_of_ok hvalue

theorem assignment_none (hs : s.Settles t) : s.assignment none = .ok ⟨t, .awaiting⟩ := by
  rw [assignment, hs]
  rfl

theorem flag_none {fl : Flag} (hs : s.Settles t) (hnew : fl ∉ t.flags) :
    s.flag fl none = .ok ⟨{ t with flags := t.flags ++ [fl] }, .nothing⟩ := by
  rw [flag, hs]
  exact if_neg hnew

/-- Where no value is awaited, a word that names no option is the expression. -/
theorem plain_of_settles (hs : s.Settles t) (hnone : t.expression = none) (text : String) :
    s.plain text = .ok ⟨{ t with expression := some text }, .nothing⟩ := by
  have hexpression : s.settings.expression = none := (settle_eq_ok hs).2.symm.trans hnone
  have hpositional : s.positional text = .ok ⟨{ t with expression := some text }, .nothing⟩ := by
    rw [positional, hexpression, hs]
    rfl
  rw [plain]
  split
  · next hawaiting =>
    rw [Settles, settle, hawaiting] at hs
    cases hs
  · exact hpositional

/-! ### One option -/

theorem step_attached {option : String} (h : option ∈ ["--set=", "-a="]) (value : String)
    (s : Scan) : s.step (option ++ value) = s.assignment (some value) := by
  obtain rfl | rfl := List.mem_pair.1 h
  all_goals
    rw [step, String.toList_append]
    exact congrArg (fun v => s.assignment (some v)) String.ofList_toList

theorem step_joined {x : Char} {xs : List Char} (hvalue : value.toList = x :: xs) (hx : x ≠ '=')
    (s : Scan) : s.step ("-a" ++ value) = s.assignment (some value) := by
  have hshort : s.short ('a' :: x :: xs) = s.assignment (some (String.ofList (x :: xs))) := by
    rw [short]
    · simp
    · rintro _ ⟨⟩
      exact hx rfl
  rw [step, String.toList_append, hvalue]
  change s.short ('a' :: x :: xs) = _
  rw [hshort, ← hvalue, String.ofList_toList]

theorem words_attached (hlength : 2 < word.length)
    (hstep : s.step word = s.assignment (some value)) (hs : s.Settles t)
    (hvalue : Assignment.ofString value = .ok a) (more : List String) : words (word :: more) s =
      words more ⟨{ t with assignments := t.assignments ++ [a] }, .nothing⟩ := by
  rw [words_cons (ne_end_of_length hlength), hstep, assignment_some hs hvalue]
  rfl

/-- The next word is held as the value, and not checked yet. -/
theorem words_next {option : String} (h : option ∈ ["--set", "-a"]) (hplain : Plain value)
    (hs : s.Settles t) (more : List String) :
    words (option :: value :: more) s = words more ⟨t, .held value⟩ := by
  have hstep : s.step option = s.assignment none := by
    obtain rfl | rfl := List.mem_pair.1 h <;> rfl
  have hend : option ≠ "--" := by
    rintro rfl
    revert h
    decide
  rw [words_cons hend, hstep, assignment_none hs]
  change words (value :: more) ⟨t, .awaiting⟩ = _
  rw [words_cons (ne_end_of_plain hplain), step_of_plain hplain]
  rfl

/-- An option that assigns a variable adds one assignment, wherever its value stands. -/
theorem words_spelling {option : List String} (h : Spelling value option) (hs : s.Settles t)
    (hvalue : Assignment.ofString value = .ok a) :
    ∃ s' : Scan, (∀ more, words (option ++ more) s = words more s') ∧
      s'.Settles { t with assignments := t.assignments ++ [a] } := by
  cases h with
  | next hoption hplain => exact ⟨_, words_next hoption hplain hs, settles_held hvalue⟩
  | attached hoption =>
    refine ⟨_, words_attached ?_ (step_attached hoption value s) hs hvalue, settles_of_nothing _⟩
    rw [String.length_append]
    obtain rfl | rfl := List.mem_pair.1 hoption
    all_goals exact Nat.lt_add_right _ (by decide)
  | joined hcons hx =>
    refine ⟨_, words_attached ?_ (step_joined hcons hx s) hs hvalue, settles_of_nothing _⟩
    rw [String.length_append, ← String.length_toList (s := value), hcons]
    exact Nat.lt_add_of_pos_right (Nat.succ_pos _)

theorem words_flag {fl : Flag} (hword : word ∈ fl.words) (hs : s.Settles t) (hnew : fl ∉ t.flags)
    (more : List String) :
    words (word :: more) s = words more ⟨{ t with flags := t.flags ++ [fl] }, .nothing⟩ := by
  have hend : word ≠ "--" := by
    rintro rfl
    cases fl <;> revert hword <;> decide
  have hstep : s.step word = s.flag fl none := by
    cases fl with
    | table =>
      obtain rfl | rfl := List.mem_pair.1 hword
      · rfl
      · exact bind_pure _
    | noColor =>
      rw [List.mem_singleton.1 hword]
      rfl
  rw [words_cons hend, hstep, flag_none hs hnew]
  rfl

/-- Once what is pending is accepted, help is all that is given, whatever follows. -/
theorem words_help {u : Scan} (hs : s.settle = .ok u) (hword : word ∈ ["--help", "-h"])
    (more : List String) : words (word :: more) s = .error .help := by
  have hhelp : s.help none = .error .help := by
    rw [help, hs]
    rfl
  have hend : word ≠ "--" := by
    rintro rfl
    revert hword
    decide
  have hstep : s.step word = s.help none := by
    obtain rfl | rfl := List.mem_pair.1 hword <;> rfl
  rw [words_cons hend, hstep, hhelp]
  rfl

/-! ### The line -/

/-- The scan of a line adds what the line gives to what is there already. -/
theorem words_line {ws values : List String} {given : List Assignment} {flags : List Flag}
    {e : Option String} (h : Line ws values flags e)
    (hvalues : List.Forall₂ Assignment.Written values given) (hs : s.Settles t)
    (hflags : (t.flags ++ flags).Nodup) (he : e.isSome → t.expression = none) :
    words ws s =
      .ok ⟨⟨e.or t.expression, t.assignments ++ given, t.flags ++ flags⟩, .nothing⟩ := by
  induction h generalizing given s t with
  | nil =>
    cases hvalues
    rw [words, hs, List.append_nil, List.append_nil, Option.none_or]
  | stop =>
    cases hvalues
    rw [List.append_nil, List.append_nil, Option.none_or]
    exact hs
  | last text =>
    cases hvalues
    rw [words_expression hs (he rfl), List.append_nil, List.append_nil, Option.some_or]
  | assign hoption _ ih =>
    cases hvalues with
    | cons hvalue hvalues =>
      obtain ⟨s', hwords, hs'⟩ := words_spelling hoption hs (Assignment.ofString_eq_ok_iff.2 hvalue)
      rw [hwords, ih hvalues hs' hflags he, List.append_assoc, List.singleton_append]
  | @flag _ _ _ fl _ _ hword _ ih =>
    have hnew : fl ∉ t.flags := fun hmem => (List.nodup_append.1 hflags).2.2 _ hmem _ (by simp) rfl
    rw [List.append_cons] at hflags
    rw [words_flag hword hs hnew,
      ih hvalues (settles_of_nothing { t with flags := t.flags ++ [fl] }) hflags he,
      List.append_assoc, List.singleton_append]
  | @expression text _ _ _ hplain _ ih =>
    have hwords := words_cons (ne_end_of_plain hplain)
    rw [hwords, step_of_plain hplain, plain_of_settles hs (he rfl)]
    change words _ ⟨{ t with expression := some text }, .nothing⟩ = _
    rw [ih hvalues (settles_of_nothing { t with expression := some text }) hflags (by simp),
      Option.none_or, Option.some_or]

end Scan

/-- A line gives its settings if its values are accepted and no flag is given twice. -/
theorem ofWords_of_line {words values : List String} {given : List Assignment} {flags : List Flag}
    {e : Option String} (h : Line words values flags e)
    (hvalues : List.Forall₂ Assignment.Written values given) (hflags : flags.Nodup) :
    Settings.ofWords words = .ok ⟨e, given, flags⟩ := by
  have hwords := Scan.words_line h hvalues (Scan.settles_of_nothing .empty) hflags (fun _ => rfl)
  rw [Settings.ofWords, Scan.start, hwords]
  exact congrArg (fun e => Except.ok (⟨e, given, flags⟩ : Settings)) (Option.or_none)

/-- Help that is asked for behind words that are accepted is printed, and nothing is read: neither
the input nor the words that follow. -/
theorem run_help {words : List String} {s : Settings} {word : String}
    (hs : Settings.ofWords words = .ok s) (hwords : "--" ∉ words)
    (hword : word ∈ ["--help", "-h"]) (more : List String) (input : List UInt8) :
    run (words ++ word :: more) input = ⟨0, helpText, ""⟩ := by
  obtain ⟨t, u, hfold, hsettle, -⟩ := exists_settle_of_ofWords hs hwords
  have hscan : Settings.ofWords (words ++ word :: more) = .error .help := by
    rw [Settings.ofWords, Scan.words_append hwords, hfold]
    exact congrArg (Except.map Scan.settings) (Scan.words_help hsettle hword more)
  rw [run, hscan]
  exact if_pos rfl

end BoolFormula.Command
