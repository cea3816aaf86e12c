import BoolFormula.Proofs.Command.Input
import BoolFormula.Proofs.Formula.TableText

/-! Printing a table. The table of an expression is printed as a whole, or there is no output. The
names that are read from a text are identifiers, so what is printed can be read back. -/

namespace BoolFormula.Command

variable {words : List String} {s : Settings} {text : String} {f : Formula}

theorem answer_of_table (hs : s.table = true)
    (h : f.«variables».length ≤ maxTableVariables) :
    answer s f = .ok (tableOutput f.«variables» ((assignments f.«variables»).map f.row)) := by
  rw [answer, if_pos hs, Formula.tableLines, Formula.truthTable_eq_some h]
  rfl

theorem run_of_expression (hs : Settings.ofWords words = .ok s) (htext : s.expression = some text)
    (hf : Formula.ofString text = .ok f) (input : List UInt8) :
    run words input = .ofResult (answer s f) := by
  simp only [run, hs, htext, runExpression, readExpression_of_ok s hf]
  rfl

/-- The table of an expression that is read from a text can be read back. With at most as many
variables as a table may have, the output has a header and one line for each row, all of one length,
in which every value stands under the end of its own name; and cutting the output at the columns of
the header gives the truth table. With more variables there is no output, only an error. -/
theorem printed_table_reads_back (hs : Settings.ofWords words = .ok s)
    (htext : s.expression = some text) (htable : s.table = true)
    (hf : Formula.ofString text = .ok f) (input : List UInt8) :
    (f.«variables».length ≤ maxTableVariables → ∃ rows output,
      f.truthTable = some rows ∧ answer s f = .ok output ∧ run words input = ⟨0, output, ""⟩ ∧
      (outputLines output).length = 2 ^ f.«variables».length + 1 ∧
      (∀ line ∈ outputLines output, line.length = (tableHeader f.«variables»).length) ∧
      Tabulated f.«variables» rows output ∧ readTable? output = some rows) ∧
    (maxTableVariables < f.«variables».length →
      answer s f = .error (.tooManyVariables f.«variables».length) ∧
      run words input =
        ⟨1, "", "Error: " ++ (Failure.tooManyVariables f.«variables».length).message ++ "\n"⟩) := by
  rw [run_of_expression hs htext hf]
  constructor
  · intro hle
    have hwell : f.WellNamed :=
      Grammar.wellNamed_of_derives (Grammar.run_parse_rule_eq_ok_iff.1 hf)
    have hnames : ∀ name ∈ f.«variables», IsIdentifier name := fun name hname =>
      hwell.isIdentifier (Formula.mem_variables.1 hname)
    have hrows : ∀ row ∈ (assignments f.«variables»).map f.row,
        row.assignment.map Prod.fst = f.«variables» := by
      intro row hrow
      obtain ⟨a, ha, rfl⟩ := List.mem_map.1 hrow
      exact map_fst_of_mem_assignments ha
    have htabulated := tabulated hnames hrows f.pairwise_variables
    refine ⟨_, _, Formula.truthTable_eq_some hle, answer_of_table htable hle, ?_, ?_, ?_,
      htabulated, readTable?_tableOutput hnames hrows f.variables_ne_nil⟩
    · rw [answer_of_table htable hle]
      rfl
    · rw [htabulated.lines_eq, List.length_cons, List.length_map, List.length_map,
        length_assignments]
    · rw [htabulated.lines_eq, List.forall_mem_cons]
      refine ⟨String.length_toList, fun line hline => ?_⟩
      obtain ⟨row, hrow, rfl⟩ := List.mem_map.1 hline
      exact (htabulated.row row hrow).length_eq
  · intro hlt
    have hanswer := answer_of_tooWide (s := s) ⟨htable, hlt⟩
    rw [hanswer]
    exact ⟨rfl, rfl⟩

/-- Names of two lengths, one of them a start of the other. -/
theorem printed_table_reads_back_aligned : ∃ rows output,
    run ["!x1 | x", "-t"] [] = ⟨0, output, ""⟩ ∧
      output = "x x1 | =\n0  0 | 1\n0  1 | 0\n1  0 | 1\n1  1 | 1\n" ∧
      readTable? output = some rows ∧ rows.map TruthRow.value = [true, false, true, true] := by
  have hs : Settings.ofWords ["!x1 | x", "-t"] = .ok ⟨some "!x1 | x", [], [.table]⟩ := by rfl
  have hf : Formula.ofString "!x1 | x" = .ok (.disj (.neg (.var "x1")) (.var "x")) := rfl
  obtain ⟨hnarrow, -⟩ := printed_table_reads_back hs rfl rfl hf []
  obtain ⟨rows, output, hrows, -, hrun, -, -, -, hread⟩ := hnarrow (by decide +kernel)
  have hvalues : (Formula.disj (.neg (.var "x1")) (.var "x")).truthTable.map
      (·.map TruthRow.value) = some [true, false, true, true] := by decide +kernel
  rw [hrows, Option.map_some, Option.some.injEq] at hvalues
  have houtput : (run ["!x1 | x", "-t"] []).stdout =
      "x x1 | =\n0  0 | 1\n0  1 | 0\n1  0 | 1\n1  1 | 1\n" := by decide +kernel
  rw [hrun] at houtput
  exact ⟨rows, output, hrun, houtput, hread, hvalues⟩

end BoolFormula.Command
