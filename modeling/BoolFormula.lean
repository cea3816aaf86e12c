import BoolFormula.Cursor.Describe
import BoolFormula.Main
import BoolFormula.Proofs.Cursor.Moves
import BoolFormula.Proofs.Cursor.Lines
import BoolFormula.Proofs.Text.Quoted
import BoolFormula.Proofs.Text.Blank
import BoolFormula.Proofs.Parser.Contract
import BoolFormula.Proofs.Parser.Repetition
import BoolFormula.Proofs.Parser.Lexical
import BoolFormula.Proofs.Parser.Answer
import BoolFormula.Proofs.Parser.Chain
import BoolFormula.Proofs.Parser.Exact
import BoolFormula.Proofs.Formula.Recursion
import BoolFormula.Proofs.Formula.Rules
import BoolFormula.Proofs.Formula.Derivation
import BoolFormula.Proofs.Formula.Language
import BoolFormula.Proofs.Formula.LongestPrefix
import BoolFormula.Proofs.Formula.Composition
import BoolFormula.Proofs.Parser.Events
import BoolFormula.Proofs.Formula.Calls
import BoolFormula.Proofs.Formula.Backtracking
import BoolFormula.Proofs.Formula.Bisimulation
import BoolFormula.Proofs.Formula.Spacing
import BoolFormula.Proofs.Formula.Rendering
import BoolFormula.Proofs.Parser.Separated
import BoolFormula.Proofs.Formula.Meaning
import BoolFormula.Proofs.Formula.Variables
import BoolFormula.Proofs.Formula.TruthTable
import BoolFormula.Proofs.Formula.Enumeration
import BoolFormula.Proofs.Formula.TableText
import BoolFormula.Proofs.Formula.Relevance
import BoolFormula.Proofs.Formula.OrderedChoice
import BoolFormula.Proofs.Formula.Locality
import BoolFormula.Proofs.Formula.Printing
import BoolFormula.Proofs.Formula.Display
import BoolFormula.Proofs.Formula.InOrder
import BoolFormula.Proofs.Formula.Log
import BoolFormula.Proofs.Diagnostic.Excerpt
import BoolFormula.Proofs.Diagnostic.Report
import BoolFormula.Proofs.Diagnostic.Window
import BoolFormula.Proofs.Cursor.Coordinates
import BoolFormula.Proofs.Command.Lines
import BoolFormula.Proofs.Command.Input
import BoolFormula.Proofs.Command.Modes
import BoolFormula.Proofs.Command.Assignment
import BoolFormula.Proofs.Command.Options
import BoolFormula.Proofs.Command.Table
import BoolFormula.Proofs.Command.Evaluation
