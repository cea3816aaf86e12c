import BoolFormula.Command.Assignment
import BoolFormula.Text.Controls

/-! The settings of a run, read from the command line. Words that start with a
dash name options, all other words are positional, and so is everything after
`--`. An option that takes a value may have it attached; otherwise the next word
that is not an option is its value, which is then held and checked only once
another option, a positional word or the end of the line settles it. These rules,
the order in which faults are found, the texts of the faults and the form of the
help are those that the library which reads the command line documents; the
options, their names and what is said about them are the command's own. -/

namespace BoolFormula.Command

/-- Options that are given or not, at most once. -/
inductive Flag
  | table | noColor
deriving DecidableEq, Repr

/-- The name of a flag, as it is given. -/
def Flag.name : Flag → String
  | table => "--table"
  | noColor => "--no-color"

/-- How the option that assigns a variable is shown in messages. -/
def assignmentUsage : String := "--set <NAME=BOOL>"

/-- What the command is for, how it is used, and its options. -/
def helpText : String :=
  String.join <| List.map (· ++ "\n")
    ["Parse and evaluate Boolean expressions",
     "",
     "Usage: boolparse-demo [OPTIONS] [EXPRESSION]",
     "",
     "Arguments:",
     "  [EXPRESSION]  Expression to evaluate. Read line by line from stdin when omitted",
     "",
     "Options:",
     "  -a, " ++ assignmentUsage ++
       "  Assign a variable, as name=true/false (or 1/0). Unassigned variables are false",
     "  -t, --table            Print the truth table over all variables instead of a single value",
     "      --no-color         Render syntax errors without ANSI colors",
     "  -h, --help             Print help",
     "",
     "EXAMPLES:",
     "    boolparse-demo '!a & b | c' --set b=true",
     "    boolparse-demo 'x | !y' --table",
     "    echo 'a & (b | c)' | boolparse-demo --set a=1 --set c=1"]

/-- Why the words of a command line give no settings. -/
inductive UsageError
  /-- Help is asked for. This is no fault, but the other words are not looked at. -/
  | help
  /-- An option that does not exist, or a positional word too many. -/
  | unexpectedArgument (word : String)
  /-- A value attached to an option that has none. -/
  | unexpectedValue (option : String) (value : String)
  /-- A flag given once more. -/
  | repeatedFlag (flag : Flag)
  /-- An assignment that cannot be read. -/
  | invalidAssignment (value : String) (reason : AssignmentError)
  /-- The option that assigns a variable without a value. -/
  | missingAssignment
deriving DecidableEq, Repr

/-- The help, or the error in words. What was given is shown without controls. -/
def UsageError.message : UsageError → String
  | help => helpText
  | unexpectedArgument word => "unexpected argument '" ++ Text.withoutControls word ++ "' found"
  | unexpectedValue option value =>
    "unexpected value '" ++ Text.withoutControls value ++ "' for '" ++ option ++
      "' found; no more were expected"
  | repeatedFlag flag => "the argument '" ++ flag.name ++ "' cannot be used multiple times"
  | invalidAssignment value reason =>
    "invalid value '" ++ Text.withoutControls value ++ "' for '" ++ assignmentUsage ++ "': " ++
      reason.message
  | missingAssignment =>
    "a value is required for '" ++ assignmentUsage ++ "' but none was supplied"

structure Settings where
  /-- The expression to read, if it is given as an argument. -/
  expression : Option String
  /-- The assignments, in the order in which they are given. -/
  assignments : List Assignment
  /-- The flags given. -/
  flags : List Flag
deriving DecidableEq, Repr

namespace Settings

def empty : Settings := ⟨none, [], []⟩

def table (s : Settings) : Bool := s.flags.contains .table

def color (s : Settings) : Bool := !s.flags.contains .noColor

end Settings

/-- What an assignment option waits for. -/
inductive Pending
  /-- There is none. -/
  | nothing
  /-- Its value. -/
  | awaiting
  /-- The check of this value. -/
  | held (value : String)
deriving DecidableEq, Repr

/-- The settings found so far, and the option that is not settled yet. -/
structure Scan where
  settings : Settings
  pending : Pending
deriving DecidableEq, Repr

namespace Scan

def start : Scan := ⟨.empty, .nothing⟩

/-- Checks `value` and adds its assignment. -/
def assign (value : String) (s : Scan) : Except UsageError Scan :=
  match Assignment.ofString value with
  | .ok a => .ok { s with settings.assignments := s.settings.assignments ++ [a] }
  | .error reason => .error (.invalidAssignment value reason)

/-- Settles the option that is pending. -/
def settle (s : Scan) : Except UsageError Scan :=
  match s.pending with
  | .nothing => .ok s
  | .awaiting => .error .missingAssignment
  | .held value => { s with pending := .nothing }.assign value

/-- A flag, with the value that is attached to it, which it cannot have. -/
def flag (flag : Flag) (attached : Option String) (s : Scan) : Except UsageError Scan :=
  match attached with
  | some value => .error (.unexpectedValue flag.name value)
  | none => do
    let s ← s.settle
    if flag ∈ s.settings.flags then .error (.repeatedFlag flag)
    else .ok { s with settings.flags := s.settings.flags ++ [flag] }

/-- The option that asks for help. What is pending is checked first. -/
def help (attached : Option String) (s : Scan) : Except UsageError Scan :=
  match attached with
  | some value => .error (.unexpectedValue "--help" value)
  | none => do
    let _ ← s.settle
    .error .help

/-- The option that assigns a variable, with its value if that is attached. -/
def assignment (attached : Option String) (s : Scan) : Except UsageError Scan := do
  let s ← s.settle
  match attached with
  | some value => s.assign value
  | none => .ok { s with pending := .awaiting }

/-- An option by its long name, with the value that an equals sign attaches to it. -/
def long (word : List Char) (s : Scan) : Except UsageError Scan :=
  let (name, rest) := word.span (· != '=')
  let attached := rest.tail?.map String.ofList
  match String.ofList name with
  | "table" => s.flag .table attached
  | "no-color" => s.flag .noColor attached
  | "set" => s.assignment attached
  | "help" => s.help attached
  | name => .error (.unexpectedArgument ("--" ++ name))

/-- Options by their short names. What follows the name of an option that takes a value is its
value, with or without an equals sign between them. -/
def short : List Char → Scan → Except UsageError Scan
  | [], s => .ok s
  | 't' :: rest, s => do short rest (← s.flag .table none)
  | ['a'], s => s.assignment none
  | 'a' :: '=' :: value, s => s.assignment (some (String.ofList value))
  | 'a' :: value, s => s.assignment (some (String.ofList value))
  | 'h' :: _, s => s.help none
  | x :: _, _ => .error (.unexpectedArgument (String.ofList ['-', x]))

/-- A positional word, which is the expression unless there is one already. -/
def positional (word : String) (s : Scan) : Except UsageError Scan :=
  if s.settings.expression.isSome then .error (.unexpectedArgument word)
  else do
    let s ← s.settle
    .ok { s with settings.expression := some word }

/-- A word that is no option: the value that is awaited, or else positional. -/
def plain (word : String) (s : Scan) : Except UsageError Scan :=
  match s.pending with
  | .awaiting => .ok { s with pending := .held word }
  | _ => s.positional word

/-- The words from here to the end of the line. -/
def words : List String → Scan → Except UsageError Scan
  | [], s => s.settle
  | word :: rest, s =>
    match word.toList with
    | ['-', '-'] => do (← rest.foldlM (fun s word => s.positional word) s).settle
    | '-' :: '-' :: name => do words rest (← s.long name)
    | '-' :: x :: xs => do words rest (← s.short (x :: xs))
    | _ => do words rest (← s.plain word)

end Scan

/-- The settings that the words of a command line give. -/
def Settings.ofWords (words : List String) : Except UsageError Settings :=
  (Scan.start.words words).map Scan.settings

end BoolFormula.Command
