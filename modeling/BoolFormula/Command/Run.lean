import BoolFormula.Command.Settings
import BoolFormula.Formula.TableText
import BoolFormula.Reading

/-! A run of the command, as a function of its arguments and its standard input.
An expression given as an argument is answered once. Otherwise each line of the
input that is not blank is an expression: a syntax error in one is reported and
passed over, while input that cannot be decoded or a table that is too wide ends
the run, with the output of the lines before it kept.

How an error that ends a run is shown, and that its code is 1, is up to the library
for errors; for a fault in the command line, whose code is 2, it is up to the
library that reads this. Both are taken as they are documented.

With the log on, a run also records every expression that it reads, with the time,
on the output for errors. The outcome is that of a run with the log off. -/

namespace BoolFormula.Command

/-- Why an expression is not answered. -/
inductive Failure
  /-- It cannot be read, as this report shows. -/
  | syntaxError (report : String)
  /-- It has too many variables for a truth table, namely so many. -/
  | tooManyVariables (count : Nat)
  /-- The line of the input that holds it is not UTF-8. -/
  | undecodable
deriving DecidableEq, Repr

def Failure.message : Failure → String
  | syntaxError report => report
  | tooManyVariables count =>
    toString count ++ " variables is too many for a truth table (at most " ++
      toString maxTableVariables ++ ")"
  | undecodable => "failed to read stdin\n\nCaused by:\n    stream did not contain valid UTF-8"

/-- What a run writes, and the code it ends with. -/
structure Outcome where
  code : Nat
  stdout : String
  stderr : String
deriving DecidableEq, Repr

namespace Outcome

def empty : Outcome := ⟨0, "", ""⟩

/-- Both outputs one after the other, ending as the second. -/
def append (x y : Outcome) : Outcome := ⟨y.code, x.stdout ++ y.stdout, x.stderr ++ y.stderr⟩

/-- The output, or an end with an error. -/
def ofResult : Except Failure String → Outcome
  | .ok output => ⟨0, output, ""⟩
  | .error e => ⟨1, "", "Error: " ++ e.message ++ "\n"⟩

/-- The end of a run that has no settings: help is output, and all else is an error. -/
def ofUsageError (e : UsageError) : Outcome :=
  if e = .help then ⟨0, e.message, ""⟩ else ⟨2, "", "error: " ++ e.message ++ "\n"⟩

end Outcome

/-- The expression that `text` is. The record of it in the log is left out. -/
def readExpression (s : Settings) (text : String) : Except Failure Formula :=
  (Id.run (parseOrReport Rule.expression.parser s.color text)).mapError .syntaxError

/-- The lines of the truth table of `f`, or its value under the assignments. -/
def answer (s : Settings) (f : Formula) : Except Failure String :=
  if s.table then
    match f.tableLines with
    | some lines => .ok (String.join (lines.map (· ++ "\n")))
    | none => .error (.tooManyVariables f.«variables».length)
  else .ok ((if f.eval (Assignment.lookup s.assignments) then "true" else "false") ++ "\n")

/-- The run on an expression given as an argument. -/
def runExpression (s : Settings) (text : String) : Outcome :=
  .ofResult (readExpression s text >>= answer s)

/-! ### Lines of the input -/

def lineFeed : UInt8 := 10

def carriageReturn : UInt8 := 13

/-- The bytes cut behind every line feed. -/
def cutLines (bytes : List UInt8) : List (List UInt8) :=
  bytes.foldr (fun b lines =>
    if b = lineFeed then [b] :: lines
    else match lines with
      | [] => [[b]]
      | line :: rest => (b :: line) :: rest) []

/-- The line without the line feed at its end, nor a carriage return in front of that. -/
def dropLineEnd (line : List UInt8) : List UInt8 :=
  if line.getLast? = some lineFeed then
    let body := line.dropLast
    if body.getLast? = some carriageReturn then body.dropLast else body
  else line

/-- The text of a line, if it is UTF-8. -/
def decodeLine (line : List UInt8) : Option String :=
  String.fromUTF8? ⟨(dropLineEnd line).toArray⟩

/-- The run on one line of the input. A line that cannot be read as an expression does not
end it. -/
def runLine (s : Settings) (line : List UInt8) : Outcome :=
  match decodeLine line with
  | none => .ofResult (.error .undecodable)
  | some text =>
    if Text.isBlankText text then .empty
    else match readExpression s text with
      | .ok f => .ofResult (answer s f)
      | .error e => ⟨0, "", e.message ++ "\n"⟩

/-- The run on the lines of the input after `sofar`, up to the first that ends it. -/
def runLines (s : Settings) : Outcome → List (List UInt8) → Outcome
  | sofar, [] => sofar
  | sofar, line :: rest =>
    let next := sofar.append (runLine s line)
    if next.code = 0 then runLines s next rest else next

/-- The run on standard input. -/
def runInput (s : Settings) (input : List UInt8) : Outcome := runLines s .empty (cutLines input)

/-- A run of the command. -/
def run (words : List String) (input : List UInt8) : Outcome :=
  match Settings.ofWords words with
  | .error e => .ofUsageError e
  | .ok s =>
    match s.expression with
    | some text => runExpression s text
    | none => runInput s input

end BoolFormula.Command
