/-! What remains of a text that is written to something other than a terminal. The
control sequences that would drive a terminal are dropped, and so are all other
controls but white space. A sequence starts with an escape; what comes next
tells how far it goes. White space inside a sequence is kept, and with it all
that could be shown where there is no sequence, up to the next control that is
dropped, where the sequence goes on. -/

namespace BoolFormula.Text

/-- How much of a control sequence has been read. -/
inductive ControlState
  /-- There is none. -/
  | outside
  /-- The escape that starts one. -/
  | escape
  /-- An escape sequence, up to its last code point. -/
  | intermediate
  /-- A sequence with parameters, up to its last code point. -/
  | parameters
  /-- The start of the header of a device control string. -/
  | deviceHeader
  /-- The parameters in such a header. -/
  | deviceParameters
  /-- What follows the parameters in such a header. -/
  | deviceIntermediate
  /-- A control string, which the string terminator ends. -/
  | string
  /-- An operating system command, which a bell ends. -/
  | command
deriving DecidableEq, Repr

namespace ControlState

/-- Is the string terminator among the bytes that encode `x`? -/
def terminates (x : Char) : Bool := (String.utf8EncodeChar x).contains 0x9c

/-- The state after the code point `x`, which is dropped. Two controls cancel any sequence, and an
escape starts another in its place. -/
def next (s : ControlState) (x : Char) : ControlState :=
  if x = '\x18' ∨ x = '\x1a' then outside
  else if x = '\x1b' then escape
  else if x < ' ' then (if s = command ∧ x = '\x07' then outside else s)
  else match s with
    | outside => outside
    | escape =>
      match x with
      | '[' => parameters
      | ']' => command
      | 'P' => deviceHeader
      | 'X' | '^' | '_' => string
      | x => if x < '0' then intermediate else if x ≤ '~' then outside else escape
    | intermediate => if '0' ≤ x ∧ x ≤ '~' then outside else s
    | parameters => if '@' ≤ x ∧ x ≤ '~' then outside else s
    | deviceHeader =>
      if x < '0' then deviceIntermediate
      else if x < '@' then deviceParameters
      else if x ≤ '~' then string
      else s
    | deviceParameters =>
      if x < '0' then deviceIntermediate
      else if x < '<' then s
      else if x ≤ '~' then string
      else s
    | deviceIntermediate => if '0' ≤ x ∧ x ≤ '~' then string else s
    | string => if terminates x then outside else s
    | command => s

/-- Is `x` a control that is white space? -/
def isSpacing (x : Char) : Bool := x == '\t' || x == '\n' || x == '\x0c' || x == '\r'

/-- Is `x` kept in this state? -/
def keeps (s : ControlState) (x : Char) : Bool :=
  match s with
  | outside => (' ' ≤ x && x != '\x7f') || isSpacing x
  | escape | intermediate | parameters => isSpacing x
  | _ => false

end ControlState

/-- What is kept of `xs` from the state `s` on; `kept` tells whether the code point before was
kept. A code point beyond ASCII that is kept ends the sequence it is found in. -/
def keptFrom (s : ControlState) (kept : Bool) : List Char → List Char
  | [] => []
  | x :: xs =>
    if (if kept then .outside else s).keeps x then
      x :: keptFrom (if x.toNat < 0x80 then s else .outside) true xs
    else keptFrom (s.next x) false xs

/-- The text without control sequences and without controls other than white space. -/
def withoutControls (s : String) : String := String.ofList (keptFrom .outside false s.toList)

end BoolFormula.Text
