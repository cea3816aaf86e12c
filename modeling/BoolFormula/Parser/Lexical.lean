import BoolFormula.Parser.Basic

/-! Parsers for single code points, strings and words. None of them ever matches
the end of the text, whatever the code points a predicate or a string asks for. -/

namespace BoolFormula

/-! ### Classes of code points -/

/-- An ASCII letter or an underscore. -/
def isIdentifierStart (x : Char) : Bool := x.isAlpha || x == '_'

/-- An ASCII letter or digit, or an underscore. -/
def isIdentifierChar (x : Char) : Bool := isIdentifierStart x || x.isDigit

/-- A space, tab, line feed or carriage return. -/
def isSpace (x : Char) : Bool := x == ' ' || x == '\t' || x == '\n' || x == '\r'

namespace ParserT

variable {m : Type → Type} [Monad m] {α : Type}

/-- One code point that satisfies `f`. -/
@[inline] def satisfy (f : Char → Bool) : ParserT m Char := fun c =>
  match c.peek? with
  | none => pure (.failure c)
  | some x => pure (if f x then .success x c.advance else .failure c)

/-- The code point `x`. -/
@[inline] def char (x : Char) : ParserT m Char := satisfy (· == x)

/-- The cursor after the code points `xs`, if they come next. -/
def skipList : List Char → Cursor → Option Cursor
  | [], c => some c
  | x :: xs, c => if c.peek? = some x then skipList xs c.advance else none

/-- The code points of `s`, in order and all of them. -/
@[inline] def string (s : String) : ParserT m String := fun c =>
  match skipList s.toList c with
  | none => pure (.failure c)
  | some rest => pure (.success s rest)

/-! ### The guard at the end

The end is asked for before the symbol is looked at, as the symbol of the end may satisfy `f`, or
be the code point that is to be skipped. -/

theorem satisfy_eq (f : Char → Bool) (c : Cursor) : (satisfy f : ParserT m Char) c =
    pure (if !c.atEnd && f c.symbol then .success c.symbol c.advance else .failure c) := by
  rw [satisfy, Cursor.peek?_eq_symbol]
  cases c.atEnd <;> rfl

theorem skipList_cons (x : Char) (xs : List Char) (c : Cursor) : skipList (x :: xs) c =
    if c.atEnd || c.symbol != x then none else skipList xs c.advance := by
  rw [skipList, Cursor.peek?_eq_symbol]
  cases c.atEnd with
  | true => rfl
  | false => by_cases h : c.symbol = x <;> simp [h]

/-! ### Words and symbols -/

/-- A code point that satisfies `f`, with all that follow it and satisfy `g`. -/
@[inline] def several (f g : Char → Bool) : ParserT m String :=
  ((satisfy f).pair (satisfy g).many).map fun (x, xs) => String.ofList (x :: xs)

/-- A word of the form `[a-zA-Z_][a-zA-Z0-9_]*`. -/
def identifier : ParserT m String := several isIdentifierStart isIdentifierChar

/-- All spaces that come next, possibly none. Always succeeds. -/
def spaces : ParserT m String := (several isSpace isSpace).optional.map (·.getD "")

/-- Spaces, which are ignored, then `p`. -/
@[inline] def afterSpaces (p : ParserT m α) : ParserT m α := (spaces.pair p).snd

/-- The symbol `s`, with spaces allowed in front of it. -/
@[inline] def token (s : String) : ParserT m String := afterSpaces (string s)

end ParserT

end BoolFormula
