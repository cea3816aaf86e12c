import BoolFormula.Cursor

/-! A parser takes a cursor and answers with a value and the cursor after it, or
with no value and the very cursor it was given. Every combinator keeps this rule
for parsers that keep it, which is what makes another try from the same place
possible. Parsers run in a monad, so that the same parser can be run silently or
with a trace of what it attempts. -/

namespace BoolFormula

/-- The answer of a parser. A failure has no value, and `rest` is then the cursor
the parser was given. -/
structure Reply (α : Type) where
  value : Option α
  rest : Cursor
deriving DecidableEq

namespace Reply

variable {α β : Type}

@[inline] def success (a : α) (rest : Cursor) : Reply α := ⟨some a, rest⟩

@[inline] def failure (given : Cursor) : Reply α := ⟨none, given⟩

def isSuccess (r : Reply α) : Bool := r.value.isSome

@[inline] def map (f : α → β) (r : Reply α) : Reply β := ⟨r.value.map f, r.rest⟩

end Reply

/-- A parser whose run may leave a trace in `m`. -/
def ParserT (m : Type → Type) (α : Type) : Type := Cursor → m (Reply α)

/-- A parser that runs silently. -/
abbrev Parser (α : Type) : Type := ParserT Id α

/-- The answer of a silent parser. -/
def Parser.run {α : Type} (p : Parser α) (c : Cursor) : Reply α := p c

namespace ParserT

variable {m : Type → Type} [Monad m] {α β : Type}

/-- Always fails. -/
@[inline] def fail : ParserT m α := fun c => pure (.failure c)

@[inline] def map (f : α → β) (p : ParserT m α) : ParserT m β := fun c => do
  let r ← p c
  pure (r.map f)

/-- One parser after the other. If either fails, the pair fails as though nothing had been
consumed. -/
@[inline] def pair (p : ParserT m α) (q : ParserT m β) : ParserT m (α × β) := fun c => do
  let r ← p c
  match r.value with
  | none => pure (.failure c)
  | some a =>
    let s ← q r.rest
    match s.value with
    | none => pure (.failure c)
    | some b => pure (.success (a, b) s.rest)

/-- The second parser, where the first one fails. The first to succeed wins, however much
more the second could have consumed. -/
@[inline] def orElse (p q : ParserT m α) : ParserT m α := fun c => do
  let r ← p c
  if r.isSuccess then pure r else q c

/-- At most `n` steps of `many`; `found` holds the values so far, the latest first. -/
@[specialize] def manyFrom (p : ParserT m α) : Nat → List α → ParserT m (List α)
  | 0, found, c => pure (.success found.reverse c)
  | n + 1, found, c => do
    let r ← p c
    match r.value with
    | none => pure (.success found.reverse c)
    | some a =>
      if r.rest.offset == c.offset then pure (.success (a :: found).reverse c)
      else manyFrom p n (a :: found) r.rest

/-- As many matches in sequence as there are, possibly none. A match that consumes nothing
is the last one, as it would be found again for ever. Every other match consumes at least one
code point, so their number is bounded by what is left. -/
@[inline] def many (p : ParserT m α) : ParserT m (List α) := fun c => manyFrom p (c.left + 1) [] c

/-- A match or nothing. Always succeeds. -/
@[inline] def optional (p : ParserT m α) : ParserT m (Option α) := fun c => do
  let r ← p c
  match r.value with
  | none => pure (.success none c)
  | some a => pure (.success (some a) r.rest)

/-- The first value of a pair. -/
@[inline] def fst (p : ParserT m (α × β)) : ParserT m α := p.map Prod.fst

/-- The second value of a pair. -/
@[inline] def snd (p : ParserT m (α × β)) : ParserT m β := p.map Prod.snd

end ParserT

end BoolFormula
