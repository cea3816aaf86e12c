/-! A cursor is a text, as an array of code points, with an offset into it. A
cursor is never changed: moving on gives a new one over the same text. The views
`consumed` and `remaining` cut the text at the offset. Lines and columns count from
one and follow from what has been consumed. -/

namespace BoolFormula

/-- A place in a text: an offset in code points, and the line and column that go with it. -/
structure Position where
  offset : Nat
  line : Nat
  col : Nat
deriving DecidableEq, Repr

/-- The line after the code point `x` on the line `line`. -/
def nextLine (line : Nat) (x : Char) : Nat := if x == '\n' then line + 1 else line

/-- The column after the code point `x` in the column `col`. -/
def nextCol (col : Nat) (x : Char) : Nat := if x == '\n' then 1 else col + 1

/-- The line reached once `before` has been read. -/
def lineAfter (before : List Char) : Nat := before.foldl nextLine 1

/-- The column reached once `before` has been read. -/
def colAfter (before : List Char) : Nat := before.foldl nextCol 1

/-- Each line feed starts a line. -/
theorem lineAfter_eq (before : List Char) : lineAfter before = before.count '\n' + 1 := by
  suffices ∀ n, before.foldl nextLine n = before.count '\n' + n from this 1
  induction before with
  | nil => simp
  | cons x xs ih =>
    intro n
    rw [List.foldl_cons, ih, List.count_cons, nextLine]
    split <;> omega

/-- The columns of a line are counted from its last line feed on. -/
theorem colAfter_eq (before : List Char) :
    colAfter before = (before.reverse.takeWhile (· != '\n')).length + 1 := by
  suffices ∀ xs : List Char, xs.foldr (fun x n => nextCol n x) 1 =
      (xs.takeWhile (· != '\n')).length + 1 by
    rw [← this, List.foldr_reverse, colAfter]
  intro xs
  induction xs with
  | nil => rfl
  | cons x xs ih =>
    rw [List.foldr_cons, ih, nextCol, List.takeWhile_cons]
    by_cases h : x = '\n' <;> simp [h]

/-- A text with an offset that does not pass its end. -/
structure Cursor where
  text : Array Char
  offset : Nat
  offset_le : offset ≤ text.size
deriving DecidableEq

namespace Cursor

/-- A cursor before the first of the code points `cs`. -/
def ofList (cs : List Char) : Cursor := ⟨cs.toArray, 0, Nat.zero_le _⟩

/-- A cursor before the first code point of `s`. -/
def ofString (s : String) : Cursor := ofList s.toList

/-- The code points before the cursor. -/
def consumed (c : Cursor) : List Char := c.text.toList.take c.offset

/-- The code points from the cursor on. -/
def remaining (c : Cursor) : List Char := c.text.toList.drop c.offset

/-- The number of code points from the cursor on. -/
def left (c : Cursor) : Nat := c.text.size - c.offset

def atEnd (c : Cursor) : Bool := c.left == 0

/-- The code point under the cursor. -/
def peek? (c : Cursor) : Option Char := c.text[c.offset]?

/-- Stands for the code point under a cursor that has reached the end. A text may
hold this code point too, so `atEnd` alone tells the end. -/
def endSymbol : Char := '\x00'

/-- The code point under the cursor, `endSymbol` at the end. -/
def symbol (c : Cursor) : Char := c.peek?.getD endSymbol

/-- One code point further; the end stays where it is. -/
def advance (c : Cursor) : Cursor :=
  if h : c.offset < c.text.size then ⟨c.text, c.offset + 1, h⟩ else c

def line (c : Cursor) : Nat := c.text.foldl nextLine 1 0 c.offset

def col (c : Cursor) : Nat := c.text.foldl nextCol 1 0 c.offset

def position (c : Cursor) : Position := ⟨c.offset, c.line, c.col⟩

/-! ### What the operations do to the views -/

@[simp] theorem consumed_append_remaining (c : Cursor) :
    c.consumed ++ c.remaining = c.text.toList := List.take_append_drop _ _

@[simp] theorem length_consumed (c : Cursor) : c.consumed.length = c.offset := by
  simp [consumed, Nat.min_eq_left c.offset_le]

@[simp] theorem length_remaining (c : Cursor) : c.remaining.length = c.left := by
  simp [remaining, left]

theorem foldl_consumed {β : Type} (f : β → Char → β) (b : β) (c : Cursor) :
    c.text.foldl f b 0 c.offset = c.consumed.foldl f b := by
  rw [Array.foldl_eq_foldl_extract, ← Array.foldl_toList, Array.toList_extract]
  simp [consumed]

theorem line_eq (c : Cursor) : c.line = lineAfter c.consumed := foldl_consumed _ _ c

theorem col_eq (c : Cursor) : c.col = colAfter c.consumed := foldl_consumed _ _ c

@[simp] theorem consumed_ofList (cs : List Char) : (ofList cs).consumed = [] := rfl

@[simp] theorem remaining_ofList (cs : List Char) : (ofList cs).remaining = cs := rfl

theorem peek?_eq_head? (c : Cursor) : c.peek? = c.remaining.head? := by
  simp [peek?, remaining, List.head?_drop]

/-- The symbol is a code point of the text if this has not come to its end. -/
theorem peek?_eq_symbol (c : Cursor) : c.peek? = if c.atEnd then none else some c.symbol := by
  have hend : c.atEnd = true ↔ c.text.size ≤ c.offset := by
    rw [atEnd, beq_iff_eq, left]
    omega
  by_cases h : c.text.size ≤ c.offset
  · rw [if_pos (hend.2 h), peek?, Array.getElem?_eq_none h]
  · have hlt : c.offset < c.text.size := Nat.lt_of_not_le h
    rw [if_neg (mt hend.1 h), symbol, peek?, Array.getElem?_eq_getElem hlt, Option.getD_some]

theorem remaining_advance (c : Cursor) : c.advance.remaining = c.remaining.tail := by
  unfold advance
  split
  · simp [remaining]
  · rename_i h
    have : c.remaining = [] := by
      simp [remaining, List.drop_eq_nil_iff]; omega
    simp [this]

theorem offset_advance {c : Cursor} (h : c.atEnd = false) : c.advance.offset = c.offset + 1 := by
  have : c.offset < c.text.size := by simp [atEnd, left] at h; omega
  simp [advance, this]

@[simp] theorem text_advance (c : Cursor) : c.advance.text = c.text := by
  unfold advance; split <;> rfl

/-- A cursor is known by what lies before and after it. -/
theorem ext_views {c d : Cursor} (h₁ : c.consumed = d.consumed) (h₂ : c.remaining = d.remaining) :
    c = d := by
  have ht : c.text = d.text := by
    apply Array.toList_inj.1
    rw [← consumed_append_remaining, ← consumed_append_remaining d, h₁, h₂]
  have ho : c.offset = d.offset := by rw [← length_consumed, ← length_consumed d, h₁]
  cases c; cases d; cases ht; cases ho; rfl

end Cursor

end BoolFormula
