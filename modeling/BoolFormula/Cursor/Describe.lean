import BoolFormula.Cursor
import BoolFormula.Text.Quoted

/-! The written form of a cursor, which shows where it is and what is left. -/

namespace BoolFormula.Cursor

/-- The code points from the cursor on, as a text. -/
def remainingText (c : Cursor) : String := String.ofList c.remaining

def describe (c : Cursor) : String :=
  "Input \x7b offset: " ++ toString c.offset ++ ", remaining: " ++ Text.quoted c.remainingText ++
    " \x7d"

end BoolFormula.Cursor
