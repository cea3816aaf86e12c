import BoolFormula.Text.Printable

/-! The quoted form of a text, on one line and between double quotes. Quotes,
backslashes and the usual controls have short escapes; any other code point that
does not stand for itself is written by its number in hexadecimal. -/

namespace BoolFormula.Text

/-- The code point `x` inside a quoted text. -/
def escaped (x : Char) : List Char :=
  match x with
  | '\x00' => ['\\', '0']
  | '\t' => ['\\', 't']
  | '\n' => ['\\', 'n']
  | '\r' => ['\\', 'r']
  | '"' => ['\\', '"']
  | '\\' => ['\\', '\\']
  | x =>
    if isPrintable x then [x]
    else ['\\', 'u', '\x7b'] ++ Nat.toDigits 16 x.toNat ++ ['\x7d']

/-- The text `s` between double quotes. -/
def quoted (s : String) : String := String.ofList ('"' :: s.toList.flatMap escaped ++ ['"'])

end BoolFormula.Text
