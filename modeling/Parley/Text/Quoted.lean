import Parley.Text.Printable

/-!
# Quoted texts

How a text is shown inside a message: between single quotes, or between double quotes when it
contains a single quote and no double quote. The backslash and the quote in use are escaped, tab,
line feed and carriage return are named by letter, and every other character that does not print is
spelled by its code point in the shortest of two, four or eight hexadecimal digits.
-/

namespace Parley

/-- The lower-case hexadecimal digit of a value below sixteen. -/
def hexDigit (n : Nat) : Char :=
  if n < 10 then Char.ofNat (0x30 + n) else Char.ofNat (0x57 + n)

/-- The `width` lowest hexadecimal digits of a number, most significant first. -/
def hexDigits : Nat → Nat → Text
  | 0, _ => []
  | width + 1, n => hexDigits width (n / 16) ++ [hexDigit (n % 16)]

namespace Text

/-- One character of a quoted text whose quotes are `q`. -/
def quotedChar (q c : Char) : Text :=
  if c = '\\' ∨ c = q then ['\\', c]
  else if c = '\t' then ['\\', 't']
  else if c = '\n' then ['\\', 'n']
  else if c = '\r' then ['\\', 'r']
  else if isPrintable c then [c]
  else if c.toNat < 0x100 then '\\' :: 'x' :: hexDigits 2 c.toNat
  else if c.toNat < 0x10000 then '\\' :: 'u' :: hexDigits 4 c.toNat
  else '\\' :: 'U' :: hexDigits 8 c.toNat

/-- The quote a text is shown in. -/
def quoteMark (t : Text) : Char :=
  if t.contains '\'' && !t.contains '"' then '"' else '\''

/-- The text between quotes, with everything escaped that would be misread. -/
def quoted (t : Text) : Text :=
  quoteMark t :: t.flatMap (quotedChar (quoteMark t)) ++ [quoteMark t]

end Text

end Parley
