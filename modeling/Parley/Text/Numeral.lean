import Parley.Text.Digit
import Parley.Text.Quoted

/-!
# Whole numbers in text

How a host may write a whole number: spaces around it, a sign, and decimal digits of any script with
single underscores between them. This is wider than the literals of conditions and changes. There
may be a limit to the number of digits.

## Implementation notes

The information separators U+001C to U+001F are blank but no spaces around a number. The length of a
numeral is checked before what follows it, so a long numeral with something after it is overlong.
-/

namespace Parley

/-- Whether a character may stand around a number. -/
def isSpace (c : Char) : Bool := isBlank c && !(decide (0x1c ≤ c.toNat) && decide (c.toNat ≤ 0x1f))

/-- Why a text is no whole number. -/
inductive NumeralFault where
  | invalid
  | overlong (e : Overlong)
  deriving DecidableEq, Repr

namespace Text

/-- Whether every underscore of a text stands between two characters that are none. -/
def hasSingleUnderscores (t : Text) : Bool :=
  t.head? != some '_' && t.getLast? != some '_' && (t.cutPair '_' '_').2.isNone

/-- The whole number a text spells, in at most `limit` digits if there is a limit. -/
def toWhole (limit : Option Nat) (t : Text) : Except NumeralFault Int :=
  let (negative, body) := takeSign (trim isSpace t)
  let isPart := fun c => isDecimalDigit c || c == '_'
  let run := body.takeWhile isPart
  let digits := run.filterMap digitValue?
  if !hasSingleUnderscores run then .error .invalid
  else if limit.any (· < digits.length) then .error (.overlong ⟨digits.length⟩)
  else if digits.isEmpty || !(body.dropWhile isPart).isEmpty then .error .invalid
  else .ok (signed negative (Digits.value digits))

end Text

/-- The wording of the refusal of a text as a number. Long texts are shown only in part. -/
def NumeralFault.message (t : Text) : NumeralFault → Text
  | invalid => "invalid literal for int() with base 10: ".toList ++ List.take 200 t.quoted
  | overlong e => e.message

end Parley
