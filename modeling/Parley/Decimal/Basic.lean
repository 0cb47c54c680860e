import Parley.Text.Digit

/-!
# Decimal numerals

A decimal numeral denotes `± mantissa * 10 ^ exponent`, and a float is read from it by rounding to
nearest. Numerals too large for a float read as infinity, numerals too small as zero; both are
decided from the length of the numeral, so that no power of ten with a huge exponent is computed.

## Main definitions

* `Decimal.read?` reads `digits`, `digits.digits`, `.digits` and `digits.`, each with an optional
  exponent, and says what is left over
* `Decimal.toFloat` rounds to the nearest float
-/

namespace Parley

/-- A signed decimal numeral. -/
structure Decimal where
  negative : Bool
  mantissa : Nat
  exponent : Int
  deriving DecidableEq, Repr

/-- Whether a character is one of `0` to `9`. -/
def isAsciiDigit (c : Char) : Bool := decide ('0' ≤ c) && decide (c ≤ '9')

/-- The number that ASCII digits spell. -/
def asciiValue (ds : Text) : Nat := Digits.value (ds.map fun c => c.toNat - '0'.toNat)

namespace Decimal

/-- An exponent `e+5` at the start of a text, `0` when there is none, and the rest. -/
def readExponent (t : Text) : Int × Text :=
  match t with
  | c :: rest =>
    if c = 'e' ∨ c = 'E' then
      let (negative, digits) := takeSign rest
      match digits.span isAsciiDigit with
      | ([], _) => (0, t)
      | (ds, after) => (signed negative (asciiValue ds), after)
    else (0, t)
  | [] => (0, t)

/-- The digits after a decimal point at the start of a text, `none` without a point, and the
rest. -/
def readFraction : Text → Option Text × Text
  | '.' :: t => (some (t.takeWhile isAsciiDigit), t.dropWhile isAsciiDigit)
  | t => (none, t)

/-- An unsigned numeral at the start of a text and what follows it. -/
def read? (negative : Bool) (t : Text) : Option (Decimal × Text) :=
  let whole := t.takeWhile isAsciiDigit
  let (fraction, afterFraction) := readFraction (t.dropWhile isAsciiDigit)
  let digits := whole ++ fraction.getD []
  if digits.isEmpty then none
  else
    let (exponent, rest) := readExponent afterFraction
    some (⟨negative, asciiValue digits, exponent - (fraction.getD []).length⟩, rest)

/-- The size of a numeral: it is below ten to this power. -/
def magnitude (d : Decimal) : Int := (toString d.mantissa).length + d.exponent

/-- The nearest float. -/
def toFloat (d : Decimal) : Float :=
  let size :=
    if d.mantissa = 0 then 0.0
    else if 310 < d.magnitude then 1.0 / 0.0
    else if d.magnitude < -330 then 0.0
    else Float.ofScientific d.mantissa (decide (d.exponent < 0)) d.exponent.natAbs
  if d.negative then -size else size

end Decimal

end Parley
