import Parley.Decimal.Whole
import Parley.Reveal.Basic

/-!
# Amounts

Hosts give times and speeds as whole numbers of any size or as floats. Whole numbers are multiplied
exactly. Anything else is reckoned in floats, and a whole number too large for a float has no place
there. Infinite speeds and speeds that are no number are allowed: either completes a text at its
first tick.

## Main definitions

* `Amount` is a whole number or a float
* `Amount.float?` is the float it is reckoned as
* the instance of `Tempo` makes amounts positions, times and speeds of a reveal
-/

namespace Parley

/-- A number as a host gives it. -/
inductive Amount where
  | whole (n : Int)
  | real (x : Float)

namespace Amount

/-- The nearest float, which is infinite for a whole number that is too large. -/
def toFloat : Amount → Float
  | whole n => Float.ofInt n
  | real x => x

/-- The float an amount is reckoned as, unless it is a whole number too large for one. -/
def float? : Amount → Option Float
  | whole n => if (Float.ofInt n).isInf then none else some (Float.ofInt n)
  | real x => some x

/-- Reckon in floats. -/
def reckon (op : Float → Float → Float) (a b : Amount) : Option Amount := do
  return real (op (← a.float?) (← b.float?))

/-- The product, which is exact for whole numbers. -/
def mul? : Amount → Amount → Option Amount
  | whole m, whole n => some (whole (m * n))
  | a, b => reckon (· * ·) a b

/-- Positions are floats. Amounts are compared with positions and with zero only, so comparing them
as floats is exact. -/
instance : Tempo Amount where
  ofInt n := real (Float.ofInt n)
  whole?
    | whole n => some n
    | real x => Float.whole? x
  add? := reckon (· + ·)
  mul? := mul?
  inv? := reckon (· / ·) (real 1.0)
  lt a b := decide (a.toFloat < b.toFloat)
  le a b := decide (a.toFloat ≤ b.toFloat)

end Amount

end Parley
