/-!
# The whole part of a float

A finite float is a whole number times a power of two, so its whole part toward zero is exact
however large it is.

## Main definitions

* `FloatParts` is what the bits of a float say
* `Float.whole?` is the whole part
-/

namespace Parley

/-- A float taken apart into its sign, its exponent and its fraction, as its bits give them. A float
with the largest exponent is infinite or no number; one with the smallest has no leading bit. -/
structure FloatParts where
  negative : Bool
  exponent : Nat
  fraction : Nat
  deriving DecidableEq, Repr

namespace FloatParts

/-- The parts of a float. -/
def of (x : Float) : FloatParts :=
  let bits := x.toBits.toNat
  ⟨bits >>> 63 == 1, (bits >>> 52) % 2048, bits % (1 <<< 52)⟩

/-- Whether the float is infinite or no number. -/
def isSpecial (p : FloatParts) : Bool := p.exponent == 2047

/-- The significand. The size of a finite float is this times two to the power of `scale`. -/
def significand (p : FloatParts) : Nat :=
  if p.exponent = 0 then p.fraction else (1 <<< 52) + p.fraction

/-- The power of two that belongs to the significand. -/
def scale (p : FloatParts) : Int := (if p.exponent = 0 then 1 else p.exponent : Nat) - (1075 : Int)

end FloatParts

/-- The whole part of a float, toward zero; `none` for infinities and NaN. -/
def Float.whole? (x : Float) : Option Int :=
  let p := FloatParts.of x
  if p.isSpecial then none
  else
    let size : Nat :=
      if 0 ≤ p.scale then p.significand <<< p.scale.natAbs else p.significand >>> p.scale.natAbs
    some (if p.negative then -(size : Int) else size)

end Parley
