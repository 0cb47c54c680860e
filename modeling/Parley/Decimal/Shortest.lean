import Parley.Decimal.Whole
import Parley.Text.Basic

/-!
# The shortest decimal text of a float

A float is written with the fewest significant digits that read back as the same float, and among
those with the ones nearest to it; of two equally near the even one is taken. The text is positional
from `1e-4` up to below `1e16` and always shows a point; outside that range it has an exponent of at
least two digits.

## Implementation notes

A positive finite float is `m * 2 ^ q`, and the numerals that read back as it fill the interval
between the midpoints to its two neighbours, ends included when `m` is even. For 1, 2, … digits the
two points of the decimal grid around the float are tested in exact arithmetic. If a point of a grid
lies in the interval, so does one of these two, hence the first grid with a hit is the coarsest.
-/

namespace Parley

/-- A positive rational number as a quotient. -/
private structure Quotient where
  num : Nat
  den : Nat

namespace Quotient

/-- `m * b ^ e`. -/
private def scaled (m : Nat) (b : Nat) (e : Int) : Quotient :=
  if 0 ≤ e then ⟨m * Nat.pow b e.natAbs, 1⟩ else ⟨m, Nat.pow b e.natAbs⟩

private def le (a b : Quotient) : Bool := decide (a.num * b.den ≤ b.num * a.den)

private def lt (a b : Quotient) : Bool := decide (a.num * b.den < b.num * a.den)

/-- The whole part of `a / b`. -/
private def div (a b : Quotient) : Nat := a.num * b.den / (a.den * b.num)

/-- The distance between two numbers. -/
private def dist (a b : Quotient) : Quotient :=
  let x := a.num * b.den
  let y := b.num * a.den
  ⟨if x ≤ y then y - x else x - y, a.den * b.den⟩

end Quotient

namespace Shortest

/-- The numbers that read back as `m * 2 ^ q`: its lower and upper end, whether the ends belong to
it, and the number itself. The lower end is nearer when `m` is the smallest of its binade. -/
private structure Interval where
  lower : Quotient
  upper : Quotient
  closed : Bool
  value : Quotient

private def interval (m : Nat) (q : Int) : Interval :=
  let below := if m = 1 <<< 52 ∧ -1074 < q then 1 else 2
  { lower := .scaled (4 * m - below) 2 (q - 2)
    upper := .scaled (4 * m + 2) 2 (q - 2)
    closed := m % 2 == 0
    value := .scaled (4 * m) 2 (q - 2) }

private def Interval.contains (i : Interval) (x : Quotient) : Bool :=
  if i.closed then i.lower.le x && x.le i.upper else i.lower.lt x && x.lt i.upper

/-- The best point with the given exponent, if one reads back. -/
private def onGrid (i : Interval) (g : Int) : Option Nat :=
  let d := i.value.div (.scaled 1 10 g)
  let low := Quotient.scaled d 10 g
  let high := Quotient.scaled (d + 1) 10 g
  match d != 0 && i.contains low, i.contains high with
  | true, true =>
    let below := i.value.dist low
    let above := high.dist i.value
    some (if below.lt above || (below.le above && d % 2 == 0) then d else d + 1)
  | true, false => some d
  | false, true => some (d + 1)
  | false, false => none

/-- The coarsest grid point found with at most `n` digits more, starting from exponent `g`. -/
private def search (i : Interval) : Nat → Int → Nat × Int
  | 0, g => (i.value.div (.scaled 1 10 g), g)
  | n + 1, g =>
    match onGrid i g with
    | some d => (d, g)
    | none => search i n (g - 1)

/-- The least power of ten above a number, from a lower bound for it. -/
private def ceiling (v : Quotient) : Nat → Int → Int
  | 0, k => k
  | n + 1, k => if v.lt (.scaled 1 10 k) then k else ceiling v n (k + 1)

/-- The fewest digits of `m * 2 ^ q`, as a whole number and a power of ten. -/
def digits (m : Nat) (q : Int) : Nat × Int :=
  let i := interval m q
  let k := ceiling i.value 4 ((m.log2 + q) * 30103 / 100000 - 1)
  search i 17 (k - 1)

/-- Digits without the zeros at their end, and the exponent that makes up for them. -/
private def stripZeros (ds : Text) (g : Int) : Text × Int :=
  let kept := Text.dropEnd (· == '0') ds
  (kept, g + (ds.length - kept.length : Nat))

/-- The text of `ds * 10 ^ g` for digits that do not end in zero. -/
private def layout (ds : Text) (g : Int) : Text :=
  let point := g + ds.length
  if 16 < point ∨ point < -3 then
    let e := point - 1
    let size := (toString e.natAbs).toList
    ds.take 1 ++ (if ds.length = 1 then [] else '.' :: ds.drop 1) ++
      'e' :: (if e < 0 then '-' else '+') :: (if size.length < 2 then '0' :: size else size)
  else if point ≤ 0 then '0' :: '.' :: List.replicate point.natAbs '0' ++ ds
  else if ds.length ≤ point.natAbs then
    ds ++ List.replicate (point.natAbs - ds.length) '0' ++ ['.', '0']
  else ds.take point.natAbs ++ '.' :: ds.drop point.natAbs

/-- The text of a positive number `m * 2 ^ q`. -/
private def positive (m : Nat) (q : Int) : Text :=
  let (d, g) := digits m q
  let (ds, g') := stripZeros (toString d).toList g
  layout ds g'

end Shortest

/-- The shortest text that reads back as a float. -/
def Float.shortest (x : Float) : Text :=
  if x.isNaN then "nan".toList
  else
    let p := FloatParts.of x
    let size :=
      if p.isSpecial then "inf".toList
      else if p.significand = 0 then "0.0".toList
      else Shortest.positive p.significand p.scale
    if p.negative then '-' :: size else size

end Parley
