/-!
# Places

An index counts the things of a list from zero. A negative one counts back from the end, so that
minus one is the last place.
-/

namespace Parley

/-- The place an index means among `size` things, if there is one. -/
def place? (size : Nat) (index : Int) : Option Nat :=
  let place := if index < 0 then index + size else index
  if 0 ≤ place ∧ place < size then some place.toNat else none

end Parley
