import Parley.Text.Basic

/-!
# Frames

A system that takes part in the frames of a host runs three hooks in each of them, in order: one
before its work, the work itself with the elapsed time, and one after it. A system that is switched
off runs none.
-/

namespace Parley

/-- What a system runs in a frame. -/
inductive Hook (F : Type) where
  | before
  | work (dt : F)
  | after
  deriving DecidableEq, Repr

namespace Frame

/-- The hooks run in a frame. -/
def hooks {F : Type} (enabled : Bool) (dt : F) : List (Hook F) :=
  if enabled then [.before, .work dt, .after] else []

/-- How early a system runs in a frame that says nothing else. -/
def priority : Int := 0

/-- How a system is shown, with its switch. -/
def label (name switch : Text) : Text := name ++ "(enabled=".toList ++ switch ++ [')']

end Frame

end Parley
