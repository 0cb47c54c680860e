import Parley.Text.Digit

/-!
# Literals

The right-hand side of a comparison or a change: a whole number or a truth value.

A number is an optional sign, at least one decimal digit in any mix of scripts, and at most one
line feed at the very end. It is refused, not ignored, when it has more than `maxDigits` digits. A
truth value is `true` or `false` in any mix of ASCII cases. The number is tried first.
-/

namespace Parley

/-- A value as an author writes it. -/
inductive Literal where
  | number (n : Int)
  | truth (b : Bool)
  deriving DecidableEq, Repr

namespace Literal

/-- The text without one line feed at its end. -/
def dropFinalNewline (t : Text) : Text :=
  if t.getLast? = some '\n' then t.dropLast else t

/-- The sign and the digits of a text that has the shape of a number. -/
def numeral? (t : Text) : Option (Bool × List Nat) :=
  match dropFinalNewline (takeSign t).2 with
  | [] => none
  | c :: cs => (Digits.ofText? (c :: cs)).map ((takeSign t).1, ·)

/-- The truth value a text spells. -/
def truth? (t : Text) : Option Bool :=
  if t.map Char.toLower = "true".toList then some true
  else if t.map Char.toLower = "false".toList then some false
  else none

/-- The literal a text spells, if any. -/
def read (t : Text) : Except Overlong (Option Literal) :=
  match numeral? t with
  | some (negative, ds) =>
    if ds.length ≤ maxDigits then .ok (some (.number (signed negative (Digits.value ds))))
    else .error ⟨ds.length⟩
  | none => .ok ((truth? t).map .truth)

end Literal

end Parley
