import Parley.Text.Blank

/-!
# Decimal digits

Every script with its own decimal digits encodes them as a run of ten consecutive characters from
zero to nine, so the table lists only where each run starts. Superscripts, circled digits and Roman
numerals are not decimal digits.

Numbers may mix the scripts freely.

## Main definitions

* `digitValue?` is the value of a decimal digit of any script
* `Digits.value` is the positional value of a list of digit values
-/

namespace Parley

/-- The zeros of all scripts that have decimal digits. -/
def digitZeros : List Nat :=
  [0x0030, 0x0660, 0x06f0, 0x07c0, 0x0966, 0x09e6, 0x0a66, 0x0ae6, 0x0b66, 0x0be6, 0x0c66, 0x0ce6,
   0x0d66, 0x0de6, 0x0e50, 0x0ed0, 0x0f20, 0x1040, 0x1090, 0x17e0, 0x1810, 0x1946, 0x19d0, 0x1a80,
   0x1a90, 0x1b50, 0x1bb0, 0x1c40, 0x1c50, 0xa620, 0xa8d0, 0xa900, 0xa9d0, 0xa9f0, 0xaa50, 0xabf0,
   0xff10, 0x104a0, 0x10d30, 0x11066, 0x110f0, 0x11136, 0x111d0, 0x112f0, 0x11450, 0x114d0,
   0x11650, 0x116c0, 0x11730, 0x118e0, 0x11950, 0x11c50, 0x11d50, 0x11da0, 0x16a60, 0x16ac0,
   0x16b50, 0x1d7ce, 0x1d7d8, 0x1d7e2, 0x1d7ec, 0x1d7f6, 0x1e140, 0x1e2f0, 0x1e950, 0x1fbf0]

/-- The value of a decimal digit of any script, `none` for every other character. -/
def digitValue? (c : Char) : Option Nat :=
  (digitZeros.find? fun z => decide (z ≤ c.toNat) && decide (c.toNat < z + 10)).map (c.toNat - ·)

/-- Whether a character is a decimal digit of some script. -/
def isDecimalDigit (c : Char) : Bool := (digitValue? c).isSome

namespace Digits

/-- The positional value of digits in base ten, most significant first. -/
def value (ds : List Nat) : Nat := ds.foldl (fun n d => 10 * n + d) 0

/-- The values of the digits of a text, `none` when some character is not a digit. -/
def ofText? (t : Text) : Option (List Nat) := t.mapM digitValue?

@[simp] theorem value_nil : value [] = 0 := rfl

theorem value_append (ds es : List Nat) :
    value (ds ++ es) = es.foldl (fun n d => 10 * n + d) (value ds) := by
  simp [value, List.foldl_append]

end Digits

/-- A sign in front of a number: whether it is negative, and what follows it. -/
def takeSign : Text → Bool × Text
  | '-' :: t => (true, t)
  | '+' :: t => (false, t)
  | t => (false, t)

/-- A magnitude with its sign. -/
def signed (negative : Bool) (n : Nat) : Int := if negative then -(n : Int) else n

/-- The most digits a numeral may have, leading zeros included. -/
def maxDigits : Nat := 4300

/-- A numeral with more digits than `maxDigits`, and how many it has. -/
structure Overlong where
  digits : Nat
  deriving DecidableEq, Repr

/-- The wording of the refusal. -/
def Overlong.message (e : Overlong) : Text :=
  s!"Exceeds the limit ({maxDigits} digits) for integer string conversion: value has {e.digits} digits; use sys.set_int_max_str_digits() to increase the limit".toList

end Parley
