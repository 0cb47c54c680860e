import Parley.Text.Basic

/-!
# Blank characters

The characters that separate words and that trimming removes: the Unicode white space, together
with the four information separators U+001C to U+001F. Zero-width characters such as U+200B and
U+FEFF are not blank.

## Main definitions

* `Text.strip` trims the blanks at both ends
* `Text.words` lists the maximal runs of characters that are not blank
* `Text.keyword` and `Text.argument` take a line apart at its first blank
-/

namespace Parley

/-- The blank characters, as inclusive ranges of code points. -/
def blankRanges : List (Nat × Nat) :=
  [(0x09, 0x0d), (0x1c, 0x20), (0x85, 0x85), (0xa0, 0xa0), (0x1680, 0x1680), (0x2000, 0x200a),
   (0x2028, 0x2029), (0x202f, 0x202f), (0x205f, 0x205f), (0x3000, 0x3000)]

/-- Whether a character separates words. -/
def isBlank (c : Char) : Bool :=
  blankRanges.any fun r => decide (r.1 ≤ c.toNat) && decide (c.toNat ≤ r.2)

namespace Text

/-- The text without the blanks at its two ends. -/
def strip (t : Text) : Text := trim isBlank t

/-- Whether the text has no character that is not blank. -/
def isAllBlank (t : Text) : Bool := t.all isBlank

/-- The maximal runs of characters that are not blank, in order. -/
def words (t : Text) : List Text :=
  (t.splitOnP isBlank).filter fun w => !w.isEmpty

/-- What stands before the first blank. -/
def keyword (t : Text) : Text := t.takeWhile fun c => !isBlank c

/-- What stands after the first blank, stripped; empty when there is nothing. -/
def argument (t : Text) : Text := strip (t.dropWhile fun c => !isBlank c)

@[simp] theorem strip_nil : strip [] = [] := rfl

end Text

end Parley
