import Parley.Condition.Basic

/-!
# The conjunction of two conditions

Conditions have no parentheses, so the conjunction of two of them is written out: every alternative
of the first is extended by every alternative of the second. An absent or blank condition adds
nothing, and the other one is kept as it was written.
-/

namespace Parley.Condition

/-- Every alternative on the left extended by every alternative on the right, the left one varying
slowest. -/
def product (ls rs : List (List Text)) : List (List Text) :=
  ls.flatMap fun l => rs.map (l ++ ·)

/-- The text of a list of alternatives. -/
def ofGroups (gs : List (List Text)) : Text :=
  Text.join " || ".toList (gs.map (Text.join " && ".toList))

/-- The conjunction of two conditions. -/
def conjoin (a b : Option Text) : Option Text :=
  match a, b with
  | none, _ => b
  | some _, none => if isBlank a then b else a
  | some s, some t =>
    if s.isAllBlank then b
    else if t.isAllBlank then a
    else some (ofGroups (product (groups s) (groups t)))

end Parley.Condition
