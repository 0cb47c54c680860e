import Parley.Decimal.Shortest
import Parley.Json.Basic
import Parley.Text.Quoted

/-!
# Writing JSON

The compact text of a value, in ASCII: every other character is escaped by its UTF-16 units. A
float has the shortest text that reads back.

## Implementation notes

The text is written from the end, each piece in front of what follows it, so that a long text costs
no repeated copying.
-/

namespace Parley.Json

/-- The escape of one UTF-16 unit. -/
def unitEscape (n : Nat) : Text := '\\' :: 'u' :: hexDigits 4 n

/-- One character inside a text. -/
def writeChar (c : Char) (rest : Text) : Text :=
  if c = '"' then '\\' :: '"' :: rest
  else if c = '\\' then '\\' :: '\\' :: rest
  else if 0x20 ≤ c.toNat ∧ c.toNat < 0x7f then c :: rest
  else if c.toNat < 0x10000 then unitEscape c.toNat ++ rest
  else
    unitEscape (0xd800 + (c.toNat - 0x10000) / 0x400) ++
      (unitEscape (0xdc00 + (c.toNat - 0x10000) % 0x400) ++ rest)

/-- A text between quotes. -/
def writeText (t : Text) (rest : Text) : Text :=
  '"' :: t.foldr writeChar ('"' :: rest)

/-- A float. The ones that are no numbers have names. -/
def writeReal (x : Float) (rest : Text) : Text :=
  if x.isNaN then "NaN".toList ++ rest
  else if x.isInf then
    if x < 0.0 then "-Infinity".toList ++ rest else "Infinity".toList ++ rest
  else Float.shortest x ++ rest

mutual

/-- A value. -/
def write : Json → Text → Text
  | null, rest => "null".toList ++ rest
  | bool true, rest => "true".toList ++ rest
  | bool false, rest => "false".toList ++ rest
  | int n, rest => (toString n).toList ++ rest
  | real x, rest => writeReal x rest
  | text t, rest => writeText t rest
  | list [], rest => '[' :: ']' :: rest
  | list (v :: vs), rest => '[' :: write v (writeItems vs rest)
  | object [], rest => '{' :: '}' :: rest
  | object ((k, v) :: es), rest => '{' :: writeText k (':' :: write v (writeFields es rest))

/-- The items after the first and the closing bracket. -/
def writeItems : List Json → Text → Text
  | [], rest => ']' :: rest
  | v :: vs, rest => ',' :: write v (writeItems vs rest)

/-- The fields after the first and the closing brace. -/
def writeFields : List (Text × Json) → Text → Text
  | [], rest => '}' :: rest
  | (k, v) :: es, rest => ',' :: writeText k (':' :: write v (writeFields es rest))

end

/-- The text of a value. -/
def toText (j : Json) : Text := j.write []

end Parley.Json
