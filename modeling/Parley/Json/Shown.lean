import Parley.Decimal.Shortest
import Parley.Json.Basic
import Parley.Text.Quoted

/-!
# Showing values

How a value appears inside a message. A text appears as it is, and quoted inside of lists and
objects.

## Main definitions

* `Json.shown` is a value by itself
* `Json.quoted` is a value inside another
-/

namespace Parley.Json

mutual

/-- A value inside another. -/
def quoted : Json → Text
  | null => "None".toList
  | bool true => "True".toList
  | bool false => "False".toList
  | int n => (toString n).toList
  | real x => Float.shortest x
  | text t => t.quoted
  | list [] => ['[', ']']
  | list (v :: vs) => '[' :: quoted v ++ quotedItems vs
  | object [] => ['{', '}']
  | object ((k, v) :: es) => '{' :: k.quoted ++ ": ".toList ++ quoted v ++ quotedFields es

/-- The items after the first and the closing bracket. -/
def quotedItems : List Json → Text
  | [] => [']']
  | v :: vs => ", ".toList ++ quoted v ++ quotedItems vs

/-- The fields after the first and the closing brace. -/
def quotedFields : List (Text × Json) → Text
  | [] => ['}']
  | (k, v) :: es => ", ".toList ++ k.quoted ++ ": ".toList ++ quoted v ++ quotedFields es

end

/-- A value by itself. -/
def shown : Json → Text
  | text t => t
  | v => v.quoted

end Parley.Json
