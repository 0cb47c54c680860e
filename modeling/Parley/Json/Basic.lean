import Parley.Table
import Parley.Text.Basic

/-!
# JSON values

The values a host hands over without promising their types: what a settings file holds, the fields
of a record before they are checked, and the data of events.

Whole numbers are exact and distinct from floats, as in the texts they come from. An object binds
each key once.
-/

namespace Parley

/-- A JSON value. -/
inductive Json where
  | null
  | bool (b : Bool)
  | int (n : Int)
  | real (x : Float)
  | text (t : Text)
  | list (vs : List Json)
  | object (es : List (Text × Json))

namespace Json

instance : Inhabited Json := ⟨.null⟩

/-- The value of a field of an object. -/
def field? (j : Json) (name : Text) : Option Json :=
  match j with
  | object es => es.lookup name
  | _ => none

end Json

end Parley
