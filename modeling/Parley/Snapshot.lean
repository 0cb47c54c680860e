import Parley.Json.Record
import Parley.Store

/-!
# Stores from snapshots

A host keeps a store as an object of two objects, the numbers and the flags by name, and can build a
store from it again. Every value is checked, and what is wrong is reported under the name of the
variable.
-/

namespace Parley.Store

/-- The values of an object, each read by `read`, with what is wrong in them. -/
def readValues {α : Type} (field : Text) (read : Json → Except FieldFault α) (v : Json) :
    Except (List FieldError) (Table Text α) :=
  match v with
  | .object es =>
    let errors := es.filterMap fun e =>
      match read e.2 with
      | .ok _ => none
      | .error fault => some (FieldError.mk [field, e.1] fault)
    if errors.isEmpty then
      .ok (.ofList (es.filterMap fun e =>
        match read e.2 with
        | .ok a => some (e.1, a)
        | .error _ => none))
    else .error errors
  | _ => .error [⟨[field], .objectType⟩]

/-- Put a value into a field of a store. -/
def take (s : Store) (name : Text) (v : Json) : Option (Except (List FieldError) Store) :=
  if name = "ints".toList then
    some ((readValues name Json.asInt v).map fun t => { s with numbers := t })
  else if name = "bools".toList then
    some ((readValues name Json.asBool v).map fun t => { s with flags := t })
  else none

/-- Stores as a kind of record. -/
def record : Record Store := ⟨"VariableStore".toList, [], take⟩

/-- Why there is no store in a snapshot. -/
inductive SnapshotFault where
  | notObject (type : Text)
  | invalid (errors : List FieldError)
  deriving DecidableEq, Repr

/-- The wording of the refusal of a snapshot that is no object. -/
def notObjectMessage (type : Text) : Text :=
  type.quoted ++ " object has no attribute 'get'".toList

/-- The store of a snapshot. What else the snapshot holds is ignored. -/
def ofSnapshot : Json → Except SnapshotFault Store
  | .object es =>
    (record.fill empty (es.filter fun e => e.1 = "ints".toList ∨ e.1 = "bools".toList)).mapError
      .invalid
  | v => .error (.notObject v.typeName)

/-- Replace the numbers or the flags. -/
def assign (s : Store) (name : Text) (v : Json) : Except Record.Refusal Store :=
  record.assign s name v

end Parley.Store
