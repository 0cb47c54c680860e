import Parley.Json.Lenient

/-!
# Filling records from fields

A record has fields with fixed names, and each knows how to take a JSON value. Filling a record
tries all fields it is given and reports every fault; assigning changes one field of a record or
leaves it as it was. Beside its fields a record has values that follow from them. These have names
too, but can only be read. Other names that start with an underscore are free for a host's own
notes, which are accepted and not kept.

## Main definitions

* `Record` describes the records of one kind
* `Record.fill` builds a record from a list of fields
* `Record.assign` changes one field, or gives a `Record.Refusal`
-/

namespace Parley

namespace FieldError

/-- Whether one text comes before another or is the same, by code points. -/
def textLe : Text → Text → Bool
  | [], _ => true
  | _ :: _, [] => false
  | c :: s, d :: t => decide (c < d) || (c == d && textLe s t)

/-- Whether one place comes before another or is the same. -/
def placeLe : List Text → List Text → Bool
  | [], _ => true
  | _ :: _, [] => false
  | s :: ss, t :: ts => (textLe s t && s != t) || (s == t && placeLe ss ts)

/-- Errors are reported by place, and at one place by the name of the fault. -/
def le (a b : FieldError) : Bool :=
  if a.place = b.place then textLe a.fault.code b.fault.code else placeLe a.place b.place

end FieldError

/-- A kind of record. -/
structure Record (R : Type) where
  /-- What a record of this kind is called. -/
  title : Text
  /-- The names of the values that follow from the fields. -/
  derived : List Text
  /-- The record with a JSON value in the named field, or what is wrong. There is no answer for a
  name that is no field. -/
  take : R → Text → Json → Option (Except (List FieldError) R)

namespace Record

/-- Why a field is not assigned. -/
inductive Refusal where
  | invalid (errors : List FieldError)
  | readOnly (title name : Text)
  deriving DecidableEq, Repr

/-- The wording of the refusal of a value that can only be read. -/
def readOnlyMessage (title name : Text) : Text :=
  "property ".toList ++ name.quoted ++ " of ".toList ++ title.quoted ++
    " object has no setter".toList

/-- What every record can say about itself: the fields there are, those it was given, and its values
beyond the fields. -/
def bookkeeping : List Text :=
  ["__fields__".toList, "__fields_set__".toList, "model_extra".toList, "model_fields_set".toList]

variable {R : Type} (kind : Record R)

/-- A field with one value and the faults found in it. -/
def field {α : Type} (name : Text) (v : Except FieldFault α) (put : α → R) :
    Except (List FieldError) R :=
  match v with
  | .ok a => .ok (put a)
  | .error fault => .error [⟨[name], fault⟩]

/-- Take fields one by one, collecting what is wrong. -/
def takeAll (r : R) (errors : List FieldError) : List (Text × Json) → R × List FieldError
  | [] => (r, errors)
  | (name, v) :: fields =>
    match kind.take r name v with
    | none => takeAll r (errors ++ [⟨[name], .unknownField⟩]) fields
    | some (.error es) => takeAll r (errors ++ es) fields
    | some (.ok r') => takeAll r' errors fields

/-- The record with the given fields, the others being as in `default`. -/
def fill (default : R) (fields : List (Text × Json)) : Except (List FieldError) R :=
  match kind.takeAll default [] fields with
  | (r, []) => .ok r
  | (_, errors) => .error (errors.mergeSort FieldError.le)

/-- Change one field. -/
def assign (r : R) (name : Text) (v : Json) : Except Refusal R :=
  if kind.derived.contains name || bookkeeping.contains name then
    .error (.readOnly kind.title name)
  else if name.head? = some '_' then .ok r
  else
    match kind.take r name v with
    | none => .error (.invalid [⟨[name], .noSuchField⟩])
    | some (.error es) => .error (.invalid (es.mergeSort FieldError.le))
    | some (.ok r') => .ok r'

end Record

end Parley
