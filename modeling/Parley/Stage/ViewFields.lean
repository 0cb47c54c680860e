import Parley.Json.Record
import Parley.Stage.View

/-!
# Views from fields

A host may build a view of its own and change its fields one by one. Every value is checked. A phase
is given by its number, and a choice as an object with a text and, unless it is unlocked, a truth
value that says so.
-/

namespace Parley

namespace Phase

/-- All phases, in their fixed order. -/
def all : List Phase := [atLine, atChoice, ended]

/-- The name of a phase. -/
def name : Phase → Text
  | atLine => "AT_LINE".toList
  | atChoice => "AT_CHOICE".toList
  | ended => "ENDED".toList

/-- The phase with a name. -/
def ofName? (t : Text) : Option Phase := all.find? fun p => p.name == t

/-- The phase with a number, the first having the number one. -/
def ofNumber? (n : Int) : Option Phase := if n < 1 then none else all[n.toNat - 1]?

end Phase

namespace View

/-- A phase that was looked up. -/
def member : Option Phase → Except FieldFault Phase
  | some p => .ok p
  | none => .error .notMember

/-- A phase by its number, which must not be too large for a machine word. -/
def asPhase : Json → Except FieldFault Phase
  | .text _ => .error .notMember
  | .int n => if Json.fitsWord n then member (Phase.ofNumber? n) else .error .intParsingSize
  | v =>
    match v.asInt with
    | .ok n => member (Phase.ofNumber? n)
    | .error _ => .error .notMember

/-- A text, or nothing. -/
def asOptionalText : Json → Except FieldFault (Option Text)
  | .null => .ok none
  | v => v.asText.map some

/-- The parts of a choice on screen. -/
def choiceParts : List Text := ["text".toList, "unlocked".toList]

/-- The text of a choice, which it must have. -/
def choiceText (v : Json) : Except FieldFault Text :=
  match v.field? "text".toList with
  | none => .error .missing
  | some t => t.asText

/-- Whether a choice is unlocked, which it is when nothing is said. -/
def choiceUnlocked (v : Json) : Except FieldFault Bool :=
  match v.field? "unlocked".toList with
  | none => .ok true
  | some b => b.asBool

/-- The fault of a value at a place, if there is one. -/
def faultAt {α : Type} (place : List Text) : Except FieldFault α → List FieldError
  | .ok _ => []
  | .error fault => [⟨place, fault⟩]

/-- A choice on screen, the faults of its parts being reported under the parts. -/
def asChoice (place : List Text) : Json → Except (List FieldError) ChoiceView
  | v@(.object es) =>
    let unknown := (es.map Prod.fst).filter fun k => !choiceParts.contains k
    match choiceText v, choiceUnlocked v, unknown with
    | .ok t, .ok b, [] => .ok ⟨t, b⟩
    | t, b, unknown =>
      .error (faultAt (place ++ ["text".toList]) t ++ faultAt (place ++ ["unlocked".toList]) b ++
        unknown.map fun k => ⟨place ++ [k], .unknownPart⟩)
  | _ => .error [⟨place, .recordType⟩]

/-- The choices of a list, the first of which has the given place. -/
def asChoicesFrom (field : Text) : Nat → List Json → Except (List FieldError) (List ChoiceView)
  | _, [] => .ok []
  | i, v :: vs =>
    match asChoice [field, (toString i).toList] v, asChoicesFrom field (i + 1) vs with
    | .ok c, .ok cs => .ok (c :: cs)
    | .error es, .ok _ | .ok _, .error es => .error es
    | .error es, .error es' => .error (es ++ es')

/-- The choices on screen. -/
def asChoices (field : Text) : Json → Except (List FieldError) (List ChoiceView)
  | .list vs => asChoicesFrom field 0 vs
  | _ => .error [⟨[field], .listType⟩]

/-- Put a value into a field of a view. -/
def take (w : View) (name : Text) (v : Json) : Option (Except (List FieldError) View) :=
  if name = "state".toList then
    some (Record.field name (asPhase v) fun p => { w with phase := p })
  else if name = "conversation_id".toList then
    some (Record.field name (asOptionalText v) fun t => { w with conversation := t })
  else if name = "speaker_name".toList then
    some (Record.field name v.asText fun t => { w with speaker := t })
  else if name = "full_text".toList then
    some (Record.field name v.asText fun t => { w with text := t })
  else if name = "displayed_text".toList then
    some (Record.field name v.asText fun t => { w with shown := t })
  else if name = "choices".toList then
    some ((asChoices name v).map fun cs => { w with choices := cs })
  else if name = "selected_choice".toList then
    some (Record.field name v.asInt fun n => { w with highlight := n })
  else none

/-- Views as a kind of record. -/
def record : Record View :=
  ⟨"DialogueContext".toList, ["is_active".toList, "is_text_complete".toList], take⟩

/-- A view from fields. -/
def ofFields : List (Text × Json) → Except (List FieldError) View := record.fill blank

/-- Change one field. -/
def assign (w : View) (name : Text) (v : Json) : Except Record.Refusal View :=
  record.assign w name v

end View

end Parley
