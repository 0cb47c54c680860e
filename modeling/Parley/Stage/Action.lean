import Parley.Text.Basic

/-!
# Actions

What a player of the story can mean by pressing a key: go on, skip the reveal, move the highlight,
or take one of the first nine choices directly.
-/

namespace Parley

/-- An action of the person at the keys. Choices are counted from zero. -/
inductive Action where
  | confirm
  | skip
  | menuUp
  | menuDown
  | choice (index : Fin 9)
  deriving DecidableEq, Repr

namespace Action

/-- The actions that take a choice, in order. -/
def choices : List Action := (List.finRange 9).map choice

/-- All actions, in their fixed order. -/
def all : List Action := [confirm, skip, menuUp, menuDown] ++ choices

/-- The name of an action. Names count choices from one. -/
def name : Action → Text
  | confirm => "CONFIRM".toList
  | skip => "SKIP".toList
  | menuUp => "MENU_UP".toList
  | menuDown => "MENU_DOWN".toList
  | choice i => s!"CHOICE_{i.val + 1}".toList

/-- The action with a name. -/
def ofName? (t : Text) : Option Action := all.find? fun a => a.name == t

/-- The choice an action takes. -/
def choiceIndex? : Action → Option Nat
  | choice i => some i.val
  | _ => none

/-- The action that takes a choice. Only the first nine choices have one. -/
def ofChoiceIndex? (index : Int) : Option Action :=
  if 0 ≤ index then choices[index.toNat]? else none

/-- The wording of the refusal of an index without an action. -/
def noAction (index : Int) : Text := s!"No choice action for index {index}".toList

end Action

end Parley
