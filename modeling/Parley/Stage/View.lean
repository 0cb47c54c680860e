import Parley.Playback.Notice

/-!
# The view

What a renderer draws: a copy of what is on screen, with the reveal so far and a highlighted choice.
The highlight wraps around at both ends. A host may put any number there; it becomes a place in the
list of choices as soon as it is moved.
-/

namespace Parley

/-- What a renderer draws. -/
structure View where
  phase : Phase
  conversation : Option Text
  speaker : Text
  text : Text
  shown : Text
  choices : List ChoiceView
  highlight : Int
  deriving DecidableEq, Repr

namespace View

/-- The view of nothing. -/
def blank : View := ⟨.atLine, none, [], [], [], [], 0⟩

/-- Whether the conversation is still running. -/
def isActive (v : View) : Bool := v.phase != .ended

/-- Whether the whole text is shown. -/
def isTextComplete (v : View) : Bool := v.shown == v.text

/-- Move the highlight by some places, around the list of choices. -/
def moveHighlight (v : View) (places : Int) : View :=
  if v.choices.isEmpty then v
  else { v with highlight := (v.highlight + places).emod v.choices.length }

/-- Highlight the next choice. -/
def next (v : View) : View := v.moveHighlight 1

/-- Highlight the choice before. -/
def previous (v : View) : View := v.moveHighlight (-1)

end View

end Parley
