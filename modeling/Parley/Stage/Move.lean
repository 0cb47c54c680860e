import Parley.Json.Shown
import Parley.Playback.Move
import Parley.Stage.Basic

/-!
# Moves of a stage

What a host does with a stage, as data: it starts the story, passes on the keys that were pressed,
lets frames pass, and switches the stage on and off.

## Main definitions

* `Stage.Move` lists what a host can do
* `Stage.Move.turn` is what a move does, with its answer
-/

namespace Parley.Stage

/-- What a host can do with a stage. -/
inductive Move (F : Type) where
  | start
  /-- Press a key, which may have no action. -/
  | press (key : Option Action)
  | select (index : Int)
  | skip
  | process (dt : F)
  | update (dt : F)
  | enable (enabled : Bool)

variable {F : Type}

/-- How a stage is shown, with its switch as its host has set it. -/
def label (switch : Json) : Text := Frame.label "DialogueSystem".toList switch.shown

variable [Tempo F]

/-- What a move does. -/
def Move.turn : Move F → StageTurn F Answer
  | start => Answer.display <$> Stage.start
  | press none => return .flag false
  | press (some a) => Answer.flag <$> Stage.handle a
  | select index => Answer.flag <$> Stage.select index
  | skip => Answer.text <$> Stage.skipReveal
  | process dt => do
    Stage.process dt
    return .nothing
  | update dt => do
    Stage.update dt
    return .nothing
  | enable enabled => do
    Turn.modify fun s => { s with enabled }
    return .text (label (.bool enabled))

end Parley.Stage
