import Parley.Playback.Player
import Parley.Stage.Action
import Parley.Stage.Frame
import Parley.Stage.View

/-!
# The stage

A stage drives one player from actions and elapsed time. It ticks the reveal, announces its
progress, and keeps a view that a renderer can draw without asking the player.

Confirming first completes a reveal that is running, and only then moves the story. The completion
of a reveal is announced once for everything that is shown; a text with nothing to reveal is
complete on arrival. The end of a story reveals nothing.

## Main definitions

* `Stage.start` advances the player and shows what it shows
* `Stage.handle` handles an action and says whether it had a use for it
* `Stage.update` lets time pass

## Implementation notes

What the player says and what the stage says itself are kept apart, in `StageSignal`, because they
may go to different listeners.
-/

namespace Parley

/-- A player with the view of it. -/
structure Stage (F : Type) where
  player : Player F
  view : View
  /-- How many choices have a key of their own. -/
  keyLimit : Int
  /-- Whether the completion of the current reveal has been announced. -/
  completed : Bool
  enabled : Bool

/-- What is said on a stage, by the player or by the stage. -/
inductive StageSignal where
  | player (s : Signal)
  | stage (n : Notice)
  deriving DecidableEq, Repr

/-- A turn of a stage. -/
abbrev StageTurn (F α : Type) : Type := Turn (Stage F) StageSignal (fun _ => Unit) PlayFault α

namespace Stage

variable {F : Type}

/-- A stage for a player. -/
def around (player : Player F) (view : View) (keyLimit : Int) : Stage F :=
  ⟨player, view, keyLimit, false, true⟩

/-- Change the player. -/
def withPlayer (s : Stage F) (p : Player F) : Stage F := { s with player := p }

/-- A turn of the player on a stage. -/
def playing {α : Type} (m : PlayerTurn F α) : StageTurn F α :=
  m.embed Stage.player (fun p s => s.withPlayer p) (fun o => Turn.say (.player o)) id

/-- Change the view. -/
def changeView (f : View → View) : StageTurn F Unit :=
  Turn.modify fun s => { s with view := f s.view }

/-- Announce a notice. -/
def announce (n : Notice) : StageTurn F Unit := Turn.say (.stage n)

/-- Announce the completion of the reveal, once. -/
def announceCompletion : StageTurn F Unit := do
  let s ← Turn.get
  if s.completed then pure ()
  else do
    Turn.modify fun s => { s with completed := true }
    announce (.textCompleted s.player.reveal.text)

variable [Tempo F]

/-- The view of a player as it is, with the first choice highlighted. -/
def viewOf (p : Player F) : View :=
  { phase := p.phase
    conversation := some p.conversation
    speaker := (p.display.map Display.speaker).getD []
    text := p.reveal.text
    shown := p.reveal.shown
    choices := p.choices
    highlight := 0 }

/-- Bring the view up to date with the player. -/
def sync : StageTurn F Unit := do
  Turn.modify fun s => { s with view := viewOf s.player, completed := false }
  let s ← Turn.get
  if !s.player.isEnded && s.player.reveal.isComplete then announceCompletion else pure ()

/-- Advance the player and show what it shows. -/
def start : StageTurn F (Option Display) := do
  let d ← playing Player.advance
  sync
  return d

/-- Select a choice. The answer is whether it was taken. -/
def select (index : Int) : StageTurn F Bool := do
  match ← playing (Player.select index) with
  | none => return false
  | some _ =>
    sync
    return true

/-- Reveal the whole text at once. -/
def skipReveal : StageTurn F Text := do
  Turn.modify fun s => { s with
    player := s.player.skipReveal
    view := { s.view with shown := s.player.reveal.text } }
  let s ← Turn.get
  announceCompletion
  return s.player.reveal.text

/-- Complete a running reveal and use the action up, or do something else with it. -/
def orElseReveal (otherwise : StageTurn F Bool) : StageTurn F Bool := do
  let s ← Turn.get
  if s.player.reveal.isComplete then otherwise
  else do
    let _ ← skipReveal
    return true

/-- Go on: take the highlighted choice, or advance. -/
def goOn : StageTurn F Bool := do
  let s ← Turn.get
  if s.player.phase = .atChoice then select s.view.highlight
  else do
    let _ ← start
    return true

/-- Move the highlight, if choices are open. -/
def highlight (move : View → View) : StageTurn F Bool := do
  let s ← Turn.get
  if s.player.phase = .atChoice then do
    changeView move
    return true
  else return false

/-- Handle an action. The answer is whether there was a use for it. -/
def handle (a : Action) : StageTurn F Bool := do
  let s ← Turn.get
  if s.player.isEnded then return false
  else
    match a with
    | .skip => orElseReveal (pure false)
    | .confirm => orElseReveal goOn
    | .menuUp => highlight View.previous
    | .menuDown => highlight View.next
    | .choice i => if (i.val : Int) < s.keyLimit then select i.val else return false

/-- Tick the reveal, and announce what it shows more and when it is complete. -/
def process (dt : F) : StageTurn F Unit := do
  let s ← Turn.get
  if s.player.isEnded || s.player.reveal.isComplete then pure ()
  else
    match s.player.reveal.tick? dt with
    | none => Turn.fail .tooLarge
    | some reveal => do
      let before := s.player.reveal.shown.length
      let shown := reveal.shown
      Turn.modify fun s => { s with
        player := { s.player with reveal }
        view := { s.view with shown } }
      if before < shown.length then announce (.textAdvanced shown.length shown) else pure ()
      let s ← Turn.get
      if s.player.reveal.isComplete then announceCompletion else pure ()

/-- What a stage does in a hook. -/
def runHook : Hook F → StageTurn F Unit
  | .before => pure ()
  | .work dt => process dt
  | .after => pure ()

/-- Let a frame pass. -/
def update (dt : F) : StageTurn F Unit := do
  let s ← Turn.get
  Turn.each runHook (Frame.hooks s.enabled dt)

end Stage

end Parley
