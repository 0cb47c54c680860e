import Parley.Bus.Host
import Parley.Place
import Parley.Settings
import Parley.Stage.Move
import Parley.Stage.ViewFields

/-!
# Rehearsing a story

Several players of one story, or one player on a stage, played step by step by a host. A recorder
writes down every notice that is delivered, and scripted listeners may step in: called for a notice,
they take steps of their own on the players, in the middle of the step that caused the notice.

## Main definitions

* `Step` lists what a host or a listener can do
* `Ensemble` is the world of a rehearsal
* `Ensemble.perform` carries out one step of the host

## Implementation notes

Players and stage announce on wires. There is one wire per bus: a player and its stage may share
one, have one each, or have none.
-/

namespace Parley

variable {F : Type}

/-- The buses of a rehearsal: that of the players and that of the stage. -/
inductive Wire where
  | players
  | stage
  deriving DecidableEq, Repr

/-- Who listens: the recorder, or a scripted listener on one of the wires. -/
inductive Listener where
  | recorder
  | script (wire : Wire) (number : Nat)
  deriving DecidableEq, Repr

namespace Ensemble

/-- What a host can do in a rehearsal: move a player or the stage, make a puller for a player or use
one, read the variables or set one to a JSON value, switch the stage on or off, and change the
settings or the highlight. Pullers are numbered in the order in which they were made, and a negative
number counts back from the latest. -/
inductive Step (F : Type) where
  | play (m : Player.Move F)
  | stage (m : Stage.Move F)
  | newPuller
  | pull (puller : Int)
  | number (name : Text) (default : Json)
  | flag (name : Text) (default : Json)
  | setNumber (name : Text) (value : Json)
  | enable (switch : Json)
  | configure (field : Text) (value : Json)
  | highlight (value : Json)
  | look

/-- What a step results in. -/
inductive Answer where
  | nothing
  | move (a : Parley.Answer)
  | puller (number : Nat)
  | pulled (t : Option Text)
  | number (n : Int)
  | value (v : Json)

/-- How a step can fail. -/
inductive Fault where
  | play (e : PlayFault)
  | notWhole (fault : Json.WholeFault)
  | refused (refusal : Record.Refusal)
  | noSuchPuller
  | told
  deriving DecidableEq, Repr

/-- What a listener does when it is called. -/
inductive Act (F : Type) where
  | consume
  | fail
  | step (s : Step F)

/-- A scripted listener: what it listens for and how early, on which player it acts, what it does in
one call, and how often. -/
structure Script (F : Type) where
  kinds : List NoticeKind
  priority : Int
  who : Nat
  acts : List (Act F)
  times : Nat

/-- What is written down during a step. -/
inductive Written where
  | notice (n : Notice)
  | answer (script : Nat) (a : Answer)
  | failing (script : Nat)

end Ensemble

/-- The world of a rehearsal. There is always a first player; it is the one on stage. -/
structure Ensemble (F : Type) where
  stage : Stage F
  others : List (Player F)
  /-- Whether all players have one store. -/
  sharedStore : Bool
  pullers : List (Nat × Reveal.Puller)
  settings : Settings
  playerWire : Option Wire
  stageWire : Option Wire
  written : Array Ensemble.Written
  calls : Table Listener Nat

namespace Ensemble

/-- A turn in a rehearsal. -/
abbrev EnsembleTurn (F α : Type) : Type :=
  HostTurn (Ensemble F) Wire NoticeKind Notice Listener Fault α

/-- The host of a rehearsal. -/
abbrev EnsembleHost (F : Type) : Type := Host (Ensemble F) Wire NoticeKind Notice Listener

/-- Players before anything has happened, the first of them on stage. -/
def assemble (lead : Player F) (others : List (Player F)) (sharedStore : Bool)
    (settings : Settings) (view : View) (playerWire stageWire : Option Wire) : Ensemble F :=
  { stage := .around lead view settings.maxChoiceKeys, others, sharedStore, pullers := [], settings,
    playerWire, stageWire, written := #[], calls := .empty }

/-- A player by number. Unknown numbers mean the first. -/
def player (e : Ensemble F) : Nat → Player F
  | 0 => e.stage.player
  | i + 1 => e.others.getD i e.stage.player

/-- Change a player, and with it the store of the others when they share it. -/
def setPlayer (i : Nat) (p : Player F) (e : Ensemble F) : Ensemble F :=
  let share := fun q : Player F => if e.sharedStore then { q with store := p.store } else q
  match i with
  | 0 => { e with stage := e.stage.withPlayer p, others := e.others.map share }
  | i + 1 =>
    { e with
      stage := e.stage.withPlayer (share e.stage.player)
      others := (e.others.map share).set i p }

/-- Change the stage. -/
def setStage (s : Stage F) (e : Ensemble F) : Ensemble F :=
  { setPlayer 0 s.player e with stage := s }

/-- Announce a notice on a wire, if there is one. -/
def announceOn (wire : Option Wire) (n : Notice) : EnsembleTurn F Unit :=
  match wire with
  | none => pure ()
  | some w => do
    let _ ← HostTurn.publish w n.kind n

/-- What a player says goes to its wire or on record. -/
def hear : Signal → EnsembleTurn F Unit
  | .notice n => do
    let e ← Turn.get
    announceOn e.playerWire n
  | .remark r => HostTurn.remark r

/-- What is said on the stage. -/
def hearStage : StageSignal → EnsembleTurn F Unit
  | .player s => hear s
  | .stage n => do
    let e ← Turn.get
    announceOn e.stageWire n

/-- A turn of a player. -/
def playing {α : Type} (i : Nat) (m : PlayerTurn F α) : EnsembleTurn F α :=
  m.embed (fun e => e.player i) (setPlayer i) hear fun f => .error (.play f)

/-- A turn of the stage. -/
def staging {α : Type} (m : StageTurn F α) : EnsembleTurn F α :=
  m.embed Ensemble.stage setStage hearStage fun f => .error (.play f)

/-- Go on with a record that was changed. -/
def changed {R : Type} : Except Record.Refusal R → EnsembleTurn F R
  | .ok r => pure r
  | .error refusal => Turn.fail (.error (.refused refusal))

/-- Go on with a whole number, if it could be read. -/
def whole : Except Json.WholeFault Int → EnsembleTurn F Int
  | .ok n => pure n
  | .error fault => Turn.fail (.error (.notWhole fault))

variable [Tempo F]

/-- Pull one character by a numbered puller. -/
def pullBy (number : Int) : EnsembleTurn F Answer := do
  let e ← Turn.get
  let found := do
    let place ← place? e.pullers.length number
    return (place, ← e.pullers[place]?)
  match found with
  | none => Turn.fail (.error .noSuchPuller)
  | some (place, i, puller) =>
    let p := e.player i
    let (t, puller, reveal) := Reveal.pull puller p.reveal
    Turn.modify fun e =>
      { setPlayer i { p with reveal } e with pullers := e.pullers.set place (i, puller) }
    return .pulled t

/-- Carry out a step. Moves of a player and pullers are for the player `who`. -/
def turnOf (who : Nat) : Step F → EnsembleTurn F Answer
  | .play m => Answer.move <$> playing who m.turn
  | .stage m => Answer.move <$> staging m.turn
  | .newPuller => do
    let e ← Turn.get
    Turn.modify fun e => { e with pullers := e.pullers ++ [(who, .fresh)] }
    return .puller e.pullers.length
  | .pull number => pullBy number
  | .number name default => do
    let e ← Turn.get
    Answer.number <$> whole (default.numberOr ((e.player who).store.numbers.get? name))
  | .flag name default => do
    let e ← Turn.get
    return .value (((e.player who).store.flags.get? name).elim default .bool)
  | .setNumber name value => do
    let n ← whole value.whole
    Answer.move <$> playing who (Player.Move.setNumber name n).turn
  | .enable switch => do
    let _ ← staging (Stage.Move.enable switch.truth).turn
    return .move (.text (Stage.label switch))
  | .configure field value => do
    let e ← Turn.get
    let settings ← changed (e.settings.assign field value)
    Turn.modify fun e => { e with settings }
    return .nothing
  | .highlight value => do
    let e ← Turn.get
    let view ← changed (e.stage.view.assign "selected_choice".toList value)
    Turn.modify fun e => { e with stage := { e.stage with view } }
    return .nothing
  | .look => return .nothing

/-- Write something down. -/
def write (w : Written) : EnsembleTurn F Unit :=
  Turn.modify fun e => { e with written := e.written.push w }

/-- Carry out the acts of a listener. -/
def actAll (number who ticket : Nat) : List (Act F) → EnsembleTurn F Unit
  | [] => pure ()
  | .consume :: as => do
    HostTurn.consume ticket
    actAll number who ticket as
  | .fail :: _ => do
    write (.failing number)
    Turn.fail (.error .told)
  | .step s :: as => do
    let a ← turnOf who s
    write (.answer number a)
    actAll number who ticket as

/-- One call of a listener. -/
def react (scripts : List (Script F)) (listener : Listener) (ticket : Nat) : EnsembleTurn F Unit :=
  match listener with
  | .recorder => do
    match ← HostTurn.inspect ticket with
    | none => pure ()
    | some e => write (.notice e.data)
  | .script _ number =>
    match scripts[number]? with
    | none => pure ()
    | some s => do
      let e ← Turn.get
      let calls := e.calls.getD listener 0
      if calls < s.times then do
        Turn.modify fun e => { e with calls := e.calls.put listener (calls + 1) }
        actAll number s.who ticket s.acts
      else pure ()

/-- The listeners of a rehearsal. -/
def listeners (scripts : List (Script F)) :
    Listeners (Ensemble F) Wire NoticeKind Notice Listener Fault :=
  ⟨react scripts, NoticeKind.label⟩

/-- How many events can wait at most. A step announces fewer than eight notices, and a listener is
called on at most two wires. -/
def supply (scripts : List (Script F)) : Nat :=
  16 * scripts.foldr (fun s n => s.times * s.acts.length + n) 2

/-- The recorder comes before the listeners, unless they have a very high priority. -/
def recorderPriority : Int := 1000

/-- The subscriptions on a wire, in the order in which they are made. -/
def subscriptionsOn (scripts : List (Script F)) (w : Wire) :
    List (List NoticeKind × Subscription Listener) :=
  (NoticeKind.all, ⟨recorderPriority, .recorder⟩) ::
    scripts.mapIdx fun i s => (s.kinds, ⟨s.priority, .script w i⟩)

/-- Subscribe on a wire. -/
def attach (scripts : List (Script F)) (h : EnsembleHost F) (w : Wire) : EnsembleHost F :=
  (subscriptionsOn scripts w).foldl
    (fun h s => h.changeRegistry w fun r => r.subscribeAll s.1 s.2) h

/-- The host of a rehearsal, with everybody listening on the wires there are. -/
def host (scripts : List (Script F)) (e : Ensemble F) : EnsembleHost F :=
  (e.playerWire.toList ++ e.stageWire.toList).eraseDups.foldl (attach scripts) (.quiet e)

/-- Carry out a step of the host, writing down anew. -/
def perform (scripts : List (Script F)) (who : Nat) (s : Step F) (h : EnsembleHost F) :
    Outcome Fault Answer × EnsembleHost F :=
  Host.run (listeners scripts) (supply scripts) (turnOf who s)
    { h with world := { h.world with written := #[] } }

end Ensemble

end Parley
