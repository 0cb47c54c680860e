import Parley.Bus.Host
import Parley.Place
import Parley.Playback.Notice
import Parley.Table

/-!
# Rehearsing a bus

A bus on which nothing but scripted handlers listen. Each handler keeps a row of every call, and the
first few times it is called it also acts: it publishes, subscribes, changes the event, fails or
aborts. Publications are numbered in the order in which they return.

## Main definitions

* `Act` is what a handler can be told to do, `Step` what the host can
* `Rehearsal.perform` carries out one step
-/

namespace Parley.Rehearsal

/-- The kinds of events on a rehearsed bus: those of notices, and two of another origin. -/
inductive Topic where
  | notice (k : NoticeKind)
  | customA
  | customB
  deriving DecidableEq, Repr

namespace Topic

/-- The topics of notices. -/
def notices : List Topic := NoticeKind.all.map notice

/-- The name of a topic. -/
def name : Topic → Text
  | notice k => k.name
  | customA => "Custom.A".toList
  | customB => "Custom.B".toList

/-- The topic with a name. -/
def ofName? (t : Text) : Option Topic := (notices ++ [customA, customB]).find? fun k => k.name == t

/-- The name of a topic in a remark. -/
def label : Topic → Text
  | notice k => k.label
  | t => t.name

end Topic

variable {V : Type}

/-- What the host of a rehearsal can do. Handlers are numbered, and a negative number counts back
from the last. -/
inductive Step (V : Type) where
  | publish (topic : Topic) (data : List (Text × V))
  | subscribe (topics : List Topic) (handler : Int) (priority : Int)
  | unsubscribe (topic : Topic) (handler : Int)
  | clear (topic : Option Topic)
  | count (topic : Topic)

/-- What a handler can do. -/
inductive Act (V : Type) where
  | step (s : Step V)
  | consume
  | put (key : Text) (value : V)
  | get (key : Text) (default : V)
  | item (key : Text)
  | fail (message : Text)
  | abort (message : Text)

/-- What a step or an act results in. -/
inductive Result (V : Type) where
  | nothing
  | published (number : Nat) (consumed : Bool)
  | count (n : Nat)
  | value (v : V)

/-- How a step or an act can fail. -/
inductive Fault where
  | told (message : Text)
  | missingKey (key : Text)
  | reservedKey (key : Text)
  | noSuchHandler
  deriving DecidableEq, Repr

/-- A call of a handler: the event as it found it, and what came of its acts. -/
structure Row (V : Type) where
  handler : Nat
  topic : Topic
  data : Table Text V
  consumed : Bool
  did : List (Result V)

/-- A scripted handler: what it does in one call, and how often. -/
structure Script (V : Type) where
  acts : List (Act V)
  times : Nat

/-- The world of a rehearsal: the rows of the current step, how often each handler has acted, and
the tickets of the publications that have returned. -/
structure World (V : Type) where
  rows : Array (Row V)
  calls : Table Nat Nat
  returned : Array Nat

/-- A turn in a rehearsal. -/
abbrev BusTurn (V α : Type) : Type :=
  HostTurn (World V) Unit Topic (Table Text V) Nat Fault α

/-- The host of a rehearsal. -/
abbrev BusHost (V : Type) : Type := Host (World V) Unit Topic (Table Text V) Nat

/-- Nothing has happened. -/
def opening : BusHost V := .quiet ⟨#[], .empty, #[]⟩

/-- The value under a key of an event. -/
def itemOf (data : Table Text V) (key : Text) : Except Fault V :=
  match data.get? key with
  | some v => .ok v
  | none => .error (.missingKey key)

/-- The names a publication needs for itself. No key of its data can be called so. -/
def reservedKeys : List Text := ["self".toList, "event_type".toList]

/-- The wording of the refusal of a key. -/
def reservedKeyMessage (key : Text) : Text :=
  "EventBus.publish() got multiple values for argument ".toList ++ key.quoted

/-- Publish, and number the publication when it returns. -/
def publish (topic : Topic) (data : List (Text × V)) : BusTurn V (Result V) :=
  match (data.map Prod.fst).find? reservedKeys.contains with
  | some key => Turn.fail (.error (.reservedKey key))
  | none => do
    let ticket ← HostTurn.publish () topic (Table.ofList data)
    let event ← HostTurn.inspect ticket
    let w ← Turn.get
    Turn.modify fun w => { w with returned := w.returned.push ticket }
    return .published w.returned.size ((event.map Event.consumed).getD false)

/-- The place of a numbered one among some handlers. -/
def handlerAt (handlers : Nat) (number : Int) : BusTurn V Nat :=
  match place? handlers number with
  | some place => pure place
  | none => Turn.fail (.error .noSuchHandler)

/-- Carry out a step where there are some handlers. -/
def Step.turn (handlers : Nat) : Step V → BusTurn V (Result V)
  | publish topic data => Rehearsal.publish topic data
  | subscribe topics handler priority => do
    let handler ← handlerAt handlers handler
    HostTurn.subscribe () topics ⟨priority, handler⟩
    return .nothing
  | unsubscribe topic handler => do
    let handler ← handlerAt handlers handler
    HostTurn.unsubscribe () topic handler
    return .nothing
  | clear topic => do
    HostTurn.clear () topic
    return .nothing
  | count topic => Result.count <$> HostTurn.count () topic

/-- The data of an event. -/
def dataOf (ticket : Nat) : BusTurn V (Table Text V) := do
  let event ← HostTurn.inspect ticket
  return (event.map Event.data).getD .empty

/-- Carry out an act on the event in delivery. -/
def Act.turn (handlers ticket : Nat) : Act V → BusTurn V (Result V)
  | step s => s.turn handlers
  | consume => do
    HostTurn.consume ticket
    return .nothing
  | put key value => do
    HostTurn.amend ticket fun data => data.put key value
    return .nothing
  | get key default => do
    return .value ((← dataOf ticket).getD key default)
  | item key => do
    match itemOf (← dataOf ticket) key with
    | .ok v => return .value v
    | .error e => Turn.fail (.error e)
  | fail message => Turn.fail (.error (.told message))
  | abort message => Turn.fail (.abort message)

/-- Note a result in the row of the current call. -/
def note (r : Result V) (w : World V) : World V :=
  { w with rows := w.rows.modify (w.rows.size - 1) fun row => { row with did := row.did ++ [r] } }

/-- Carry out acts in order, noting their results. -/
def actAll (handlers ticket : Nat) : List (Act V) → BusTurn V Unit
  | [] => pure ()
  | a :: as => do
    let r ← a.turn handlers ticket
    Turn.modify (note r)
    actAll handlers ticket as

/-- One call of a handler. -/
def react (scripts : List (Script V)) (handler ticket : Nat) : BusTurn V Unit := do
  match ← HostTurn.inspect ticket, scripts[handler]? with
  | none, _ | _, none => pure ()
  | some e, some script => do
    let w ← Turn.get
    Turn.modify fun w => { w with rows := w.rows.push ⟨handler, e.kind, e.data, e.consumed, []⟩ }
    let calls := w.calls.getD handler 0
    if calls < script.times then do
      Turn.modify fun w => { w with calls := w.calls.put handler (calls + 1) }
      actAll scripts.length ticket script.acts
    else pure ()

/-- Scripted handlers as listeners. -/
def listeners (scripts : List (Script V)) :
    Listeners (World V) Unit Topic (Table Text V) Nat Fault :=
  ⟨react scripts, Topic.label⟩

/-- How many events can wait at most: as many as the handlers are told to publish. -/
def supply (scripts : List (Script V)) : Nat :=
  scripts.foldr (fun s n => s.times * s.acts.length + n) 2

/-- Carry out a step of the host, with its rows alone in the world. -/
def perform (scripts : List (Script V)) (s : Step V) (h : BusHost V) :
    Outcome Fault (Result V) × BusHost V :=
  Host.run (listeners scripts) (supply scripts) (s.turn scripts.length)
    { h with world := { h.world with rows := #[] } }

end Parley.Rehearsal
