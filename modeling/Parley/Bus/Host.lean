import Parley.Bus.Registry
import Parley.Remark
import Parley.Turn

/-!
# Delivering events

A host is a world with channels on which events are published to handlers. Handlers are called one
after the other and may do anything to the world, to the event, to the subscriptions, and may
publish in their turn. An event published on a channel that is busy waits in its queue until the
event in delivery, and all before it, are done; so handlers see events in the order in which they
were published.

Consuming an event hides it from the handlers that have not been called yet. A handler that fails
does not hide it. Aborting is stronger than failing: it ends the delivery, and the channel forgets
what was waiting.

## Main definitions

* `Command` lists what a turn can ask of its host
* `Host` is the state of the world and of its channels
* `Play.perform` carries out what a turn asks for
* `Host.publish` delivers an event, and then what its handlers published

## Implementation notes

Handlers that publish forever keep a delivery going forever. `publish` therefore takes a supply: the
number of waiting events it delivers at most, and how deep deliveries on different channels may
nest. With too small a supply the outcome is `exhausted`, which is no outcome of the program.

An event is known by its ticket, its place in the list of all events that were ever published. What
a delivery does is also entered in a journal, in order, between the remarks made on the way.
-/

namespace Parley

/-- What handlers are called for. -/
structure Event (κ δ : Type) where
  kind : κ
  data : δ
  consumed : Bool
  deriving DecidableEq, Repr

/-- What a turn can ask of its host. -/
inductive Command (χ κ δ η : Type) where
  | publish (channel : χ) (kind : κ) (data : δ)
  | subscribe (channel : χ) (kinds : List κ) (s : Subscription η)
  | unsubscribe (channel : χ) (kind : κ) (handler : η)
  | clear (channel : χ) (kind : Option κ)
  | count (channel : χ) (kind : κ)
  | inspect (ticket : Nat)
  | consume (ticket : Nat)
  | amend (ticket : Nat) (f : δ → δ)
  | remark (r : Remark)

/-- What a command is answered with: a publication with the ticket of its event. -/
def Command.Reply {χ κ δ η : Type} : Command χ κ δ η → Type
  | publish .. => Nat
  | count .. => Nat
  | inspect _ => Option (Event κ δ)
  | _ => Unit

/-- How a turn can go wrong: by an error, which a delivery survives, or by an abort, which it does
not. -/
inductive Upset (ε : Type) where
  | error (e : ε)
  | abort (message : Text)
  deriving DecidableEq, Repr

/-- A turn on a world with channels. -/
abbrev HostTurn (W χ κ δ η ε α : Type) : Type :=
  Turn W (Command χ κ δ η) Command.Reply (Upset ε) α

namespace HostTurn

variable {W χ κ δ η ε : Type}

/-- Ask the host for something. -/
def ask (command : Command χ κ δ η) : HostTurn W χ κ δ η ε command.Reply := Turn.say command

/-- Publish an event; the answer is its ticket. -/
def publish (channel : χ) (kind : κ) (data : δ) : HostTurn W χ κ δ η ε Nat :=
  ask (.publish channel kind data)

/-- Subscribe a handler to several kinds of events. -/
def subscribe (channel : χ) (kinds : List κ) (s : Subscription η) : HostTurn W χ κ δ η ε Unit :=
  ask (.subscribe channel kinds s)

/-- Remove the subscriptions of a handler to a kind of event. -/
def unsubscribe (channel : χ) (kind : κ) (handler : η) : HostTurn W χ κ δ η ε Unit :=
  ask (.unsubscribe channel kind handler)

/-- Remove all subscriptions to a kind of event, or all there are. -/
def clear (channel : χ) (kind : Option κ) : HostTurn W χ κ δ η ε Unit := ask (.clear channel kind)

/-- How many subscriptions there are to a kind of event. -/
def count (channel : χ) (kind : κ) : HostTurn W χ κ δ η ε Nat := ask (.count channel kind)

/-- An event as it is now. -/
def inspect (ticket : Nat) : HostTurn W χ κ δ η ε (Option (Event κ δ)) := ask (.inspect ticket)

/-- Hide an event from the handlers that have not been called yet. -/
def consume (ticket : Nat) : HostTurn W χ κ δ η ε Unit := ask (.consume ticket)

/-- Change the data of an event. -/
def amend (ticket : Nat) (f : δ → δ) : HostTurn W χ κ δ η ε Unit := ask (.amend ticket f)

/-- Make a remark for the record. -/
def remark (r : Remark) : HostTurn W χ κ δ η ε Unit := ask (.remark r)

end HostTurn

/-- How carrying out a turn ended. -/
inductive Outcome (ε α : Type) where
  | returned (a : α)
  | failed (u : Upset ε)
  | exhausted

/-- What a delivery puts on record. -/
inductive Entry (χ η : Type) where
  | dispatched (channel : χ) (ticket : Nat)
  | called (channel : χ) (ticket : Nat) (handler : η)
  | remark (r : Remark)
  deriving DecidableEq, Repr

variable {W χ κ δ η ε α : Type}

/-- One channel: who listens, what waits, and whether a delivery is going on. -/
structure Channel (κ η : Type) where
  registry : Registry κ η
  queue : List Nat
  busy : Bool

/-- A channel on which nobody listens and nothing goes on. -/
def Channel.idle [DecidableEq κ] : Channel κ η := ⟨.empty, [], false⟩

/-- A world with its channels, the events published so far, and the journal. -/
structure Host (W χ κ δ η : Type) where
  world : W
  channels : Table χ (Channel κ η)
  events : Array (Event κ δ)
  journal : Array (Entry χ η)

/-- What handlers do, and how kinds of events are called in remarks. -/
structure Listeners (W χ κ δ η ε : Type) where
  react : η → Nat → HostTurn W χ κ δ η ε Unit
  label : κ → Text

namespace Host

/-- Enter something in the journal. -/
def record (h : Host W χ κ δ η) (e : Entry χ η) : Host W χ κ δ η :=
  { h with journal := h.journal.push e }

/-- The remarks on record. -/
def remarks (h : Host W χ κ δ η) : List Remark :=
  h.journal.toList.filterMap fun
    | .remark r => some r
    | _ => none

/-- The ticket of the next event. -/
def nextTicket (h : Host W χ κ δ η) : Nat := h.events.size

/-- Enter a new event. -/
def post (h : Host W χ κ δ η) (kind : κ) (data : δ) : Host W χ κ δ η :=
  { h with events := h.events.push ⟨kind, data, false⟩ }

/-- Change an event. -/
def changeEvent (h : Host W χ κ δ η) (ticket : Nat) (f : Event κ δ → Event κ δ) :
    Host W χ κ δ η :=
  { h with events := h.events.modify ticket f }

/-- Whether an event is consumed. -/
def isConsumed (h : Host W χ κ δ η) (ticket : Nat) : Bool :=
  match h.events[ticket]? with
  | some e => e.consumed
  | none => false

variable [DecidableEq χ] [DecidableEq κ]

/-- The host of a world in which nobody listens. -/
def quiet (w : W) : Host W χ κ δ η := ⟨w, .empty, #[], #[]⟩

/-- A channel; one that was never used is idle. -/
def channel (h : Host W χ κ δ η) (c : χ) : Channel κ η := h.channels.getD c .idle

/-- Change a channel. -/
def changeChannel (h : Host W χ κ δ η) (c : χ) (f : Channel κ η → Channel κ η) :
    Host W χ κ δ η :=
  { h with channels := h.channels.put c (f (h.channel c)) }

/-- Change the subscriptions of a channel. -/
def changeRegistry (h : Host W χ κ δ η) (c : χ) (f : Registry κ η → Registry κ η) :
    Host W χ κ δ η :=
  h.changeChannel c fun ch => { ch with registry := f ch.registry }

/-- Let an event wait. -/
def enqueue (h : Host W χ κ δ η) (c : χ) (ticket : Nat) : Host W χ κ δ η :=
  h.changeChannel c fun ch => { ch with queue := ch.queue ++ [ticket] }

/-- A delivery begins. -/
def occupy (h : Host W χ κ δ η) (c : χ) : Host W χ κ δ η :=
  h.changeChannel c fun ch => { ch with busy := true }

/-- A delivery is over, and nothing waits any more. -/
def release (h : Host W χ κ δ η) (c : χ) : Host W χ κ δ η :=
  h.changeChannel c fun ch => { ch with queue := [], busy := false }

end Host

/-- How an event is delivered on a channel that is not busy. -/
abbrev Publisher (W χ κ δ η ε : Type) : Type :=
  χ → Nat → Host W χ κ δ η → Outcome ε Unit × Host W χ κ δ η

variable [DecidableEq χ] [DecidableEq κ] [DecidableEq η]

/-- Carry out what a turn asks for. -/
def Play.perform (publisher : Publisher W χ κ δ η ε) :
    Play W (Command χ κ δ η) Command.Reply (Upset ε) α → Host W χ κ δ η →
      Outcome ε α × Host W χ κ δ η
  | .done w a, h => (.returned a, { h with world := w })
  | .fail w u, h => (.failed u, { h with world := w })
  | .pause w (.publish c kind data) next, h =>
    let ticket := h.nextTicket
    let h := { h with world := w }.post kind data
    if (h.channel c).busy then (next ticket w).perform publisher (h.enqueue c ticket)
    else
      match publisher c ticket h with
      | (.returned _, h) => (next ticket h.world).perform publisher h
      | (.failed u, h) => (.failed u, h)
      | (.exhausted, h) => (.exhausted, h)
  | .pause w (.subscribe c kinds s) next, h =>
    (next () w).perform publisher
      ({ h with world := w }.changeRegistry c fun r => r.subscribeAll kinds s)
  | .pause w (.unsubscribe c kind handler) next, h =>
    (next () w).perform publisher
      ({ h with world := w }.changeRegistry c fun r => r.unsubscribe kind handler)
  | .pause w (.clear c kind) next, h =>
    (next () w).perform publisher ({ h with world := w }.changeRegistry c fun r => r.clear kind)
  | .pause w (.count c kind) next, h =>
    (next ((h.channel c).registry.count kind) w).perform publisher { h with world := w }
  | .pause w (.inspect ticket) next, h =>
    (next (h.events[ticket]?) w).perform publisher { h with world := w }
  | .pause w (.consume ticket) next, h =>
    (next () w).perform publisher
      ({ h with world := w }.changeEvent ticket fun e => { e with consumed := true })
  | .pause w (.amend ticket f) next, h =>
    (next () w).perform publisher
      ({ h with world := w }.changeEvent ticket fun e => { e with data := f e.data })
  | .pause w (.remark r) next, h =>
    (next () w).perform publisher ({ h with world := w }.record (.remark r))

namespace Host

variable (listeners : Listeners W χ κ δ η ε)

/-- Call handlers for an event, until one leaves it consumed. -/
def callAll (publisher : Publisher W χ κ δ η ε) (c : χ) (ticket : Nat) (kind : κ) :
    List (Subscription η) → Host W χ κ δ η → Outcome ε Unit × Host W χ κ δ η
  | [], h => (.returned (), h)
  | s :: ss, h =>
    match (listeners.react s.handler ticket h.world).perform publisher
      (h.record (.called c ticket s.handler)) with
    | (.returned _, h) =>
      if h.isConsumed ticket then (.returned (), h) else callAll publisher c ticket kind ss h
    | (.failed (.error _), h) =>
      let h := h.record (.remark (.handlerFailed (listeners.label kind)))
      if h.isConsumed ticket then (.returned (), h) else callAll publisher c ticket kind ss h
    | (.failed (.abort message), h) => (.failed (.abort message), h)
    | (.exhausted, h) => (.exhausted, h)

/-- Call the handlers that listen when an event's turn comes. -/
def dispatch (publisher : Publisher W χ κ δ η ε) : Publisher W χ κ δ η ε := fun c ticket h =>
  match h.events[ticket]? with
  | none => (.returned (), h)
  | some e =>
    callAll listeners publisher c ticket e.kind ((h.channel c).registry.handlers e.kind)
      (h.record (.dispatched c ticket))

/-- Dispatch what waits on a channel, at most `n` events. -/
def drain (publisher : Publisher W χ κ δ η ε) (c : χ) :
    Nat → Host W χ κ δ η → Outcome ε Unit × Host W χ κ δ η
  | n, h =>
    match (h.channel c).queue, n with
    | [], _ => (.returned (), h)
    | _ :: _, 0 => (.exhausted, h)
    | ticket :: rest, n + 1 =>
      match dispatch listeners publisher c ticket
        (h.changeChannel c fun ch => { ch with queue := rest }) with
      | (.returned _, h) => drain publisher c n h
      | r => r

/-- Deliver an event, and then everything that was published meanwhile. However this ends, the
channel is free afterwards and nothing waits. -/
def publish : Nat → Publisher W χ κ δ η ε
  | 0 => fun _ _ h => (.exhausted, h)
  | supply + 1 => fun c ticket h =>
    let r :=
      match dispatch listeners (publish supply) c ticket (h.occupy c) with
      | (.returned _, h) => drain listeners (publish supply) c (supply + 1) h
      | r => r
    (r.1, r.2.release c)

/-- Carry out a turn. -/
def run (supply : Nat) (m : HostTurn W χ κ δ η ε α) (h : Host W χ κ δ η) :
    Outcome ε α × Host W χ κ δ η :=
  (m h.world).perform (publish listeners supply) h

end Host

end Parley
