import Parley.Store

/-!
# Stories

A story binds conversation ids to lists of nodes. A node shows a line, or offers choices when it
has at least one; it may be guarded by a condition and may change variables when it is first
reached.

A node opened for choices has a list of them from the start, so a node without a list and a node
with an empty list differ: only the latter can still receive choices.
-/

namespace Parley

/-- One branch of a choice node. Without a target the conversation starts over. An unmet condition
locks the choice but keeps it listed. -/
structure Choice where
  text : Text
  target : Option Text
  changes : List Text
  condition : Option Text
  deriving DecidableEq, Repr

/-- One step of a conversation. -/
structure Node where
  speaker : Text
  text : Text
  choices : Option (List Choice)
  condition : Option Text
  changes : List Text
  executed : Bool
  deriving DecidableEq, Repr

namespace Node

/-- A spoken line. -/
def line (speaker text : Text) : Node := ⟨speaker, text, none, none, [], false⟩

/-- A node opened for choices. -/
def choice : Node := ⟨[], [], some [], none, [], false⟩

/-- The choices of a node, none when it has no list of them. -/
def options (n : Node) : List Choice := n.choices.getD []

/-- Whether a node offers choices. -/
def offersChoices (n : Node) : Bool := !n.options.isEmpty

/-- Whether a node can receive choices. -/
def takesChoices (n : Node) : Bool := n.choices.isSome

end Node

/-- Conversations by id, in the order in which the ids were first used. -/
abbrev Story := Table Text (List Node)

namespace Story

/-- How many nodes there are in all conversations. -/
def nodeCount (s : Story) : Nat := s.entries.foldr (fun e n => e.2.length + n) 0

/-- The node at a position. -/
def node? (s : Story) (id : Text) (index : Nat) : Option Node := do (← s.get? id)[index]?

/-- Mark one node as executed. -/
def mark (s : Story) (id : Text) (index : Nat) : Story :=
  match s.get? id with
  | none => s
  | some nodes => s.put id (nodes.modify index fun n => { n with executed := true })

end Story

end Parley
