import Parley.Change
import Parley.Condition.Basic
import Parley.Story

/-!
# Checking a story

Problems an author can be told about before anyone plays the story: targets that do not exist,
conditions and changes that are not well formed, and conversations without use. Playing tolerates
all of them.

## Main definitions

* `Issue` lists what can be wrong, with where it was found
* `Story.check` lists the issues of a story in a fixed order
* `Story.reachable` lists the conversations that choices lead to from a start

## Implementation notes

`reachable` explores breadth first. A conversation is entered into the queue at most once, so as
many rounds as there are conversations are enough.
-/

namespace Parley

/-- How bad an issue is. -/
inductive Severity where
  | error | warning
  deriving DecidableEq, Repr

/-- The name of a severity. -/
def Severity.name : Severity → Text
  | error => "ERROR".toList
  | warning => "WARNING".toList

/-- The position of a choice: its conversation, node and place in the node. -/
structure ChoicePlace where
  conversation : Text
  node : Nat
  choice : Nat
  deriving DecidableEq, Repr

/-- A problem found in a story. -/
inductive Issue where
  | missingStart (id : Text)
  | emptyConversation (id : Text)
  | nodeCondition (conversation : Text) (node : Nat) (condition : Text)
  | nodeChange (conversation : Text) (node : Nat) (expression : Text)
  | emptyChoice (conversation : Text) (node : Nat)
  | missingTarget (place : ChoicePlace) (target : Text)
  | choiceCondition (place : ChoicePlace) (condition : Text)
  | choiceChange (place : ChoicePlace) (expression : Text)
  | unreachable (id : Text)
  deriving DecidableEq, Repr

namespace Issue

/-- How bad an issue is. -/
def severity : Issue → Severity
  | emptyConversation _ | emptyChoice .. | unreachable _ => .warning
  | _ => .error

/-- The short name of an issue. -/
def code : Issue → Text
  | missingStart _ => "MISSING_START".toList
  | emptyConversation _ => "EMPTY_CONVERSATION".toList
  | nodeCondition .. | choiceCondition .. => "BAD_CONDITION".toList
  | nodeChange .. | choiceChange .. => "BAD_MUTATION".toList
  | emptyChoice .. => "EMPTY_CHOICE".toList
  | missingTarget .. => "MISSING_TARGET".toList
  | unreachable _ => "UNREACHABLE_CONVERSATION".toList

/-- The wording of an issue. -/
def message : Issue → Text
  | missingStart _ => "Starting conversation does not exist.".toList
  | emptyConversation _ => "Conversation has no nodes.".toList
  | nodeCondition .. => "Node condition is malformed and will always fail.".toList
  | nodeChange .. => "Node mutation is malformed and will be ignored.".toList
  | emptyChoice .. => "#Choice has no options and will show as an empty line.".toList
  | missingTarget .. => "Choice targets a conversation that does not exist.".toList
  | choiceCondition .. => "Choice condition is malformed; the choice will stay locked.".toList
  | choiceChange .. => "Choice mutation is malformed and will be ignored.".toList
  | unreachable _ => "No choice leads to this conversation.".toList

/-- A number as it stands in a report. -/
private def numeral (n : Nat) : Text := (toString n).toList

/-- Where a node is. -/
private def nodePlace (conversation : Text) (node : Nat) : List (Text × Text) :=
  [("conversation".toList, conversation), ("node".toList, numeral node)]

/-- Where a choice is. -/
private def choicePlace (p : ChoicePlace) : List (Text × Text) :=
  nodePlace p.conversation p.node ++ [("choice".toList, numeral p.choice)]

/-- Where an issue was found and what is concerned. -/
def context : Issue → List (Text × Text)
  | missingStart id | emptyConversation id | unreachable id => [("conversation".toList, id)]
  | nodeCondition c n t => nodePlace c n ++ [("condition".toList, t)]
  | nodeChange c n t => nodePlace c n ++ [("expression".toList, t)]
  | emptyChoice c n => nodePlace c n
  | missingTarget p t => choicePlace p ++ [("target".toList, t)]
  | choiceCondition p t => choicePlace p ++ [("condition".toList, t)]
  | choiceChange p t => choicePlace p ++ [("expression".toList, t)]

/-- A report with any severity, code, wording and context. -/
def render (severity code message : Text) (context : List (Text × Text)) : Text :=
  let suffix :=
    if context.isEmpty then []
    else " (".toList ++ Text.join " ".toList (context.map fun e => e.1 ++ '=' :: e.2) ++ [')']
  '[' :: severity ++ "] ".toList ++ code ++ ": ".toList ++ message ++ suffix

/-- The report of an issue. -/
def report (i : Issue) : Text := render i.severity.name i.code i.message i.context

end Issue

namespace Story

variable (s : Story)

/-- The existing conversations that the choices of a list of nodes lead to, in order. -/
def targetsOf (nodes : List Node) : List Text :=
  (nodes.flatMap Node.options).filterMap fun c => c.target.filter fun t => s.contains t

/-- The existing conversations that the choices of a conversation lead to, in order. -/
def successors (id : Text) : List Text := s.targetsOf (s.getD id [])

/-- The elements of a list that are not yet in `seen`, each once. -/
def unseen (seen : List Text) : List Text → List Text
  | [] => []
  | t :: ts => if t ∈ seen then unseen seen ts else t :: unseen (t :: seen) ts

/-- Explore from the conversations in `queue`, at most `rounds` of them. -/
def explore : Nat → List Text → List Text → List Text
  | 0, seen, _ => seen
  | _ + 1, seen, [] => seen
  | rounds + 1, seen, id :: queue =>
    let new := unseen seen (s.successors id)
    explore rounds (seen ++ new) (queue ++ new)

/-- The conversations that choices lead to from `start`, itself included. -/
def reachable (start : Text) : List Text := s.explore s.size [start] [start]

/-- The issues of a list of changes. -/
def checkChanges (issue : Text → Issue) : List Text → Except Overlong (List Issue)
  | [] => .ok []
  | t :: ts => do
    let valid ← Change.isValid t
    let rest ← checkChanges issue ts
    return if valid then rest else issue t :: rest

/-- The issue of a condition, if it has one. -/
def checkCondition (issue : Text → Issue) (c : Option Text) : Except Overlong (List Issue) := do
  let valid ← Condition.isValid c
  return if valid then [] else [issue (c.getD [])]

/-- The issue of a target, if it has one. -/
def checkTarget (place : ChoicePlace) : Option Text → List Issue
  | none => []
  | some t => if s.contains t then [] else [.missingTarget place t]

/-- The issues of one choice. -/
def checkChoice (place : ChoicePlace) (c : Choice) : Except Overlong (List Issue) := do
  let condition ← checkCondition (.choiceCondition place) c.condition
  let changes ← checkChanges (.choiceChange place) c.changes
  return s.checkTarget place c.target ++ condition ++ changes

/-- The issues of choices, the first of which has the given place in its node. -/
def checkChoices (conversation : Text) (node : Nat) :
    Nat → List Choice → Except Overlong (List Issue)
  | _, [] => .ok []
  | i, c :: cs => do
    let first ← s.checkChoice ⟨conversation, node, i⟩ c
    let rest ← checkChoices conversation node (i + 1) cs
    return first ++ rest

/-- The issues of one node. -/
def checkNode (id : Text) (index : Nat) (n : Node) : Except Overlong (List Issue) := do
  let condition ← checkCondition (.nodeCondition id index) n.condition
  let changes ← checkChanges (.nodeChange id index) n.changes
  let choices ← s.checkChoices id index 0 n.options
  let empty := if n.takesChoices && !n.offersChoices then [Issue.emptyChoice id index] else []
  return condition ++ changes ++ empty ++ choices

/-- The issues of nodes, the first of which has the given index. -/
def checkNodes (id : Text) : Nat → List Node → Except Overlong (List Issue)
  | _, [] => .ok []
  | i, n :: ns => do
    let first ← s.checkNode id i n
    let rest ← checkNodes id (i + 1) ns
    return first ++ rest

/-- The issues of conversations. -/
def checkConversations : List (Text × List Node) → Except Overlong (List Issue)
  | [] => .ok []
  | (id, nodes) :: es => do
    let first ← s.checkNodes id 0 nodes
    let rest ← checkConversations es
    return (if nodes.isEmpty then [.emptyConversation id] else []) ++ first ++ rest

/-- The conversations no choice leads to from an existing start, as issues. -/
def checkReach (start : Text) : List Issue :=
  let reached := s.reachable start
  (s.keys.filter fun id => !reached.contains id).map .unreachable

/-- All issues of a story. With a start, also whether it exists and what it does not lead to. -/
def check (start : Option Text) : Except Overlong (List Issue) := do
  let inside ← s.checkConversations s.entries
  match start with
  | none => return inside
  | some id =>
    if s.contains id then return inside ++ s.checkReach id
    else return .missingStart id :: inside

end Story

end Parley
