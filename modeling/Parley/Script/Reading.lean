import Parley.Condition.Conjoin
import Parley.Script.Line

/-!
# Reading a script

A script is read in one pass from the first line to the last. A header opens a conversation and
replaces the nodes an earlier one with the same id had; a header without an id closes the
conversation that was open. The speaker outlives conversations.

Quotations and `#Choice` lines add nodes. Options go to the last node that takes choices, changes
and conditions to the last node. Nothing that is wrong with a script stops the reading: a line that
cannot be used is skipped and reported.

## Main definitions

* `Reading` is what has been read so far
* `Reading.step` reads one line
* `Reading.ofText` reads a whole script
-/

namespace Parley

/-- A line that was skipped or only partly understood. -/
structure Diagnostic where
  lineNumber : Nat
  line : Text
  complaint : Complaint
  deriving DecidableEq, Repr

namespace Diagnostic

/-- A report about a line, with any number and wording, the line being quoted. -/
def render (lineNumber line message : Text) : Text :=
  "line ".toList ++ lineNumber ++ ": ".toList ++ message ++ ": ".toList ++ line

/-- The report of a diagnostic. -/
def report (d : Diagnostic) : Text :=
  render (toString d.lineNumber).toList d.line.quoted d.complaint.message

end Diagnostic

/-- Apply `f` to the last element that satisfies `p`; `none` when there is no such element. -/
def modifyLast? {α : Type} (p : α → Bool) (f : α → α) : List α → Option (List α)
  | [] => none
  | a :: as =>
    match modifyLast? p f as with
    | some as' => some (a :: as')
    | none => if p a then some (f a :: as) else none

/-- What has been read of a script: the story, the conversation that is open, the current speaker,
and the diagnostics in line order. -/
structure Reading where
  story : Story
  current : Option Text
  speaker : Text
  diagnostics : List Diagnostic

namespace Reading

/-- Nothing has been read. -/
def start : Reading := ⟨.empty, none, [], []⟩

/-- Report a line. -/
def complain (r : Reading) (lineNumber : Nat) (line : Text) (c : Complaint) : Reading :=
  { r with diagnostics := r.diagnostics ++ [⟨lineNumber, line, c⟩] }

/-- Open a conversation with no nodes, or close the open one when the header has no id. -/
def openConversation (r : Reading) (lineNumber : Nat) (line id : Text) : Reading :=
  if id.isEmpty then { r.complain lineNumber line .headerWithoutId with current := none }
  else
    let r' := if r.story.contains id then r.complain lineNumber line (.redefined id) else r
    { r' with story := r'.story.put id [], current := some id }

/-- Add a node to the open conversation. -/
def addNode (r : Reading) (id : Text) (n : Node) : Reading :=
  { r with story := r.story.put id (r.story.getD id [] ++ [n]) }

/-- Change the last node of the open conversation that satisfies `p`, or report that there is
none. -/
def changeLast (r : Reading) (lineNumber : Nat) (line id : Text) (p : Node → Bool)
    (f : Node → Node) (otherwise : Complaint) : Reading :=
  match modifyLast? p f (r.story.getD id []) with
  | some nodes => { r with story := r.story.put id nodes }
  | none => r.complain lineNumber line otherwise

/-- Read a line inside the conversation `id`. -/
def addContent (r : Reading) (lineNumber : Nat) (line id : Text) : Line → Reading
  | .spoken text => r.addNode id (.line r.speaker text)
  | .choice => r.addNode id .choice
  | .option c =>
    r.changeLast lineNumber line id Node.takesChoices
      (fun n => { n with choices := n.choices.map (· ++ [c]) }) .optionWithoutChoice
  | .changes es =>
    r.changeLast lineNumber line id (fun _ => true)
      (fun n => { n with changes := n.changes ++ es }) .nothingToAttachTo
  | .condition c =>
    r.changeLast lineNumber line id (fun _ => true)
      (fun n => { n with condition := Condition.conjoin n.condition (some c) }) .nothingToAttachTo
  | .faulty c => r.complain lineNumber line c
  | .skipped | .header _ | .speaker _ => r

/-- Read one stripped line. -/
def step (r : Reading) (lineNumber : Nat) (line : Text) : Reading :=
  match Line.read line with
  | .skipped => r
  | .header id => r.openConversation lineNumber line id
  | .speaker name => { r with speaker := name }
  | content =>
    match r.current with
    | none => r.complain lineNumber line .outside
    | some id => r.addContent lineNumber line id content

/-- Read stripped lines, the first of which has the given number. -/
def steps (r : Reading) (lineNumber : Nat) : List Text → Reading
  | [] => r
  | l :: ls => steps (r.step lineNumber l) (lineNumber + 1) ls

/-- The stripped lines of a script. Only a line feed ends a line. -/
def linesOf (t : Text) : List Text := (t.splitOn '\n').map Text.strip

/-- Read a script. -/
def ofText (t : Text) : Reading := start.steps 1 (linesOf t)

end Reading

end Parley
