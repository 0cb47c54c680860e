import Parley.Playback.Notice
import Parley.Reveal.Basic
import Parley.Turn

/-!
# Playing a story

A player steps through the conversations of a story with a store of variables. It moves only when
its host advances it or takes a choice, and everything it does it announces, step by step, while it
does it.

Settling on a node looks for the first node from the current index on whose condition holds. The
changes of a node are applied the first time it is settled on, those of a choice every time it is
taken. Which choices are unlocked is decided when they are shown.

## Main definitions

* `Player.advance` goes to the next node whose condition holds
* `Player.select` takes a choice
* `Player.currentNode?` is the node the player has settled on

## Implementation notes

The story itself never changes. The nodes that were settled on are recorded beside it, in `played`.

Listeners may take turns on the same player while a notice is announced. The node being settled on
is fixed before the first of its notices; the conversation and index that later notices carry are
those the player has by then.
-/

namespace Parley

/-- Why a turn of a player failed. Apart from numbers that are too long or too large this takes a
listener that moved the player between a choice being offered and being taken. -/
inductive PlayFault where
  | overlong (e : Overlong)
  | tooLarge
  | noCurrentNode
  | noChoiceList
  | noSuchChoice
  deriving DecidableEq, Repr

/-- A story being played. -/
structure Player (F : Type) where
  story : Story
  store : Store
  reveal : Reveal F
  conversation : Text
  index : Nat
  phase : Phase
  /-- Whether a node has been settled on. -/
  positioned : Bool
  choices : List ChoiceView
  display : Option Display
  /-- The positions settled on so far. They stand for their nodes, since no two positions of a story
  share one node, even where the nodes are equal. -/
  played : List (Text × Nat)

/-- A turn of a player. -/
abbrev PlayerTurn (F α : Type) : Type := Turn (Player F) Signal (fun _ => Unit) PlayFault α

namespace Player

variable {F : Type}

/-- Whether the conversation is over. -/
def isEnded (p : Player F) : Bool := p.phase == .ended

/-- Whether the changes of a node have been applied already. -/
def hasExecuted (p : Player F) (conversation : Text) (index : Nat) (n : Node) : Bool :=
  n.executed || p.played.contains (conversation, index)

/-- The node the player has settled on. -/
def currentNode? (p : Player F) : Option Node :=
  if p.isEnded || !p.positioned then none
  else
    (p.story.node? p.conversation p.index).map fun n =>
      { n with executed := p.hasExecuted p.conversation p.index n }

/-- Announce a notice. -/
def announce (n : Notice) : PlayerTurn F Unit := Turn.say (.notice n)

/-- Make remarks for the record. -/
def remark (rs : List Remark) : PlayerTurn F Unit := Turn.each (fun r => Turn.say (.remark r)) rs

/-- Go on with a value that may be an overlong number. -/
def lift {α : Type} : Except Overlong α → PlayerTurn F α
  | .ok a => pure a
  | .error e => Turn.fail (.overlong e)

/-- Apply changes, and announce them when at least one was well formed. -/
def applyChanges (es : List Text) : PlayerTurn F Unit :=
  if es.isEmpty then pure ()
  else do
    let p ← Turn.get
    let result := Change.applyAll es p.store
    Turn.modify fun p => { p with store := result.1 }
    remark (Change.remarks es)
    let applied ← lift result.2
    if applied = 0 then pure () else announce (.variablesChanged es applied)

/-- The index of the first node whose condition holds, counted from `index`, and the node. The index
stops at a condition that cannot be read. -/
def scan (s : Store) (index : Nat) : List Node → Nat × Except Overlong (Option Node)
  | [] => (index, .ok none)
  | n :: ns =>
    match Condition.holds s n.condition with
    | .error e => (index, .error e)
    | .ok true => (index, .ok (some n))
    | .ok false => scan s (index + 1) ns

/-- What a scan gives cause to remark. -/
def scanRemarks (s : Store) : List Node → List Remark
  | [] => []
  | n :: ns =>
    match Condition.holds s n.condition with
    | .ok false => Condition.remarks s n.condition ++ scanRemarks s ns
    | _ => Condition.remarks s n.condition

/-- The choices as they appear in a store. -/
def viewsOf (s : Store) : List Choice → Except Overlong (List ChoiceView)
  | [] => .ok []
  | c :: cs =>
    match Condition.holds s c.condition with
    | .error e => .error e
    | .ok unlocked => (viewsOf s cs).map (⟨c.text, unlocked⟩ :: ·)

/-- What deciding about choices gives cause to remark. -/
def viewsRemarks (s : Store) : List Choice → List Remark
  | [] => []
  | c :: cs =>
    match Condition.holds s c.condition with
    | .error _ => Condition.remarks s c.condition
    | .ok _ => Condition.remarks s c.condition ++ viewsRemarks s cs

variable [Tempo F]

/-- The player at the start of a story, before anything is shown. -/
def start (story : Story) (conversation : Text) (store : Store) (speed : F) : Player F :=
  { story, store, reveal := .idle speed, conversation, index := 0, phase := .atLine,
    positioned := false, choices := [], display := none, played := [] }

/-- Put a display on screen and begin to reveal it. -/
def present (d : Display) : PlayerTurn F Display := do
  Turn.modify fun p => { p with display := some d, reveal := p.reveal.start d.text }
  return d

/-- End the conversation. -/
def finish (why : EndReason) : PlayerTurn F Display := do
  Turn.modify fun p => { p with phase := .ended, choices := [] }
  let p ← Turn.get
  announce (.conversationEnded p.conversation why)
  present (.ended p.conversation)

/-- Show a line. -/
def presentLine (n : Node) : PlayerTurn F Display := do
  Turn.modify fun p => { p with phase := .atLine, choices := [] }
  let p ← Turn.get
  announce (.lineShown n.speaker n.text p.conversation p.index)
  present (.line n.speaker n.text)

/-- Show choices. -/
def presentChoices (cs : List Choice) : PlayerTurn F Display := do
  Turn.modify fun p => { p with phase := .atChoice }
  let p ← Turn.get
  remark (viewsRemarks p.store cs)
  let views ← lift (viewsOf p.store cs)
  Turn.modify fun p => { p with choices := views }
  let p ← Turn.get
  announce (.choicesShown views p.conversation p.index)
  present (.choices views)

/-- Settle on a node of a conversation. -/
def settleOn (conversation : Text) (index : Nat) (n : Node) : PlayerTurn F Display := do
  Turn.modify fun p => { p with positioned := true }
  let p ← Turn.get
  if p.hasExecuted conversation index n then pure ()
  else do
    Turn.modify fun p => { p with played := p.played ++ [(conversation, index)] }
    applyChanges n.changes
  if n.offersChoices then presentChoices n.options else presentLine n

/-- Settle on the first of the nodes of a conversation, from the current index on, whose condition
holds, or end. -/
def settleAmong (conversation : Text) (nodes : List Node) : PlayerTurn F Display := do
  let p ← Turn.get
  let found := scan p.store p.index (nodes.drop p.index)
  Turn.modify fun p => { p with index := found.1 }
  remark (scanRemarks p.store (nodes.drop p.index))
  match ← lift found.2 with
  | none => finish .finished
  | some n => settleOn conversation found.1 n

/-- Settle in the current conversation, or end when it does not exist. -/
def settle (entering : Bool) : PlayerTurn F Display := do
  let p ← Turn.get
  let conversation := p.conversation
  match p.story.get? conversation with
  | none =>
    remark [.missingConversation conversation]
    finish .missing
  | some nodes =>
    if entering then announce (.conversationEntered conversation) else pure ()
    settleAmong conversation nodes

/-- Go to the next node whose condition holds. While choices are open, and after the end, nothing
moves and the answer is what is on screen. -/
def advance : PlayerTurn F (Option Display) := do
  let p ← Turn.get
  if p.phase = .atLine then
    if p.positioned then Turn.modify fun p => { p with index := p.index + 1 } else pure ()
    some <$> settle (!p.positioned)
  else return p.display

/-- Ignore a selection. -/
def reject (index : Int) (why : Refusal) : PlayerTurn F (Option Display) := do
  remark [.ignoredChoice index why]
  announce (.choiceRejected index why)
  return none

/-- The choice at an index of the current node. -/
def choiceAt (p : Player F) (index : Nat) : Except PlayFault Choice :=
  match p.currentNode? with
  | none => .error .noCurrentNode
  | some n =>
    match n.choices with
    | none => .error .noChoiceList
    | some cs =>
      match cs[index]? with
      | none => .error .noSuchChoice
      | some c => .ok c

/-- Take a choice: apply its changes and enter its target, or the same conversation anew. -/
def take (index : Nat) (c : Choice) : PlayerTurn F Display := do
  applyChanges c.changes
  announce (.choiceSelected index c.text c.target)
  Turn.modify fun p =>
    { p with
      conversation := c.target.getD p.conversation
      index := 0
      phase := .atLine
      choices := [] }
  settle true

/-- Why a selection is ignored, if it is. -/
def refusal? (p : Player F) (index : Int) : Option Refusal :=
  if p.phase ≠ .atChoice then some .noChoices
  else if index < 0 then some .outOfRange
  else
    match p.choices[index.toNat]? with
    | none => some .outOfRange
    | some v => if v.unlocked then none else some .locked

/-- Select a choice on screen by its place, counted from zero. The answer is `none` when the
selection is ignored. -/
def select (index : Int) : PlayerTurn F (Option Display) := do
  let p ← Turn.get
  match p.refusal? index with
  | some why => reject index why
  | none =>
    match p.choiceAt index.toNat with
    | .error e => Turn.fail e
    | .ok c => some <$> take index.toNat c

/-- Reveal the whole text on screen. -/
def skipReveal (p : Player F) : Player F := { p with reveal := p.reveal.skip }

end Player

end Parley
