import Parley.Remark

/-!
# What playing a story shows and announces

A display is what belongs on screen: a line, a list of choices, or the end. A notice is what is
announced to whoever listens, beside the display itself.
-/

namespace Parley

/-- Where a player is: a line is on screen, choices are, or the conversation is over. -/
inductive Phase where
  | atLine
  | atChoice
  | ended
  deriving DecidableEq, Repr

/-- A choice on screen. A locked one is listed but cannot be taken. -/
structure ChoiceView where
  text : Text
  unlocked : Bool
  deriving DecidableEq, Repr

/-- What belongs on screen. -/
inductive Display where
  | line (speaker text : Text)
  | choices (views : List ChoiceView)
  | ended (conversation : Text)
  deriving DecidableEq, Repr

namespace Display

/-- One line of a list of choices, numbered from `n`. -/
private def numbered (n : Nat) (v : ChoiceView) : Text :=
  s!"{n}. ".toList ++ v.text ++ (if v.unlocked then [] else " (locked)".toList)

/-- The lines of a list of choices, numbered from `n`. -/
private def numberedFrom : Nat → List ChoiceView → List Text
  | _, [] => []
  | n, v :: vs => numbered n v :: numberedFrom (n + 1) vs

/-- The text to reveal. -/
def text : Display → Text
  | line _ t => t
  | choices views => Text.join ['\n'] (numberedFrom 1 views)
  | ended _ => []

/-- The speaker of a line; nobody speaks otherwise. -/
def speaker : Display → Text
  | line s _ => s
  | _ => []

/-- A choice that is locked. -/
def locked (v : ChoiceView) : ChoiceView := { v with unlocked := false }

private theorem length_numbered_le (n : Nat) (v : ChoiceView) :
    (numbered n v).length ≤ (numbered n (locked v)).length := by
  rw [numbered, numbered, locked]
  cases v.unlocked <;> simp

/-- A list of choices is longest when all are locked. -/
theorem length_text_choices_le (views : List ChoiceView) :
    (choices views).text.length ≤ (choices (views.map locked)).text.length := by
  have hfrom (n : Nat) : (Text.join ['\n'] (numberedFrom n views)).length ≤
      (Text.join ['\n'] (numberedFrom n (views.map locked))).length := by
    induction views generalizing n with
    | nil => exact Nat.le_refl _
    | cons v vs ih =>
      cases vs with
      | nil => exact length_numbered_le n v
      | cons w ws =>
        have hfirst := length_numbered_le n v
        have hrest := ih (n + 1)
        simp only [List.map_cons, numberedFrom, Text.join, List.length_append] at hrest ⊢
        omega
  exact hfrom 1

end Display

/-- Why a conversation is over. -/
inductive EndReason where
  | finished
  | missing
  deriving DecidableEq, Repr

/-- The name of a reason. -/
def EndReason.name : EndReason → Text
  | finished => "finished".toList
  | missing => "missing".toList

/-- Something announced to listeners. The first seven come from playing, the last two from
revealing. -/
inductive Notice where
  | lineShown (speaker text conversation : Text) (index : Nat)
  | choicesShown (choices : List ChoiceView) (conversation : Text) (index : Nat)
  | choiceSelected (index : Int) (text : Text) (target : Option Text)
  | choiceRejected (index : Int) (why : Refusal)
  | conversationEntered (conversation : Text)
  | conversationEnded (conversation : Text) (why : EndReason)
  | variablesChanged (expressions : List Text) (applied : Nat)
  | textAdvanced (shown : Nat) (text : Text)
  | textCompleted (text : Text)
  deriving DecidableEq, Repr

/-- The kinds of notices. -/
inductive NoticeKind where
  | lineShown | choicesShown | choiceSelected | choiceRejected | conversationEntered
  | conversationEnded | variablesChanged | textAdvanced | textCompleted
  deriving DecidableEq, Repr

namespace NoticeKind

/-- All kinds, in their fixed order. -/
def all : List NoticeKind :=
  [lineShown, choicesShown, choiceSelected, choiceRejected, conversationEntered, conversationEnded,
    variablesChanged, textAdvanced, textCompleted]

/-- The name of a kind. -/
def name : NoticeKind → Text
  | lineShown => "LINE_SHOWN".toList
  | choicesShown => "CHOICES_SHOWN".toList
  | choiceSelected => "CHOICE_SELECTED".toList
  | choiceRejected => "CHOICE_REJECTED".toList
  | conversationEntered => "CONVERSATION_ENTERED".toList
  | conversationEnded => "CONVERSATION_ENDED".toList
  | variablesChanged => "VARIABLES_CHANGED".toList
  | textAdvanced => "TEXT_ADVANCED".toList
  | textCompleted => "TEXT_COMPLETED".toList

/-- The kind with a name. -/
def ofName? (t : Text) : Option NoticeKind := all.find? fun k => k.name == t

/-- The name of a kind in a remark, where kinds of other origins may occur too. -/
def label (k : NoticeKind) : Text := "DialogueEvent.".toList ++ k.name

end NoticeKind

/-- The kind of a notice. -/
def Notice.kind : Notice → NoticeKind
  | lineShown .. => .lineShown
  | choicesShown .. => .choicesShown
  | choiceSelected .. => .choiceSelected
  | choiceRejected .. => .choiceRejected
  | conversationEntered _ => .conversationEntered
  | conversationEnded .. => .conversationEnded
  | variablesChanged .. => .variablesChanged
  | textAdvanced .. => .textAdvanced
  | textCompleted _ => .textCompleted

/-- What a player says while it plays: a notice for its listeners, or a remark for the record. -/
inductive Signal where
  | notice (n : Notice)
  | remark (r : Remark)
  deriving DecidableEq, Repr

end Parley
