import Parley.Change
import Parley.Script.Reading

/-!
# Remarks

What the library has to say about its own work, for whoever keeps a record: every remark has a
level, the part of the library it comes from, and a wording.
-/

namespace Parley

/-- Why a selection was ignored. -/
inductive Refusal where
  | noChoices
  | outOfRange
  | locked
  deriving DecidableEq, Repr

/-- The wording of a refusal. -/
def Refusal.reason : Refusal → Text
  | noChoices => "no choices open".toList
  | outOfRange => "out of range".toList
  | locked => "locked".toList

/-- How much a remark matters. -/
inductive Level where
  | debug | info | warning | error
  deriving DecidableEq, Repr

/-- The part of the library a remark comes from. -/
inductive Source where
  | script | expressions | playback | bus
  deriving DecidableEq, Repr

/-- Something worth recording. -/
inductive Remark where
  | scriptProblem (d : Diagnostic)
  | scriptRead (conversations nodes diagnostics : Nat)
  | malformedAtom (atom : Text)
  | malformedChange (expression : Text)
  | missingConversation (id : Text)
  | ignoredChoice (index : Int) (why : Refusal)
  | handlerFailed (event : Text)
  deriving DecidableEq, Repr

namespace Remark

/-- The level of a remark. -/
def level : Remark → Level
  | scriptProblem _ => .warning
  | scriptRead .. => .info
  | malformedAtom _ => .debug
  | malformedChange _ => .debug
  | missingConversation _ => .warning
  | ignoredChoice .. => .debug
  | handlerFailed _ => .error

/-- Where a remark comes from. -/
def source : Remark → Source
  | scriptProblem _ | scriptRead .. => .script
  | malformedAtom _ | malformedChange _ => .expressions
  | missingConversation _ | ignoredChoice .. => .playback
  | handlerFailed _ => .bus

/-- The wording of a remark. -/
def message : Remark → Text
  | scriptProblem d => "Dialogue script ".toList ++ d.report
  | scriptRead c n d => s!"Parsed {c} conversations, {n} nodes, {d} diagnostics.".toList
  | malformedAtom a => "Malformed condition atom: ".toList ++ a.quoted
  | malformedChange e => "Ignoring malformed mutation: ".toList ++ e.quoted
  | missingConversation id => "Conversation not found: ".toList ++ id.quoted
  | ignoredChoice i why => s!"Ignoring choice {i}: ".toList ++ why.reason
  | handlerFailed event => "Error in event handler for ".toList ++ event

end Remark

/-- What reading a script gives cause to remark. -/
def Reading.remarks (r : Reading) : List Remark :=
  r.diagnostics.map .scriptProblem ++
    [.scriptRead r.story.size r.story.nodeCount r.diagnostics.length]

/-- What evaluating a condition gives cause to remark. -/
def Condition.remarks (s : Store) (c : Option Text) : List Remark :=
  ((met s c).filter isMalformed).map .malformedAtom

/-- What applying changes gives cause to remark. -/
def Change.remarks (es : List Text) : List Remark := (ignored es).map .malformedChange

end Parley
