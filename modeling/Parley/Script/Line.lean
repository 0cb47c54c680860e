import Parley.Story
import Parley.Text.Blank
import Parley.Text.Quoted

/-!
# The lines of a script

Scripts are read line by line, and what a line means depends on its stripped text alone. This
module decides it; what a line does to the story under construction is said in
`Parley.Script.Reading`.

The forms overlap, so their order matters: a header or a speaker wins over a quotation, a quotation
over an option, and an option (any line with an arrow) over the other directives.

## Main definitions

* `Line` lists what a line can mean
* `Line.read` decides it
* `Complaint` lists what can be wrong with a line, worded by `Complaint.message`
-/

namespace Parley

/-- Why a line of a script was skipped or only partly understood. -/
inductive Complaint where
  | outside
  | headerWithoutId
  | redefined (id : Text)
  | optionWithoutChoice
  | nothingToAttachTo
  | setWithoutExpressions
  | setFlagWithoutName
  | ifWithoutCondition
  | requiresWithoutName
  | requiresNotWithoutName
  | unknownDirective (keyword : Text)
  | unrecognized
  deriving DecidableEq, Repr

/-- The wording of a complaint. -/
def Complaint.message : Complaint → Text
  | outside => "outside of any conversation".toList
  | headerWithoutId => "#Conversation without an id".toList
  | redefined id => "conversation ".toList ++ id.quoted ++ " redefined".toList
  | optionWithoutChoice => "choice without a preceding #Choice".toList
  | nothingToAttachTo => "no node to attach to".toList
  | setWithoutExpressions => "#Set without expressions".toList
  | setFlagWithoutName => "#SetFlag without a flag name".toList
  | ifWithoutCondition => "#If without a condition".toList
  | requiresWithoutName => "#Requires without a flag name".toList
  | requiresNotWithoutName => "#RequiresNot without a flag name".toList
  | unknownDirective keyword => "unknown directive ".toList ++ keyword
  | unrecognized => "unrecognized line".toList

/-- What a line of a script means. A faulty line is one that would belong to a conversation. -/
inductive Line where
  | skipped
  | header (id : Text)
  | speaker (name : Text)
  | spoken (text : Text)
  | choice
  | option (choice : Choice)
  | changes (expressions : List Text)
  | condition (condition : Text)
  | faulty (complaint : Complaint)
  deriving DecidableEq, Repr

namespace Line

/-- The changes in a list separated by semicolons. -/
def readChanges (t : Text) : List Text :=
  ((t.splitOn ';').map Text.strip).filter fun e => !e.isEmpty

/-- `none` for the empty text. -/
def nonempty? (t : Text) : Option Text := if t.isEmpty then none else some t

/-- The choice written `text -> target|changes|condition`. Only the first two bars separate. -/
def readOption (left right : Text) : Choice :=
  let afterTarget := right.cut '|'
  let afterChanges := (afterTarget.2.getD []).cut '|'
  { text := Text.trim (· == '"') left.strip
    target := nonempty? afterTarget.1.strip
    changes := readChanges afterChanges.1
    condition := nonempty? (afterChanges.2.getD []).strip }

/-- Whether a line is a text between double quotes. -/
def isQuotation (t : Text) : Bool :=
  decide (2 ≤ t.length) && t.head? == some '"' && t.getLast? == some '"'

/-- The meaning of a directive that adds to a node, or what is wrong with it. -/
def readDirective (keyword argument : Text) : Line :=
  if keyword = "#Set".toList then
    match readChanges argument with
    | [] => .faulty .setWithoutExpressions
    | es => .changes es
  else if keyword = "#SetFlag".toList then
    if argument.isEmpty then .faulty .setFlagWithoutName
    else .changes [argument ++ " = true".toList]
  else if keyword = "#If".toList then
    if argument.isEmpty then .faulty .ifWithoutCondition else .condition argument
  else if keyword = "#Requires".toList then
    if argument.isEmpty then .faulty .requiresWithoutName
    else .condition (argument ++ " == true".toList)
  else if keyword = "#RequiresNot".toList then
    if argument.isEmpty then .faulty .requiresNotWithoutName
    else .condition (argument ++ " == false".toList)
  else if keyword.head? = some '#' then .faulty (.unknownDirective keyword)
  else .faulty .unrecognized

/-- The meaning of a line that starts neither a conversation nor a speech. -/
def readContent (t : Text) : Line :=
  if isQuotation t then .spoken t.tail.dropLast
  else if t.keyword = "#Choice".toList then .choice
  else
    match t.cutPair '-' '>' with
    | (left, some right) => .option (readOption left right)
    | (_, none) => readDirective t.keyword t.argument

/-- The meaning of a stripped line. -/
def read (t : Text) : Line :=
  if t.isEmpty then .skipped
  else if "--".toList.isPrefixOf t then .skipped
  else if t.keyword = "#Conversation".toList then .header t.argument
  else if "Character_".toList.isPrefixOf t then
    .speaker (Text.strip (t.drop "Character_".length))
  else readContent t

end Line

end Parley
