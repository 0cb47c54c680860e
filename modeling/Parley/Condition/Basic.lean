import Parley.Literal
import Parley.Store

/-!
# Conditions

A condition is a flat disjunction of conjunctions, written `a && b || c`. Each atom is exactly
three words, `name relation value`. The kind of the value decides which namespace of the store the
name is looked up in; an unset name counts as `0` or `false`.

A condition that is absent or blank holds. An atom that is not well formed never holds, so a
mistyped condition locks what it guards.

## Main definitions

* `Condition.groups` reads the text of a condition as alternatives of atoms
* `Condition.holds` evaluates a condition, stopping as soon as the answer is known
* `Condition.met` lists the atoms that this evaluation looks at
* `Condition.isValid` checks the syntax without a store

## Implementation notes

Evaluation fails only at an atom that is otherwise well formed and compares with an overlong number,
and only when it gets there.
-/

namespace Parley

/-- How two numbers are compared. -/
inductive Relation where
  | eq | ne | gt | lt | ge | le
  deriving DecidableEq, Repr

namespace Relation

/-- The relation a word spells. -/
def read? (w : Text) : Option Relation :=
  if w = "==".toList then some .eq
  else if w = "!=".toList then some .ne
  else if w = ">".toList then some .gt
  else if w = "<".toList then some .lt
  else if w = ">=".toList then some .ge
  else if w = "<=".toList then some .le
  else none

/-- Whether `m` stands in the relation to `n`. -/
def test (m n : Int) : Relation → Bool
  | eq => m == n
  | ne => m != n
  | gt => decide (n < m)
  | lt => decide (m < n)
  | ge => decide (n ≤ m)
  | le => decide (m ≤ n)

end Relation

/-- One well-formed atom of a condition. A flag is compared for being the same as a truth value, or
for being different. -/
inductive Comparison where
  | number (name : Text) (relation : Relation) (n : Int)
  | flag (name : Text) (same : Bool) (b : Bool)
  deriving DecidableEq, Repr

namespace Comparison

/-- The comparison of a name with a literal, unless the relation does not apply to its kind. -/
def ofLiteral? (name relation : Text) : Literal → Option Comparison
  | .number n => (Relation.read? relation).map (.number name · n)
  | .truth b =>
    match Relation.read? relation with
    | some .eq => some (.flag name true b)
    | some .ne => some (.flag name false b)
    | _ => none

/-- The comparison an atom spells, `none` when the atom is malformed. -/
def read (atom : Text) : Except Overlong (Option Comparison) :=
  match atom.words with
  | [name, relation, value] =>
    match Literal.read value with
    | .error e => .error e
    | .ok none => .ok none
    | .ok (some l) => .ok (ofLiteral? name relation l)
  | _ => .ok none

/-- Whether a comparison holds in a store. -/
def holds (s : Store) : Comparison → Bool
  | number name relation n => relation.test (s.number name 0) n
  | flag name same b => (s.flag name false == b) == same

end Comparison

namespace Condition

/-- The alternatives of a condition, each a list of stripped atoms. -/
def groups (c : Text) : List (List Text) :=
  (c.splitPair '|' '|').map fun g => (g.splitPair '&' '&').map Text.strip

/-- Whether there is nothing to check. -/
def isBlank : Option Text → Bool
  | none => true
  | some c => c.isAllBlank

/-- Whether an atom holds. A malformed one does not. -/
def atomHolds (s : Store) (atom : Text) : Except Overlong Bool :=
  match Comparison.read atom with
  | .error e => .error e
  | .ok none => .ok false
  | .ok (some c) => .ok (c.holds s)

/-- Whether all atoms hold, asked from the left until one does not. -/
def allHold (s : Store) : List Text → Except Overlong Bool
  | [] => .ok true
  | a :: as =>
    match atomHolds s a with
    | .error e => .error e
    | .ok false => .ok false
    | .ok true => allHold s as

/-- Whether some alternative holds, asked from the left until one does. -/
def anyHold (s : Store) : List (List Text) → Except Overlong Bool
  | [] => .ok false
  | g :: gs =>
    match allHold s g with
    | .error e => .error e
    | .ok true => .ok true
    | .ok false => anyHold s gs

/-- Whether a condition holds in a store. -/
def holds (s : Store) (c : Option Text) : Except Overlong Bool :=
  match c with
  | none => .ok true
  | some t => if t.isAllBlank then .ok true else anyHold s (groups t)

/-- The atoms of one alternative that evaluation looks at. -/
def metIn (s : Store) : List Text → List Text
  | [] => []
  | a :: as =>
    match atomHolds s a with
    | .ok true => a :: metIn s as
    | _ => [a]

/-- The atoms of all alternatives that evaluation looks at. -/
def metAmong (s : Store) : List (List Text) → List Text
  | [] => []
  | g :: gs =>
    match allHold s g with
    | .ok false => metIn s g ++ metAmong s gs
    | _ => metIn s g

/-- The atoms that evaluating a condition looks at, in order. -/
def met (s : Store) (c : Option Text) : List Text :=
  match c with
  | none => []
  | some t => if t.isAllBlank then [] else metAmong s (groups t)

/-- Whether an atom can be read, but not as a comparison. -/
def isMalformed (atom : Text) : Bool :=
  match Comparison.read atom with
  | .ok none => true
  | _ => false

/-- Whether all atoms are comparisons, asked from the left until one is not. -/
def allValid : List Text → Except Overlong Bool
  | [] => .ok true
  | a :: as =>
    match Comparison.read a with
    | .error e => .error e
    | .ok none => .ok false
    | .ok (some _) => allValid as

/-- Whether the syntax of a condition is right. -/
def isValid (c : Option Text) : Except Overlong Bool :=
  match c with
  | none => .ok true
  | some t => if t.isAllBlank then .ok true else allValid (groups t).flatten

end Condition

end Parley
