import Parley.Literal
import Parley.Store

/-!
# Changes of variables

A change is exactly three words, `name operation value`. A number may be assigned, added or
subtracted, a truth value only assigned; an unset number counts as `0`. A change that is not well
formed does nothing.

## Main definitions

* `Change.read` reads one change
* `Change.applyAll` applies a list of changes in order and counts those that were well formed
* `Change.ignored` lists the malformed changes that this meets
-/

namespace Parley

/-- A well-formed change of a variable. -/
inductive Change where
  | assign (name : Text) (n : Int)
  | add (name : Text) (n : Int)
  | subtract (name : Text) (n : Int)
  | flag (name : Text) (b : Bool)
  deriving DecidableEq, Repr

namespace Change

/-- The change of a name by a literal, unless the operation does not apply to its kind. -/
def ofLiteral? (name operation : Text) : Literal → Option Change
  | .number n =>
    if operation = "=".toList then some (.assign name n)
    else if operation = "+=".toList then some (.add name n)
    else if operation = "-=".toList then some (.subtract name n)
    else none
  | .truth b => if operation = "=".toList then some (.flag name b) else none

/-- The change a text spells, `none` when it is malformed. -/
def read (t : Text) : Except Overlong (Option Change) :=
  match t.words with
  | [name, operation, value] =>
    match Literal.read value with
    | .error e => .error e
    | .ok none => .ok none
    | .ok (some l) => .ok (ofLiteral? name operation l)
  | _ => .ok none

/-- The store after a change. -/
def apply (s : Store) : Change → Store
  | assign name n => s.setNumber name n
  | add name n => s.setNumber name (s.number name 0 + n)
  | subtract name n => s.setNumber name (s.number name 0 - n)
  | flag name b => s.setFlag name b

/-- Apply changes in order. The answer is the store reached and how many changes were well formed;
a change that cannot be read ends the list, and what came before it stays done. -/
def applyAll : List Text → Store → Store × Except Overlong Nat
  | [], s => (s, .ok 0)
  | t :: ts, s =>
    match read t with
    | .error e => (s, .error e)
    | .ok none => applyAll ts s
    | .ok (some c) =>
      let rest := applyAll ts (c.apply s)
      (rest.1, rest.2.map (· + 1))

/-- The malformed changes that applying a list meets, in order. -/
def ignored : List Text → List Text
  | [] => []
  | t :: ts =>
    match read t with
    | .error _ => []
    | .ok none => t :: ignored ts
    | .ok (some _) => ignored ts

/-- Whether the syntax of a change is right. -/
def isValid (t : Text) : Except Overlong Bool :=
  match read t with
  | .error e => .error e
  | .ok c => .ok c.isSome

end Change

end Parley
