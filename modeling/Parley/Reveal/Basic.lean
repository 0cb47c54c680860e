import Parley.Text.Basic

/-!
# Revealing a text

A text on screen appears character by character. A reveal has a fractional position in its text;
what is shown are the characters before the whole part of the position. It never moves by itself:
its host ticks it with elapsed time, pulls it one character at a time, or skips to the end.

A puller belongs to the text that is current when it is first pulled. It is over once the text is
complete or another text has begun, and stays over.

## Implementation notes

Positions, times and speeds are numbers of a type `F` with the few operations of `Tempo`. Nothing
else is known of them here, so what is proved about a reveal holds for the amounts of a host as far
as they keep the laws the proof asks for, and for any other arithmetic that does.
-/

namespace Parley

/-- The arithmetic of positions, times and speeds. There may be numbers too large to reckon with,
and a result that takes one is `none`. Comparisons are tests, and for a value that is no number each
of them may fail. -/
class Tempo (F : Type) where
  /-- A whole number. -/
  ofInt : Int → F
  /-- The whole part toward zero, which infinite numbers lack. -/
  whole? : F → Option Int
  add? : F → F → Option F
  mul? : F → F → Option F
  /-- One divided by a number. -/
  inv? : F → Option F
  lt : F → F → Bool
  le : F → F → Bool

variable {F : Type} [Tempo F]

/-- The number zero. -/
def Tempo.zero : F := Tempo.ofInt 0

/-- A text, how much of it has been shown, and how many texts came before it. -/
structure Reveal (F : Type) where
  speed : F
  text : Text
  position : F
  generation : Nat

namespace Reveal

/-- Whether a speed is refused. What is no number is not. -/
def refuses (speed : F) : Bool := Tempo.le speed Tempo.zero

/-- The wording of the refusal of a speed, as its host wrote it. -/
def refusal (speed : Text) : Text := "chars_per_second must be positive, got ".toList ++ speed

/-- The reveal of the empty text. -/
def idle (speed : F) : Reveal F := ⟨speed, [], Tempo.zero, 0⟩

/-- The length of the text, as a position. -/
def endPosition (r : Reveal F) : F := Tempo.ofInt r.text.length

/-- Whether the position has no whole part, so that nothing can be said of what is shown. Only a
negative speed, large enough to take the position infinitely far before the start, does that. -/
def isLost (r : Reveal F) : Bool := (Tempo.whole? r.position : Option Int).isNone

/-- How many characters are shown; a negative number counts back from the end of the text. -/
def count (r : Reveal F) : Int := (Tempo.whole? r.position).getD 0

/-- What is shown. -/
def shown (r : Reveal F) : Text := r.text.take r.count

/-- Whether the whole text is shown. -/
def isComplete (r : Reveal F) : Bool := decide ((r.text.length : Int) ≤ r.count)

/-- Begin with a text. -/
def start (r : Reveal F) (t : Text) : Reveal F :=
  { r with text := t, position := Tempo.zero, generation := r.generation + 1 }

/-- Go to a position. One that is not before the end is the end. -/
def moveTo (r : Reveal F) (position : F) : Reveal F :=
  { r with position := if Tempo.lt position r.endPosition then position else r.endPosition }

/-- Let time pass; `none` when that takes numbers too large. -/
def tick? (r : Reveal F) (dt : F) : Option (Reveal F) :=
  if !r.isComplete && Tempo.lt Tempo.zero dt then
    ((Tempo.mul? r.speed dt).bind (Tempo.add? r.position)).map r.moveTo
  else some r

/-- Show the whole text. -/
def skip (r : Reveal F) : Reveal F := { r with position := r.endPosition }

/-- Whether time moves nothing: the speed is zero. -/
def isStill (r : Reveal F) : Bool := Tempo.le r.speed Tempo.zero && Tempo.le Tempo.zero r.speed

/-- The seconds one character takes; a speed that is zero or too large has none. -/
def secondsPerChar? (r : Reveal F) : Option F := if r.isStill then none else Tempo.inv? r.speed

/-- Something that reveals one character at a time: not pulled yet, bound to a generation of the
reveal, or over. -/
inductive Puller where
  | fresh
  | bound (generation : Nat)
  | over
  deriving DecidableEq, Repr

/-- Pull one character for a generation: the text then shown, unless the generation is past or the
text is complete. -/
def pullFor (generation : Nat) (r : Reveal F) : Option Text × Puller × Reveal F :=
  if generation = r.generation ∧ r.isComplete = false then
    let r' := { r with position := Tempo.ofInt (r.count + 1) }
    (some r'.shown, .bound generation, r')
  else (none, .over, r)

/-- Pull one character. -/
def pull (p : Puller) (r : Reveal F) : Option Text × Puller × Reveal F :=
  match p with
  | .fresh => pullFor r.generation r
  | .bound generation => pullFor generation r
  | .over => (none, .over, r)

/-- Pull until it is over, at most `n` times. -/
def pullAtMost : Nat → Puller → Reveal F → List Text × Puller × Reveal F
  | 0, p, r => ([], p, r)
  | n + 1, p, r =>
    match pull p r with
    | (none, p', r') => ([], p', r')
    | (some t, p', r') =>
      let rest := pullAtMost n p' r'
      (t :: rest.1, rest.2)

/-- Pull until it is over. Every pull shows one character more, and the last one shows nothing. -/
def drain (p : Puller) (r : Reveal F) : List Text × Puller × Reveal F :=
  pullAtMost ((r.text.length - r.count).toNat + 1) p r

end Reveal

end Parley
