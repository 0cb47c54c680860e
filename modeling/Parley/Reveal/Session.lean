import Parley.Place
import Parley.Reveal.Basic

/-!
# Sessions of a reveal

What a host does with one reveal, as data: it begins texts, lets time pass, and makes pullers. All
pullers share the position of the reveal. They are numbered in the order in which they were made,
and a negative number counts back from the latest.

## Main definitions

* `Move` lists what a host can do
* `Session.perform` carries out one move
* `Session.performAll` carries out moves in order, as long as the reveal is not lost
-/

namespace Parley.Reveal

/-- What a host can do with a reveal. -/
inductive Move (F : Type) where
  | start (t : Text)
  | tick (dt : F)
  | skip
  /-- Change the speed, which is not checked again. -/
  | setSpeed (speed : F)
  | secondsPerChar
  | newPuller
  | pull (puller : Int)
  /-- Pull until it is over. Without a number a puller is made for it that nobody keeps. -/
  | drain (puller : Option Int)

/-- What a move is answered with. -/
inductive Answer (F : Type) where
  | nothing
  | text (t : Option Text)
  | texts (ts : List Text)
  | seconds (x : F)
  | puller (number : Nat)

/-- Why a move has no answer. -/
inductive Fault where
  | zeroSpeed
  /-- It takes numbers too large. -/
  | tooLarge
  | noSuchPuller
  /-- The reveal is lost. -/
  | lost
  deriving DecidableEq, Repr

/-- A reveal and the pullers made for it. -/
structure Session (F : Type) where
  reveal : Reveal F
  pullers : List Puller

namespace Session

variable {F : Type} [Tempo F]

/-- A puller by its number, and its place. -/
def puller? (s : Session F) (number : Int) : Option (Nat × Puller) := do
  let place ← place? s.pullers.length number
  return (place, ← s.pullers[place]?)

/-- The session before the first move. -/
def start (speed : F) : Session F := ⟨idle speed, []⟩

/-- Carry out a move. -/
def perform (s : Session F) : Move F → Except Fault (Answer F) × Session F
  | .start t => (.ok .nothing, { s with reveal := s.reveal.start t })
  | .tick dt =>
    match s.reveal.tick? dt with
    | none => (.error .tooLarge, s)
    | some r =>
      (if r.isLost then .error .lost else .ok (.text (some r.shown)), { s with reveal := r })
  | .skip => (.ok (.text (some s.reveal.text)), { s with reveal := s.reveal.skip })
  | .setSpeed speed => (.ok .nothing, { s with reveal := { s.reveal with speed } })
  | .secondsPerChar =>
    match s.reveal.secondsPerChar? with
    | some x => (.ok (.seconds x), s)
    | none => (.error (if s.reveal.isStill then .zeroSpeed else .tooLarge), s)
  | .newPuller => (.ok (.puller s.pullers.length), { s with pullers := s.pullers ++ [.fresh] })
  | .pull number =>
    match s.puller? number with
    | none => (.error .noSuchPuller, s)
    | some (place, p) =>
      let (t, p, r) := Reveal.pull p s.reveal
      (.ok (.text t), ⟨r, s.pullers.set place p⟩)
  | .drain none =>
    let (ts, _, r) := Reveal.drain .fresh s.reveal
    (.ok (.texts ts), { s with reveal := r })
  | .drain (some number) =>
    match s.puller? number with
    | none => (.error .noSuchPuller, s)
    | some (place, p) =>
      let (ts, p, r) := Reveal.drain p s.reveal
      (.ok (.texts ts), ⟨r, s.pullers.set place p⟩)

/-- Carry out moves in order: each answer with the reveal after it. There are no answers once the
reveal is lost. -/
def performAll (s : Session F) :
    List (Move F) → Except Fault (List (Except Fault (Answer F) × Reveal F))
  | [] => .ok []
  | m :: ms => do
    let (answer, s) := s.perform m
    if s.reveal.isLost then throw .lost
    return (answer, s.reveal) :: (← s.performAll ms)

end Session

end Parley.Reveal
