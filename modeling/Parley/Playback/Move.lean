import Parley.Playback.Player

/-!
# Moves of a player

What a host does with a player, as data: it moves the story on, lets the text appear, and writes the
variables. A move that fails leaves the player where it failed, and the host may go on from there.

## Main definitions

* `Player.Move` lists what a host can do
* `Player.Move.turn` is what a move does, with its answer
-/

namespace Parley

/-- What a move is answered with. -/
inductive Answer where
  | nothing
  | display (d : Option Display)
  | text (t : Text)
  | flag (b : Bool)
  deriving DecidableEq, Repr

namespace Player

/-- What a host can do with a player. -/
inductive Move (F : Type) where
  | advance
  | select (index : Int)
  | skip
  | tick (dt : F)
  | setNumber (name : Text) (n : Int)
  | setFlag (name : Text) (b : Bool)
  | clearStore

variable {F : Type}

/-- Change the store. -/
def changeStore (f : Store → Store) : PlayerTurn F Answer := do
  Turn.modify fun p => { p with store := f p.store }
  return .nothing

variable [Tempo F]

/-- What a move does. -/
def Move.turn : Move F → PlayerTurn F Answer
  | advance => Answer.display <$> Player.advance
  | select index => Answer.display <$> Player.select index
  | skip => do
    Turn.modify Player.skipReveal
    let p ← Turn.get
    return .text p.reveal.text
  | tick dt => do
    let p ← Turn.get
    match p.reveal.tick? dt with
    | none => Turn.fail .tooLarge
    | some reveal => do
      Turn.modify fun p => { p with reveal }
      return .text reveal.shown
  | setNumber name n => changeStore fun s => s.setNumber name n
  | setFlag name b => changeStore fun s => s.setFlag name b
  | clearStore => changeStore fun _ => .empty

end Player

end Parley
