/-!
# Turns

A turn is a piece of work on a state that stops now and then to say something to the outside, and
goes on with the answer and with whatever state the outside has left behind. So a turn is not a
function of its state alone: whoever is listening may act in between, even by taking turns of its
own on the same state.

A turn that is running is a `Play`: it is over, or has failed, or has paused with something to say.

## Main definitions

* `Turn` with its monad operations, `Turn.get`, `Turn.modify`, `Turn.say` and `Turn.fail`
* `Play.alone` runs a turn with nobody listening
* `Play.embed` lets a turn on a part of a larger state be a turn on the whole

## Implementation notes

A play holds every possible continuation, so what a turn does for all listeners is proved by
induction on one tree, and running it against particular listeners is a fold over that tree.
-/

namespace Parley

/-- A turn that is running, on states `σ`, saying things of type `ω` that are answered by `ρ`. -/
inductive Play (σ ω : Type) (ρ : ω → Type) (ε α : Type) where
  /-- The turn is over and leaves a state and a result. -/
  | done (s : σ) (a : α)
  /-- The turn has failed and leaves the state it failed in. -/
  | fail (s : σ) (e : ε)
  /-- The turn pauses in a state to say something, and goes on from the state it finds. -/
  | pause (s : σ) (o : ω) (next : ρ o → σ → Play σ ω ρ ε α)

/-- A piece of work on a state. -/
def Turn (σ ω : Type) (ρ : ω → Type) (ε α : Type) : Type := σ → Play σ ω ρ ε α

variable {σ τ ω ω' : Type} {ρ : ω → Type} {ρ' : ω' → Type} {ε ε' α β : Type}

namespace Play

/-- Go on with another turn once a play is over. -/
def bind : Play σ ω ρ ε α → (α → Turn σ ω ρ ε β) → Play σ ω ρ ε β
  | done s a, f => f a s
  | fail s e, _ => fail s e
  | pause s o next, f => pause s o fun r s' => (next r s').bind f

/-- Run a play that nobody listens to: what it says, the state it leaves, and its result. -/
def alone {ω : Type} : Play σ ω (fun _ => Unit) ε α → List ω × σ × Except ε α
  | done s a => ([], s, .ok a)
  | fail s e => ([], s, .error e)
  | pause s o next =>
    let rest := (next () s).alone
    (o :: rest.1, rest.2)

/-- Play on a part of a larger state. What the part says is said by a turn on the whole. -/
def embed (part : τ → σ) (update : σ → τ → τ) (say : (o : ω) → Turn τ ω' ρ' ε' (ρ o))
    (raise : ε → ε') : Play σ ω ρ ε α → Turn τ ω' ρ' ε' α
  | done s a => fun t => done (update s t) a
  | fail s e => fun t => fail (update s t) (raise e)
  | pause s o next => fun t =>
    (say o (update s t)).bind fun r t' => embed part update say raise (next r (part t')) t'

end Play

namespace Turn

/-- Do nothing. -/
protected def pure (a : α) : Turn σ ω ρ ε α := fun s => .done s a

/-- One turn after the other. -/
protected def bind (m : Turn σ ω ρ ε α) (f : α → Turn σ ω ρ ε β) : Turn σ ω ρ ε β :=
  fun s => (m s).bind f

instance : Monad (Turn σ ω ρ ε) where
  pure := Turn.pure
  bind := Turn.bind

/-- The current state. -/
def get : Turn σ ω ρ ε σ := fun s => .done s s

/-- Change the state. -/
def modify (f : σ → σ) : Turn σ ω ρ ε Unit := fun s => .done (f s) ()

/-- Say something and wait for the answer. -/
def say (o : ω) : Turn σ ω ρ ε (ρ o) := fun s => .pause s o fun r s' => .done s' r

/-- Stop with a failure. -/
def fail (e : ε) : Turn σ ω ρ ε α := fun s => .fail s e

/-- One turn for each of several things, in order. -/
def each (f : β → Turn σ ω ρ ε Unit) : List β → Turn σ ω ρ ε Unit
  | [] => pure ()
  | x :: xs => do
    f x
    each f xs

/-- A turn on a part of a larger state. -/
def embed (part : τ → σ) (update : σ → τ → τ) (say : (o : ω) → Turn τ ω' ρ' ε' (ρ o))
    (raise : ε → ε') (m : Turn σ ω ρ ε α) : Turn τ ω' ρ' ε' α :=
  fun t => (m (part t)).embed part update say raise t

/-- Take a turn that nobody listens to: what it says, the state it leaves, and its result. -/
def alone {ω : Type} (m : Turn σ ω (fun _ => Unit) ε α) (s : σ) : List ω × σ × Except ε α :=
  (m s).alone

/-! ### Turns compose -/

theorem bind_pure (m : Turn σ ω ρ ε α) : Turn.bind m Turn.pure = m := by
  have h (p : Play σ ω ρ ε α) : p.bind Turn.pure = p := by
    induction p with
    | done s a => rfl
    | fail s e => rfl
    | pause s o next ih => simp only [Play.bind, ih]
  funext s
  exact h (m s)

theorem bind_assoc {γ : Type} (m : Turn σ ω ρ ε α) (f : α → Turn σ ω ρ ε β)
    (g : β → Turn σ ω ρ ε γ) :
    (m.bind f).bind g = m.bind fun a => (f a).bind g := by
  have h (p : Play σ ω ρ ε α) : (p.bind f).bind g = p.bind fun a => (f a).bind g := by
    induction p with
    | done s a => rfl
    | fail s e => rfl
    | pause s o next ih => simp only [Play.bind, ih]
  funext s
  exact h (m s)

instance : LawfulMonad (Turn σ ω ρ ε) :=
  LawfulMonad.mk' _ (fun m => bind_pure m) (fun _ _ => rfl) bind_assoc

/-! ### Turns that nobody listens to -/

section Alone

variable {ω ω' : Type}

@[simp] theorem alone_pure (a : α) (s : σ) :
    (pure a : Turn σ ω (fun _ => Unit) ε α).alone s = ([], s, .ok a) := rfl

@[simp] theorem alone_get (s : σ) :
    (get : Turn σ ω (fun _ => Unit) ε σ).alone s = ([], s, .ok s) := rfl

@[simp] theorem alone_modify (f : σ → σ) (s : σ) :
    (modify f : Turn σ ω (fun _ => Unit) ε Unit).alone s = ([], f s, .ok ()) := rfl

@[simp] theorem alone_say (o : ω) (s : σ) :
    (say o : Turn σ ω (fun _ => Unit) ε Unit).alone s = ([o], s, .ok ()) := rfl

@[simp] theorem alone_fail (e : ε) (s : σ) :
    (fail e : Turn σ ω (fun _ => Unit) ε α).alone s = ([], s, .error e) := rfl

/-- A turn after another says its things after those of the other, and is not taken when the other
fails. -/
theorem alone_bind (m : Turn σ ω (fun _ => Unit) ε α) (f : α → Turn σ ω (fun _ => Unit) ε β)
    (s : σ) :
    (m >>= f).alone s =
      match m.alone s with
      | (os, s', .ok a) => (os ++ ((f a).alone s').1, ((f a).alone s').2)
      | (os, s', .error e) => (os, s', .error e) := by
  have h (p : Play σ ω (fun _ => Unit) ε α) :
      (p.bind f).alone =
        match p.alone with
        | (os, s', .ok a) => (os ++ ((f a).alone s').1, ((f a).alone s').2)
        | (os, s', .error e) => (os, s', .error e) := by
    induction p with
    | done s a => rfl
    | fail s e => rfl
    | pause s o next ih =>
      rw [Play.bind, Play.alone, ih, Play.alone]
      obtain ⟨os, s', r⟩ := (next () s).alone
      cases r <;> rfl
  exact h (m s)

theorem alone_get_bind (f : σ → Turn σ ω (fun _ => Unit) ε α) (s : σ) :
    (get >>= f).alone s = (f s).alone s := rfl

theorem alone_modify_bind (g : σ → σ) (f : Unit → Turn σ ω (fun _ => Unit) ε α) (s : σ) :
    (modify g >>= f).alone s = (f ()).alone (g s) := rfl

/-- Changing the result of a turn changes nothing else. -/
@[simp] theorem alone_map (f : α → β) (m : Turn σ ω (fun _ => Unit) ε α) (s : σ) :
    (f <$> m).alone s = ((m.alone s).1, (m.alone s).2.1, (m.alone s).2.2.map f) := by
  rw [map_eq_pure_bind, alone_bind]
  obtain ⟨os, s', r⟩ := m.alone s
  cases r <;> simp [Except.map]

/-- On its own, a turn on a part of a larger state does to the part what it does anyway. -/
theorem alone_embed {part : τ → σ} {update : σ → τ → τ} (part_update : ∀ s t, part (update s t) = s)
    (update_update : ∀ s s' t, update s' (update s t) = update s' t) (tag : ω → ω') (raise : ε → ε')
    (m : Turn σ ω (fun _ => Unit) ε α) (t : τ) :
    (m.embed part update (fun o => say (tag o)) raise).alone t =
      ((m.alone (part t)).1.map tag, update (m.alone (part t)).2.1 t,
        (m.alone (part t)).2.2.mapError raise) := by
  have h (p : Play σ ω (fun _ => Unit) ε α) (t : τ) :
      (p.embed part update (fun o => (say (tag o) : Turn τ ω' (fun _ => Unit) ε' Unit)) raise
        t).alone =
        (p.alone.1.map tag, update p.alone.2.1 t, p.alone.2.2.mapError raise) := by
    induction p generalizing t with
    | done s a => rfl
    | fail s e => rfl
    | pause s o next ih =>
      simp only [Play.embed, say, Play.bind, Play.alone, ih, part_update, update_update,
        List.map_cons]
  exact h (m (part t)) t

end Alone

end Turn

end Parley
