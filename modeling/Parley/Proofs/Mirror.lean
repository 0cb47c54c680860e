import Parley.Turn

/-!
# Turns in step with each other

Two turns taken from different states may look the same from outside: at every point they say the
same, and they end in the same way. What may differ is what their states do not show. `Mirrors`
says this for a relation between the states, which has to hold at every pause and again at the end,
and which whoever acts during a pause leaves intact.

Unlike what a single turn ensures, this compares two runs, and so it is how to show that some part
of a state does not matter.

## Main definitions

* `Play.Mirrors`, `Turn.Mirrors`

## Main results

* `Play.Mirrors.bind` — plays in step, followed by turns in step
* `Turn.Mirrors.alone` — what is seen of two turns in step that nobody listens to
-/

namespace Parley

variable {σ ω : Type} {ρ : ω → Type} {ε α β : Type} {rel : σ → σ → Prop}

/-- Two plays say the same and end in the same way, while their states stay related. -/
inductive Play.Mirrors (rel : σ → σ → Prop) : Play σ ω ρ ε α → Play σ ω ρ ε α → Prop where
  | done {s t : σ} {a : α} (h : rel s t) : Mirrors rel (.done s a) (.done t a)
  | fail {s t : σ} {e : ε} (h : rel s t) : Mirrors rel (.fail s e) (.fail t e)
  | pause {s t : σ} {o : ω} {next next' : ρ o → σ → Play σ ω ρ ε α} (h : rel s t)
      (hnext : ∀ r s' t', rel s' t' → Mirrors rel (next r s') (next' r t')) :
      Mirrors rel (.pause s o next) (.pause t o next')

/-- Plays in step, followed by turns that are in step from any related states. -/
theorem Play.Mirrors.bind {p p' : Play σ ω ρ ε α} {f f' : α → Turn σ ω ρ ε β}
    (hp : p.Mirrors rel p') (hf : ∀ a s t, rel s t → (f a s).Mirrors rel (f' a t)) :
    (p.bind f).Mirrors rel (p'.bind f') := by
  induction hp with
  | done h => exact hf _ _ _ h
  | fail h => exact .fail h
  | pause h hnext ih => exact .pause h fun r s' t' hrel => ih r s' t' hrel

theorem Play.Mirrors.alone {ω : Type} {p p' : Play σ ω (fun _ => Unit) ε α}
    (h : p.Mirrors rel p') :
    p.alone.1 = p'.alone.1 ∧ rel p.alone.2.1 p'.alone.2.1 ∧ p.alone.2.2 = p'.alone.2.2 := by
  induction h with
  | done h => exact ⟨rfl, h, rfl⟩
  | fail h => exact ⟨rfl, h, rfl⟩
  | pause h hnext ih =>
    obtain ⟨hsaid, hleft, hresult⟩ := ih () _ _ h
    exact ⟨congrArg (_ :: ·) hsaid, hleft, hresult⟩

namespace Turn

variable {s t : σ}

/-- One turn taken in one state looks like another turn taken in another state. -/
def Mirrors (rel : σ → σ → Prop) (m : Turn σ ω ρ ε α) (s : σ) (m' : Turn σ ω ρ ε α) (t : σ) :
    Prop :=
  (m s).Mirrors rel (m' t)

theorem mirrors_pure (a : α) (h : rel s t) :
    Mirrors rel (pure a : Turn σ ω ρ ε α) s (pure a) t := .done h

theorem mirrors_fail (e : ε) (h : rel s t) :
    Mirrors rel (fail e : Turn σ ω ρ ε α) s (fail e) t := .fail h

theorem mirrors_say (o : ω) (h : rel s t) :
    Mirrors rel (say o : Turn σ ω ρ ε (ρ o)) s (say o) t :=
  .pause h fun _ _ _ hrel => .done hrel

theorem Mirrors.get_bind {f f' : σ → Turn σ ω ρ ε β} (h : Mirrors rel (f s) s (f' t) t) :
    Mirrors rel (get >>= f) s (get >>= f') t := h

theorem Mirrors.modify_bind {g g' : σ → σ} {f f' : Unit → Turn σ ω ρ ε β}
    (h : Mirrors rel (f ()) (g s) (f' ()) (g' t)) :
    Mirrors rel (modify g >>= f) s (modify g' >>= f') t := h

/-- Turns in step, followed by turns that are in step from any related states. -/
theorem Mirrors.bind {m m' : Turn σ ω ρ ε α} {f f' : α → Turn σ ω ρ ε β}
    (hm : Mirrors rel m s m' t) (hf : ∀ a s' t', rel s' t' → Mirrors rel (f a) s' (f' a) t') :
    Mirrors rel (m >>= f) s (m' >>= f') t :=
  Play.Mirrors.bind hm hf

theorem Mirrors.map {m m' : Turn σ ω ρ ε α} (f : α → β) (hm : Mirrors rel m s m' t) :
    Mirrors rel (f <$> m) s (f <$> m') t :=
  Play.Mirrors.bind hm fun _ _ _ hrel => .done hrel

/-- **What is seen of turns in step** when nobody listens: they say the same, have the same result,
and leave related states. -/
theorem Mirrors.alone {ω : Type} {m m' : Turn σ ω (fun _ => Unit) ε α}
    (h : Mirrors rel m s m' t) :
    (m.alone s).1 = (m'.alone t).1 ∧ rel (m.alone s).2.1 (m'.alone t).2.1 ∧
      (m.alone s).2.2 = (m'.alone t).2.2 :=
  Play.Mirrors.alone h

end Turn

end Parley
