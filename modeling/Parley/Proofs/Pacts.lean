import Parley.Turn

/-!
# Pacts

What a turn says depends on the state in which it says it, and what it does next on what others have
made of that state meanwhile. A pact settles both: what may be said in which state, and in which
states the play may then be resumed. It also settles in which states the play may fail.

A play that abides by a pact keeps to its side as long as the others keep to theirs. What they do
may be left open but for an invariant (`Pact.keeping`), they may be held to changing a part of the
state only, or to changing nothing.

`Play.Ends` is how a play comes to an end among others. Nobody listening is the case in which they
leave every state as it is.

## Main definitions

* `Pact`, `Play.Abides`, `Turn.Abides`
* `Pact.keeping` — the pact of an invariant
* `Play.Ends` — a play among others, to its end
* `Play.told` — what a play says, and in which states, with nobody listening

## Main results

* `Turn.Abides.bind`, `Turn.Abides.embed` — turns put together, and turns on a part of a state
* `Play.Abides.of_ends` — what a play that abides by a pact says, and how it ends
* `Play.ends_told` — a play with nobody listening
-/

namespace Parley

/-- What is agreed with others: what they may be told in which state, what they may have made of
that state when the play goes on, and in which states it may fail. -/
structure Pact (σ ω : Type) where
  allows : σ → ω → Prop
  leaves : σ → ω → σ → Prop
  fails : σ → Prop

variable {σ τ ω ω' : Type} {ρ : ω → Type} {ρ' : ω' → Type} {ε ε' α β : Type}

/-- Both sides keep an invariant: it holds whenever something is said that is heard, and when the
play goes on after that, and when it fails. What is not heard leaves the state as it is. -/
def Pact.keeping (heard : ω → Bool) (keeps : σ → Prop) (allows : σ → ω → Prop) : Pact σ ω where
  allows s o := allows s o ∧ (heard o = true → keeps s)
  leaves s o s' := if heard o then keeps s' else s' = s
  fails := keeps

/-- What a pact says of the end of a play that is to make `Q` true. -/
def Pact.Closes (c : Pact σ ω) (Q : α → σ → Prop) (t : σ) : Except ε α → Prop
  | .ok a => Q a t
  | .error _ => c.fails t

namespace Play

/-- The play says only what the pact allows, fails only where the pact lets it, and makes `Q` true
of its result and the state it leaves, whatever others do that keep the pact as well. -/
def Abides (c : Pact σ ω) (Q : α → σ → Prop) : Play σ ω ρ ε α → Prop
  | done s a => Q a s
  | fail s _ => c.fails s
  | pause s o next => c.allows s o ∧ ∀ r s', c.leaves s o s' → (next r s').Abides c Q

/-- Among others who leave states in certain ways the play says these things, each in the state it
stands with, and ends in this state and with this result. -/
inductive Ends (leaves : σ → ω → σ → Prop) :
    Play σ ω ρ ε α → List (σ × ω) → σ → Except ε α → Prop where
  | done {s : σ} {a : α} : Ends leaves (done s a) [] s (.ok a)
  | fail {s : σ} {e : ε} : Ends leaves (fail s e) [] s (.error e)
  | pause {s s' t : σ} {o : ω} {next : ρ o → σ → Play σ ω ρ ε α} {r : ρ o} {xs : List (σ × ω)}
      {result : Except ε α} (hleaves : leaves s o s') (rest : Ends leaves (next r s') xs t result) :
      Ends leaves (pause s o next) ((s, o) :: xs) t result

variable {c : Pact σ ω} {Q R : α → σ → Prop} {p : Play σ ω ρ ε α}

theorem Abides.mono (hp : p.Abides c Q) (h : ∀ a s, Q a s → R a s) : p.Abides c R := by
  induction p with
  | done s a => exact h a s hp
  | fail s e => exact hp
  | pause s o next ih => exact ⟨hp.1, fun r s' hs' => ih r s' (hp.2 r s' hs')⟩

/-- A turn after a play may rely on what the play makes true. -/
theorem Abides.bind {Q : β → σ → Prop} {f : α → Turn σ ω ρ ε β} (hp : p.Abides c R)
    (hf : ∀ a s, R a s → (f a s).Abides c Q) : (p.bind f).Abides c Q := by
  induction p with
  | done s a => exact hf a s hp
  | fail s e => exact hp
  | pause s o next ih => exact ⟨hp.1, fun r s' hs' => ih r s' (hp.2 r s' hs')⟩

/-- **How a play ends that abides by a pact**: everything it says is allowed where it says it. -/
theorem Abides.of_ends {xs : List (σ × ω)} {t : σ} {result : Except ε α}
    (hends : p.Ends c.leaves xs t result) (hp : p.Abides c Q) :
    (∀ x ∈ xs, c.allows x.1 x.2) ∧ c.Closes Q t result := by
  induction hends with
  | done => exact ⟨nofun, hp⟩
  | fail => exact ⟨nofun, hp⟩
  | pause hleaves rest ih =>
    obtain ⟨hallowed, hresult⟩ := ih (hp.2 _ _ hleaves)
    exact ⟨List.forall_mem_cons.mpr ⟨hp.1, hallowed⟩, hresult⟩

/-! ### Nobody listening -/

/-- What a play says with nobody listening, each with the state in which it is said. -/
def told : Play σ ω (fun _ => Unit) ε α → List (σ × ω)
  | done .. => []
  | fail .. => []
  | pause s o next => (s, o) :: (next () s).told

theorem map_snd_told (p : Play σ ω (fun _ => Unit) ε α) : p.told.map Prod.snd = p.alone.1 := by
  induction p with
  | done s a => rfl
  | fail s e => rfl
  | pause s o next ih => rw [told, List.map_cons, ih, alone]

/-- A play that nobody listens to ends like this, among others who may leave states as they are. -/
theorem ends_told {leaves : σ → ω → σ → Prop} (hstay : ∀ s o, leaves s o s)
    (p : Play σ ω (fun _ => Unit) ε α) : p.Ends leaves p.told p.alone.2.1 p.alone.2.2 := by
  induction p with
  | done s a => exact .done
  | fail s e => exact .fail
  | pause s o next ih => exact .pause (hstay s o) (ih () s)

/-- Among others who leave every state as it is a play ends as it does with nobody listening. -/
theorem Ends.eq_told {p : Play σ ω (fun _ => Unit) ε α} {xs : List (σ × ω)} {t : σ}
    {result : Except ε α} (h : p.Ends (fun s _ s' => s' = s) xs t result) :
    xs = p.told ∧ t = p.alone.2.1 ∧ result = p.alone.2.2 := by
  induction p generalizing xs with
  | done s a =>
    cases h
    exact ⟨rfl, rfl, rfl⟩
  | fail s e =>
    cases h
    exact ⟨rfl, rfl, rfl⟩
  | pause s o next ih =>
    cases h with
    | pause hleaves rest =>
      obtain rfl := hleaves
      obtain ⟨rfl, hrest⟩ := ih () _ rest
      exact ⟨rfl, hrest⟩

end Play

namespace Turn

/-- The turn, taken in a state, abides by the pact and makes `Q` true of its result and the state it
leaves. -/
def Abides (c : Pact σ ω) (m : Turn σ ω ρ ε α) (s : σ) (Q : α → σ → Prop) : Prop :=
  (m s).Abides c Q

/-- What a turn says with nobody listening, each with the state in which it is said. -/
def told {ω : Type} (m : Turn σ ω (fun _ => Unit) ε α) (s : σ) : List (σ × ω) := (m s).told

/-- The states aside, that is what the turn says on its own. -/
theorem map_snd_told {ω : Type} (m : Turn σ ω (fun _ => Unit) ε α) (s : σ) :
    (m.told s).map Prod.snd = (m.alone s).1 := Play.map_snd_told (m s)

variable {c : Pact σ ω} {s : σ} {R : α → σ → Prop} {Q : β → σ → Prop}

theorem abides_fail (e : ε) (h : c.fails s) : (fail e : Turn σ ω ρ ε α).Abides c s R := h

theorem abides_say {o : ω} (h : c.allows s o) :
    (say o : Turn σ ω ρ ε (ρ o)).Abides c s fun _ s' => c.leaves s o s' :=
  ⟨h, fun _ _ hs' => hs'⟩

theorem Abides.get_bind {f : σ → Turn σ ω ρ ε β} (hf : (f s).Abides c s Q) :
    (get >>= f).Abides c s Q := hf

theorem Abides.modify_bind {g : σ → σ} {f : Unit → Turn σ ω ρ ε β}
    (hf : (f ()).Abides c (g s) Q) : (modify g >>= f).Abides c s Q := hf

theorem Abides.mono {m : Turn σ ω ρ ε α} {R' : α → σ → Prop} (hm : m.Abides c s R)
    (h : ∀ a s', R a s' → R' a s') : m.Abides c s R' := Play.Abides.mono hm h

/-- The second of two turns may rely on what the first makes true. -/
theorem Abides.bind {m : Turn σ ω ρ ε α} {f : α → Turn σ ω ρ ε β} (hm : m.Abides c s R)
    (hf : ∀ a s', R a s' → (f a).Abides c s' Q) : (m >>= f).Abides c s Q :=
  Play.Abides.bind hm hf

theorem Abides.map {m : Turn σ ω ρ ε α} {f : α → β}
    (hm : m.Abides c s fun a s' => Q (f a) s') : (f <$> m).Abides c s Q :=
  Play.Abides.bind hm fun _ _ hq => hq

/-- What a turn leaves with nobody listening, whether it fails or not. -/
theorem Abides.keeps_alone {keeps : σ → Prop} {m : Turn σ ω (fun _ => Unit) ε α}
    (hm : m.Abides c s fun _ s' => keeps s') (hstay : ∀ s o, c.leaves s o s)
    (hfails : ∀ s, c.fails s → keeps s) : keeps (m.alone s).2.1 := by
  have hcloses := (Play.Abides.of_ends (Play.ends_told hstay (m s)) hm).2
  rw [alone]
  cases h : (m s).alone.2.2 with
  | ok a =>
    rw [h] at hcloses
    exact hcloses
  | error e =>
    rw [h] at hcloses
    exact hfails _ hcloses

/-! ### Saying things under a pact of an invariant -/

section Keeping

variable {heard : ω → Bool} {keeps : σ → Prop} {allows : σ → ω → Prop}

/-- Saying something that the pact allows. Afterwards the invariant holds, if it did before. -/
theorem abides_say_keeping {o : ω} (hallows : allows s o) (hs : keeps s) :
    (say o : Turn σ ω ρ ε (ρ o)).Abides (.keeping heard keeps allows) s fun _ s' =>
      keeps s' ∧ (heard o = false → s' = s) := by
  refine ⟨⟨hallows, fun _ => hs⟩, fun r s' hs' => ?_⟩
  show keeps s' ∧ (heard o = false → s' = s)
  simp only [Pact.keeping] at hs'
  split at hs'
  · next hheard => exact ⟨hs', fun hunheard => absurd (hheard.symm.trans hunheard) (by decide)⟩
  · exact ⟨hs' ▸ hs, fun _ => hs'⟩

end Keeping

/-! ### Turns on a part of a state -/

/-- What a turn abides by on a part of a larger state it abides by there. The pact on the whole must
allow what it says, and leave the part as the other pact does. What else is known of the whole is
`J`: neither the turn nor others may touch that. -/
theorem Abides.embed {c' : Pact τ ω'} {part : τ → σ} {update : σ → τ → τ} {tag : ω → ω'}
    {raise : ε → ε'} {J : τ → Prop} {Q : α → τ → Prop} {m : Turn σ ω (fun _ => Unit) ε α} {t : τ}
    (part_update : ∀ s t, part (update s t) = s) (hupdate : ∀ s t, J t → J (update s t))
    (hallows : ∀ t o, J t → c.allows (part t) o → c'.allows t (tag o))
    (hleaves : ∀ t o t', J t → c'.leaves t (tag o) t' → J t' ∧ c.leaves (part t) o (part t'))
    (hfails : ∀ t, J t → c.fails (part t) → c'.fails t)
    (hdone : ∀ a t, J t → R a (part t) → Q a t) (hm : m.Abides c (part t) R) (ht : J t) :
    (m.embed part update (fun o => say (tag o)) raise : Turn τ ω' (fun _ => Unit) ε' α).Abides c' t
      Q := by
  have h (p : Play σ ω (fun _ => Unit) ε α) (hp : p.Abides c R) (t : τ) (ht : J t) :
      (p.embed part update (fun o => (say (tag o) : Turn τ ω' (fun _ => Unit) ε' Unit)) raise
        t).Abides c' Q := by
    induction p generalizing t with
    | done s a => exact hdone a _ (hupdate s t ht) (by rwa [part_update])
    | fail s e => exact hfails _ (hupdate s t ht) (by rwa [part_update])
    | pause s o next ih =>
      obtain ⟨hsaid, hnext⟩ := hp
      have hs : J (update s t) := hupdate s t ht
      refine ⟨hallows _ o hs (by rwa [part_update]), fun _ t' ht' => ?_⟩
      obtain ⟨hrest, hleft⟩ := hleaves _ o t' hs ht'
      rw [part_update] at hleft
      exact ih () (part t') (hnext () (part t') hleft) t' hrest
  exact h (m (part t)) hm t ht

end Turn

end Parley
