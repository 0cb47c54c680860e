import Parley.Bus.Host

/-!
# Invariants of delivery

A turn that publishes goes on from whatever its listeners have left behind. What can still be said
of its end is what it makes true itself, and an invariant that it keeps and so do all listeners.

`Play.Ensures` is this way of reasoning. The invariant has to hold whenever the play pauses, since
listeners act there, and it is all that is known of the state afterwards. A play also pauses for
things that nobody hears; there the state stays as it is.

## Main definitions

* `Play.Ensures` — what a play makes true while others keep an invariant
* `Listeners.Keep`, `Publisher.Keeps` — listeners keep an invariant, and so does delivery

## Main results

* `Play.Ensures.bind`, `Play.Ensures.embed` — turns put together, and turns on a part of a state
* `Play.Ensures.perform` — what a host carries out is what the play ensures
* `Host.keeps_publish` — delivery keeps what every listener keeps
-/

namespace Parley

variable {σ τ ω ω' : Type} {ρ : ω → Type} {ρ' : ω' → Type} {ε ε' α β : Type}

/-! ### Plays among others -/

namespace Play

/-- While others keep the invariant `I`, the play keeps it as well, and makes `Q` true of its result
and the state it leaves. Others act only when the play says something that is heard. -/
def Ensures (heard : ω → Bool) (I : σ → Prop) (Q : α → σ → Prop) : Play σ ω ρ ε α → Prop
  | done s a => I s ∧ Q a s
  | fail s _ => I s
  | pause s o next =>
    I s ∧ ∀ r s', I s' → (heard o = false → s' = s) → (next r s').Ensures heard I Q

variable {heard : ω → Bool} {heard' : ω' → Bool} {I : σ → Prop} {Q R : α → σ → Prop}
  {p : Play σ ω ρ ε α}

theorem Ensures.mono (hp : p.Ensures heard I Q) (h : ∀ a s, I s → Q a s → R a s) :
    p.Ensures heard I R := by
  induction p with
  | done s a => exact ⟨hp.1, h a s hp.1 hp.2⟩
  | fail s e => exact hp
  | pause s o next ih => exact ⟨hp.1, fun r s' hs' hsame => ih r s' (hp.2 r s' hs' hsame)⟩

/-- A turn after a play may rely on the invariant and on what the play makes true. -/
theorem Ensures.bind {Q : β → σ → Prop} {f : α → Turn σ ω ρ ε β} (hp : p.Ensures heard I R)
    (hf : ∀ a s, I s → R a s → (f a s).Ensures heard I Q) : (p.bind f).Ensures heard I Q := by
  induction p with
  | done s a => exact hf a s hp.1 hp.2
  | fail s e => exact hp
  | pause s o next ih => exact ⟨hp.1, fun r s' hs' hsame => ih r s' (hp.2 r s' hs' hsame)⟩

section Embed

variable {part : τ → σ} {update : σ → τ → τ} {say : (o : ω) → Turn τ ω' ρ' ε' (ρ o)}
  {raise : ε → ε'}

/-- What a play ensures on a part of a larger state it ensures there, if saying something on the
whole keeps the invariant of the part, and the part itself when nobody hears it. -/
theorem Ensures.embed (part_update : ∀ s t, part (update s t) = s)
    (hsay : ∀ o t, I (part t) → (say o t).Ensures heard' (fun t' => I (part t'))
      fun _ t' => heard o = false → part t' = part t)
    (hp : p.Ensures heard I Q) (t : τ) :
    (p.embed part update say raise t).Ensures heard' (fun t' => I (part t'))
      fun a t' => Q a (part t') := by
  induction p generalizing t with
  | done s a =>
    show I (part (update s t)) ∧ Q a (part (update s t))
    rw [part_update]
    exact hp
  | fail s e =>
    show I (part (update s t))
    rw [part_update]
    exact hp
  | pause s o next ih =>
    have hsaid := hsay o (update s t) (by rw [part_update]; exact hp.1)
    rw [part_update] at hsaid
    exact hsaid.bind fun r t' ht' hsame => ih r (part t') (hp.2 r (part t') ht' hsame) t'

/-- Whatever is played on a part that an invariant does not speak of keeps the invariant, if saying
something on the whole does. -/
theorem ensures_embed_of_update {J : τ → Prop} (hupdate : ∀ s t, J t → J (update s t))
    (hsay : ∀ o t, J t → (say o t).Ensures heard' J fun _ _ => True) (p : Play σ ω ρ ε α) {t : τ}
    (ht : J t) : (p.embed part update say raise t).Ensures heard' J fun _ _ => True := by
  induction p generalizing t with
  | done s a => exact ⟨hupdate s t ht, trivial⟩
  | fail s e => exact hupdate s t ht
  | pause s o next ih =>
    exact (hsay o (update s t) (hupdate s t ht)).bind fun r t' ht' _ => ih r (part t') ht'

end Embed

/-- Catch a failure: it becomes a result. -/
def attempt : Play σ ω ρ ε α → Play σ ω ρ ε (Except ε α)
  | done s a => done s (.ok a)
  | fail s e => done s (.error e)
  | pause s o next => pause s o fun r s' => (next r s').attempt

/-- A play keeps an invariant also when its failure is caught. -/
theorem Ensures.attempt (hp : p.Ensures heard I Q) :
    p.attempt.Ensures heard I fun r s => ∀ a, r = .ok a → Q a s := by
  induction p with
  | done s a => exact ⟨hp.1, fun b hb => Except.ok.inj hb ▸ hp.2⟩
  | fail s e => exact ⟨hp, nofun⟩
  | pause s o next ih => exact ⟨hp.1, fun r s' hs' hsame => ih r s' (hp.2 r s' hs' hsame)⟩

end Play

/-! ### Turns among others -/

namespace Turn

/-- While others keep the invariant `I`, the turn taken in a state keeps it as well, and makes `Q`
true of its result and the state it leaves. -/
def Ensures (heard : ω → Bool) (I : σ → Prop) (m : Turn σ ω ρ ε α) (s : σ) (Q : α → σ → Prop) :
    Prop :=
  (m s).Ensures heard I Q

variable {heard : ω → Bool} {I : σ → Prop} {R : α → σ → Prop} {Q : β → σ → Prop} {s : σ}

theorem ensures_fail (e : ε) (hs : I s) : (fail e : Turn σ ω ρ ε α).Ensures heard I s R := hs

theorem ensures_say (o : ω) (hs : I s) :
    (say o : Turn σ ω ρ ε (ρ o)).Ensures heard I s fun _ s' => heard o = false → s' = s :=
  ⟨hs, fun _ _ hs' hsame => ⟨hs', hsame⟩⟩

theorem Ensures.get_bind {f : σ → Turn σ ω ρ ε β} (hf : (f s).Ensures heard I s Q) :
    (get >>= f).Ensures heard I s Q := hf

theorem Ensures.modify_bind {g : σ → σ} {f : Unit → Turn σ ω ρ ε β}
    (hf : (f ()).Ensures heard I (g s) Q) : (modify g >>= f).Ensures heard I s Q := hf

theorem Ensures.mono {m : Turn σ ω ρ ε α} {R' : α → σ → Prop} (hm : m.Ensures heard I s R)
    (h : ∀ a s', I s' → R a s' → R' a s') : m.Ensures heard I s R' := Play.Ensures.mono hm h

/-- The second of two turns may rely on the invariant and on what the first makes true. -/
theorem Ensures.bind {m : Turn σ ω ρ ε α} {f : α → Turn σ ω ρ ε β} (hm : m.Ensures heard I s R)
    (hf : ∀ a s', I s' → R a s' → (f a).Ensures heard I s' Q) : (m >>= f).Ensures heard I s Q :=
  Play.Ensures.bind hm hf

theorem Ensures.map {m : Turn σ ω ρ ε α} {f : α → β}
    (hm : m.Ensures heard I s fun a s' => Q (f a) s') : (f <$> m).Ensures heard I s Q :=
  Play.Ensures.bind hm fun _ _ hs hq => ⟨hs, hq⟩

/-- Catch a failure: it becomes a result. -/
def attempt (m : Turn σ ω ρ ε α) : Turn σ ω ρ ε (Except ε α) := fun s => (m s).attempt

theorem Ensures.attempt {m : Turn σ ω ρ ε α} (hm : m.Ensures heard I s R) :
    m.attempt.Ensures heard I s fun r s' => ∀ a, r = .ok a → R a s' := Play.Ensures.attempt hm

section Embed

variable {heard' : ω' → Bool} {part : τ → σ} {update : σ → τ → τ}
  {say : (o : ω) → Turn τ ω' ρ' ε' (ρ o)} {raise : ε → ε'} {t : τ}

/-- What a turn ensures on a part of a larger state it ensures there, if saying something on the
whole keeps the invariant of the part, and the part itself when nobody hears it. -/
theorem Ensures.embed {m : Turn σ ω ρ ε α} (part_update : ∀ s t, part (update s t) = s)
    (hsay : ∀ o t, I (part t) → (say o).Ensures heard' (fun t' => I (part t')) t
      fun _ t' => heard o = false → part t' = part t)
    (hm : m.Ensures heard I (part t) R) :
    (m.embed part update say raise).Ensures heard' (fun t' => I (part t')) t
      fun a t' => R a (part t') :=
  Play.Ensures.embed part_update hsay hm t

/-- Whatever is done to a part that an invariant does not speak of keeps the invariant, if saying
something on the whole does. -/
theorem ensures_embed {J : τ → Prop} (hupdate : ∀ s t, J t → J (update s t))
    (hsay : ∀ o t, J t → (say o).Ensures heard' J t fun _ _ => True) (m : Turn σ ω ρ ε α)
    (ht : J t) : (m.embed part update say raise).Ensures heard' J t fun _ _ => True :=
  Play.ensures_embed_of_update hupdate hsay (m (part t)) ht

end Embed

end Turn

/-! ### Hosts -/

deriving instance DecidableEq for Outcome

variable {W χ κ δ η : Type}

/-- Whether listeners hear of a command at once. -/
def Command.isHeard : Command χ κ δ η → Bool
  | publish .. => true
  | _ => false

/-- Every call of a listener keeps an invariant of the world. -/
def Listeners.Keep (I : W → Prop) (listeners : Listeners W χ κ δ η ε) : Prop :=
  ∀ handler ticket w, I w →
    (listeners.react handler ticket).Ensures Command.isHeard I w fun _ _ => True

/-- Delivering an event keeps an invariant of the world. -/
def Publisher.Keeps (I : W → Prop) (publisher : Publisher W χ κ δ η ε) : Prop :=
  ∀ c ticket h, I h.world → I (publisher c ticket h).2.world

variable [DecidableEq χ] [DecidableEq κ] [DecidableEq η] {I : W → Prop} {Q : α → W → Prop}
  {publisher : Publisher W χ κ δ η ε}

/-- How carrying out a turn ended: the invariant holds of the world that is left, and of a result
also what the turn makes true. -/
structure Host.Ended (I : W → Prop) (Q : α → W → Prop) (r : Outcome ε α × Host W χ κ δ η) :
    Prop where
  invariant : I r.2.world
  result (a : α) (hreturned : r.1 = .returned a) : Q a r.2.world

/-- **What a host carries out is what the play ensures.** -/
theorem Play.Ensures.perform (hpublisher : publisher.Keeps I)
    {p : Play W (Command χ κ δ η) Command.Reply (Upset ε) α}
    (hp : p.Ensures Command.isHeard I Q) (h : Host W χ κ δ η) :
    Host.Ended I Q (p.perform publisher h) := by
  induction p generalizing h with
  | done w a =>
    refine ⟨hp.1, fun b hb => ?_⟩
    obtain rfl : a = b := Outcome.returned.inj hb
    exact hp.2
  | fail w u => exact ⟨hp, nofun⟩
  | pause w o next ih =>
    obtain ⟨hw, hnext⟩ := hp
    cases o with
    | publish c kind data =>
      unfold Play.perform
      extract_lets ticket posted
      split
      · exact ih _ _ (hnext _ _ hw nofun) _
      · have hdelivered : I (publisher c ticket posted).2.world := hpublisher c ticket posted hw
        split
        · rename_i hr
          rw [hr] at hdelivered
          exact ih _ _ (hnext _ _ hdelivered nofun) _
        · rename_i hr
          rw [hr] at hdelivered
          exact ⟨hdelivered, nofun⟩
        · rename_i hr
          rw [hr] at hdelivered
          exact ⟨hdelivered, nofun⟩
    | subscribe | unsubscribe | clear | count | inspect | consume | amend | remark =>
      exact ih _ _ (hnext _ _ hw fun _ => rfl) _

namespace Host

variable {listeners : Listeners W χ κ δ η ε}

omit [DecidableEq η] in
@[simp] theorem release_world (h : Host W χ κ δ η) (c : χ) : (h.release c).world = h.world := rfl

theorem keeps_callAll (hpublisher : publisher.Keeps I) (hlisteners : listeners.Keep I)
    (c : χ) (ticket : Nat) (kind : κ) (ss : List (Subscription η)) {h : Host W χ κ δ η}
    (hw : I h.world) : I (callAll listeners publisher c ticket kind ss h).2.world := by
  have hcalled {h g : Host W χ κ δ η} {s : Subscription η} {o : Outcome ε Unit} (hw : I h.world)
      (hcall : (listeners.react s.handler ticket h.world).perform publisher
        (h.record (.called c ticket s.handler)) = (o, g)) : I g.world := by
    have hended := Play.Ensures.perform hpublisher (hlisteners s.handler ticket h.world hw)
      (h.record (.called c ticket s.handler))
    rw [hcall] at hended
    exact hended.invariant
  fun_induction callAll listeners publisher c ticket kind ss h with
  | case1 => exact hw
  | case2 _ _ _ _ _ hcall | case6 _ _ _ _ _ hcall | case7 _ _ _ _ hcall => exact hcalled hw hcall
  | case3 _ _ _ _ _ hcall _ ih => exact ih (hcalled hw hcall)
  -- the remark on a failure leaves the world as it is
  | case4 _ _ _ _ _ hcall =>
    have hfailed := hcalled hw hcall
    exact hfailed
  | case5 _ _ _ _ _ hcall _ _ ih =>
    have hfailed := hcalled hw hcall
    exact ih hfailed

theorem keeps_dispatch (hpublisher : publisher.Keeps I) (hlisteners : listeners.Keep I) :
    (dispatch listeners publisher).Keeps I := by
  intro c ticket h hw
  rw [dispatch]
  split
  · exact hw
  · exact keeps_callAll hpublisher hlisteners c ticket _ _ hw

theorem keeps_drain (hpublisher : publisher.Keeps I) (hlisteners : listeners.Keep I)
    (c : χ) (n : Nat) {h : Host W χ κ δ η} (hw : I h.world) :
    I (drain listeners publisher c n h).2.world := by
  fun_induction drain listeners publisher c n h with
  | case1 => exact hw
  | case2 => exact hw
  | case3 h ticket rest _ _ _ g hdispatch ih =>
    have hdispatched := keeps_dispatch hpublisher hlisteners c ticket
      (h.changeChannel c fun ch => { ch with queue := rest }) hw
    rw [hdispatch] at hdispatched
    exact ih hdispatched
  | case4 => exact keeps_dispatch hpublisher hlisteners c _ _ hw

/-- **Delivery keeps what every listener keeps.** -/
theorem keeps_publish (hlisteners : listeners.Keep I) (supply : Nat) :
    (publish listeners supply).Keeps I := by
  induction supply with
  | zero => exact fun c ticket h hw => hw
  | succ supply ih =>
    intro c ticket h hw
    have hdispatched := keeps_dispatch ih hlisteners c ticket (h.occupy c) hw
    simp only [publish, release_world]
    split
    · rename_i hr
      rw [hr] at hdispatched
      exact keeps_drain ih hlisteners c (supply + 1) hdispatched
    · exact hdispatched

/-- **A turn among listeners**: whatever a turn ensures is so after it was carried out, if every
listener keeps the invariant. -/
theorem ensures_run (hlisteners : listeners.Keep I) {m : HostTurn W χ κ δ η ε α}
    {h : Host W χ κ δ η} (hm : m.Ensures Command.isHeard I h.world Q) (supply : Nat) :
    Ended I Q (run listeners supply m h) :=
  Play.Ensures.perform (keeps_publish hlisteners supply) hm h

end Host

end Parley
