import Parley.Proofs.Bus.Invariants

/-!
# Failing is not aborting

A delivery ends early for one reason only, that a handler aborts. Handlers may fail as they like:
each failure goes on record, and the delivery goes on. So if no handler ever aborts, publishing
comes back, unless it goes on forever.

## Main definitions

* `Play.NeverAborts`, `Listeners.NeverAbort` — plays and listeners that may fail, but do not abort
* `Publisher.NeverFails` — deliveries that come back, or go on forever

## Main results

* `Play.NeverAborts.embed` — on a part of a larger state
* `Host.neverFails_publish` — no delivery is cut off, if no listener aborts
-/

namespace Parley

variable {σ τ ω ω' : Type} {ρ : ω → Type} {ρ' : ω' → Type} {ε ε' α β : Type}

/-! ### Plays that do not abort -/

namespace Play

/-- The play does not abort, whatever it is answered and in whatever state it goes on. -/
def NeverAborts : Play σ ω ρ (Upset ε) α → Prop
  | done _ _ => True
  | fail _ (.error _) => True
  | fail _ (.abort _) => False
  | pause _ _ next => ∀ r s, (next r s).NeverAborts

theorem NeverAborts.bind {p : Play σ ω ρ (Upset ε) α} {f : α → Turn σ ω ρ (Upset ε) β}
    (hp : p.NeverAborts) (hf : ∀ a s, (f a s).NeverAborts) : (p.bind f).NeverAborts := by
  induction p with
  | done s a => exact hf a s
  | fail s u =>
    cases u with
    | error e => trivial
    | abort message => exact hp
  | pause s o next ih => exact fun r s' => ih r s' (hp r s')

/-- A play that has no way to abort does not abort on a larger state either, if saying something
there does not. -/
theorem NeverAborts.embed {part : τ → σ} {update : σ → τ → τ}
    {say : (o : ω) → Turn τ ω' ρ' (Upset ε) (ρ o)} (hsay : ∀ o t, (say o t).NeverAborts)
    (p : Play σ ω ρ ε α) (t : τ) : (p.embed part update say .error t).NeverAborts := by
  induction p generalizing t with
  | done s a => trivial
  | fail s e => trivial
  | pause s o next ih => exact (hsay o _).bind fun r t' => ih r (part t') t'

end Play

/-! ### Deliveries among listeners that do not abort -/

variable {W χ κ δ η : Type}

/-- No call of a listener aborts. -/
def Listeners.NeverAbort (listeners : Listeners W χ κ δ η ε) : Prop :=
  ∀ handler ticket w, (listeners.react handler ticket w).NeverAborts

/-- No delivery fails. -/
def Publisher.NeverFails (publisher : Publisher W χ κ δ η ε) : Prop :=
  ∀ c ticket h u, (publisher c ticket h).1 ≠ .failed u

variable [DecidableEq χ] [DecidableEq κ] [DecidableEq η] {publisher : Publisher W χ κ δ η ε}

theorem Play.NeverAborts.perform (hpublisher : publisher.NeverFails)
    {p : Play W (Command χ κ δ η) Command.Reply (Upset ε) α} (hp : p.NeverAborts)
    (h : Host W χ κ δ η) (message : Text) :
    (p.perform publisher h).1 ≠ .failed (.abort message) := by
  induction p generalizing h with
  | done w a => exact nofun
  | fail w u =>
    cases u with
    | error e => exact nofun
    | abort m => exact absurd hp id
  | pause w o next ih =>
    cases o with
    | publish c kind data =>
      unfold Play.perform
      extract_lets ticket posted
      split
      · exact ih _ _ (hp _ _) _
      · split
        · exact ih _ _ (hp _ _) _
        · rename_i hr
          exact absurd (congrArg Prod.fst hr) (hpublisher c ticket posted _)
        · exact nofun
    | subscribe | unsubscribe | clear | count | inspect | consume | amend | remark =>
      exact ih _ _ (hp _ _) _

namespace Host

variable {listeners : Listeners W χ κ δ η ε}

theorem callAll_ne_failed (hpublisher : publisher.NeverFails) (hlisteners : listeners.NeverAbort)
    (c : χ) (ticket : Nat) (kind : κ) (ss : List (Subscription η)) (h : Host W χ κ δ η)
    (u : Upset ε) : (callAll listeners publisher c ticket kind ss h).1 ≠ .failed u := by
  fun_induction callAll listeners publisher c ticket kind ss h with
  | case1 | case2 | case4 | case7 =>
    intro hfailed
    cases hfailed
  | case3 _ _ _ _ _ _ _ ih => exact ih
  | case5 _ _ _ _ _ _ _ _ ih => exact ih
  | case6 s ss h message g hcall =>
    have hcalled := (hlisteners s.handler ticket h.world).perform hpublisher
      (h.record (.called c ticket s.handler)) message
    exact absurd (congrArg Prod.fst hcall) hcalled

theorem neverFails_dispatch (hpublisher : publisher.NeverFails)
    (hlisteners : listeners.NeverAbort) : (dispatch listeners publisher).NeverFails := by
  intro c ticket h u
  rw [dispatch]
  split
  · intro hfailed
    cases hfailed
  · exact callAll_ne_failed hpublisher hlisteners c ticket _ _ _ u

theorem drain_ne_failed (hpublisher : publisher.NeverFails) (hlisteners : listeners.NeverAbort)
    (c : χ) (n : Nat) (h : Host W χ κ δ η) (u : Upset ε) :
    (drain listeners publisher c n h).1 ≠ .failed u := by
  fun_induction drain listeners publisher c n h with
  | case1 | case2 =>
    intro hfailed
    cases hfailed
  | case3 _ _ _ _ _ _ _ _ ih => exact ih
  | case4 => exact neverFails_dispatch hpublisher hlisteners c _ _ u

/-- **No delivery is cut off** among listeners that do not abort. -/
theorem neverFails_publish (hlisteners : listeners.NeverAbort) (supply : Nat) :
    (publish listeners supply).NeverFails := by
  induction supply with
  | zero =>
    intro c ticket h u hfailed
    cases hfailed
  | succ supply ih =>
    intro c ticket h u
    simp only [publish]
    split
    · exact drain_ne_failed ih hlisteners c _ _ u
    · exact neverFails_dispatch ih hlisteners c ticket _ u

end Host

end Parley
