import Parley.Proofs.Bus.Failures
import Parley.Proofs.Playback.Reentrance

/-!
# Listeners that only look on

Most listeners present a player: they hear what it announces and put it on a screen. They may look
at the player, remember what they like, publish, consume, subscribe and unsubscribe, and fail, but
they ask for no move. Such onlookers make no difference. Every move has the outcome that it has
without any listener, and leaves the same player.

So runs may be taken with nobody listening, as all that is proved of runs does. The one thing that
onlookers can do to a player is never to come back, by publishing forever.

## Main definitions

* `Player.Watch`, `Player.onlookers` — what onlookers do, and the listeners that do it
* `Player.attended`, `Player.unattended` — runs among onlookers, and runs that nobody listens to

## Main results

* `Player.keep_onlookers`, `Player.neverAbort_onlookers` — onlookers leave the player alone
* `Player.comesOutAs_moving` — a move among onlookers
* `Player.attended_eq_unattended` — a run among onlookers
-/

namespace Parley

/-- The outcome of a turn that nobody listens to: what it returned, or the error it failed with. -/
def Outcome.ofExcept {ε α : Type} : Except ε α → Outcome ε α
  | .ok a => .returned a
  | .error e => .failed (.error e)

namespace Player

variable {F M χ η α : Type}

/-! ### Onlookers -/

/-- What an onlooker can ask for: a look at the player, or something of the host. -/
inductive Glance (χ η : Type) where
  | look
  | command (c : Command χ NoticeKind Notice η)

/-- What an onlooker is answered. -/
def Glance.Reply (F : Type) {χ η : Type} : Glance χ η → Type
  | look => Player F
  | command c => c.Reply

/-- A turn of an onlooker. It works on what onlookers remember, and may fail, but not abort. -/
abbrev Watch (F M χ η α : Type) : Type := Turn M (Glance χ η) (Glance.Reply F) PlayFault α

/-- Give an onlooker what it asks for. -/
def glance : (g : Glance χ η) → CompanyTurn F M χ η (g.Reply F)
  | .look => do
    let w ← Turn.get
    return w.1
  | .command command => HostTurn.ask command

/-- The listeners that answer events by looking on. -/
def onlookers (watch : η → Nat → Watch F M χ η Unit) :
    Listeners (Player F × M) χ NoticeKind Notice η PlayFault :=
  ⟨fun handler ticket =>
      (watch handler ticket).embed Prod.snd (fun memory w => (w.1, memory)) glance .error,
    NoticeKind.label⟩

variable {watch : η → Nat → Watch F M χ η Unit}

/-- Onlookers leave the player as it is. -/
theorem keep_onlookers (p : Player F) : (onlookers watch).Keep fun w => w.1 = p := by
  intro handler ticket w hw
  have hremember (memory : M) (w : Player F × M) (hw : w.1 = p) : (w.1, memory).1 = p := hw
  refine Turn.ensures_embed hremember (fun g w hw => ?_) (watch handler ticket) hw
  cases g with
  | look => exact ⟨hw, trivial⟩
  | command command => exact ⟨hw, fun _ _ hw' _ => ⟨hw', trivial⟩⟩

theorem neverAbort_onlookers : (onlookers watch).NeverAbort := by
  intro handler ticket w
  refine Play.NeverAborts.embed (fun g w => ?_) (watch handler ticket w.2) w
  cases g with
  | look => trivial
  | command command => exact fun _ _ => trivial

/-! ### Moves among onlookers -/

variable [DecidableEq χ] [DecidableEq η]

/-- How a turn came out on a host, compared with the player and the answer it leaves when nobody
listens. The two agree, unless a delivery goes on forever. -/
def ComesOutAs (r : Outcome PlayFault α × Host (Player F × M) χ NoticeKind Notice η)
    (alone : Player F × Except PlayFault α) : Prop :=
  r.1 ≠ .exhausted → r.1 = .ofExcept alone.2 ∧ r.2.world.1 = alone.1

/-- A play of the player comes out as it does when nobody listens, on a host whose deliveries leave
the player alone and do not fail. -/
theorem comesOutAs_perform {publisher : Publisher (Player F × M) χ NoticeKind Notice η PlayFault}
    (hkeeps : ∀ p, publisher.Keeps fun w => w.1 = p) (hfails : publisher.NeverFails) (c : χ)
    (play : Play (Player F) Signal (fun _ => Unit) PlayFault α) (w : Player F × M)
    (h : Host (Player F × M) χ NoticeKind Notice η) :
    ComesOutAs ((play.embed Prod.fst (fun p w => (p, w.2)) (hear c) .error w).perform publisher h)
      play.alone.2 := by
  induction play generalizing w h with
  | done p a => exact fun _ => ⟨rfl, rfl⟩
  | fail p e => exact fun _ => ⟨rfl, rfl⟩
  | pause p s next ih =>
    cases s with
    | remark r => exact ih () p (p, w.2) _
    | notice n =>
      show ComesOutAs (Play.perform publisher (.pause (p, w.2) (.publish c n.kind n) fun _ w' =>
        (next () w'.1).embed Prod.fst (fun p w => (p, w.2)) (hear c) .error w') h)
        (next () p).alone.2
      unfold Play.perform
      extract_lets ticket posted
      split
      · exact ih () p (p, w.2) _
      · have hdelivered : (publisher c ticket posted).2.world.1 = p := hkeeps p c ticket posted rfl
        split
        · rename_i h' hr
          rw [hr] at hdelivered
          obtain rfl : h'.world.1 = p := hdelivered
          exact ih () _ _ _
        · rename_i hr
          exact absurd (congrArg Prod.fst hr) (hfails c ticket posted _)
        · exact fun hne => absurd rfl hne

/-- **A move among onlookers** comes out as it does when nobody listens. -/
theorem comesOutAs_moving [Tempo F] (c : χ) (supply : Nat)
    (h : Host (Player F × M) χ NoticeKind Notice η) (m : Move F) :
    ComesOutAs (Host.run (onlookers watch) supply (moving c m) h) (m.turn.alone h.world.1).2 :=
  comesOutAs_perform (fun p => Host.keeps_publish (keep_onlookers p) supply)
    (Host.neverFails_publish neverAbort_onlookers supply) c (m.turn h.world.1) h.world h

/-! ### Runs among onlookers -/

variable [Tempo F]

/-- The outcomes of moves among onlookers, each with the player it leaves. -/
def attended (c : χ) (watch : η → Nat → Watch F M χ η Unit) (supply : Nat) :
    Host (Player F × M) χ NoticeKind Notice η → List (Move F) →
      List (Outcome PlayFault Answer × Player F)
  | _, [] => []
  | h, m :: ms =>
    let r := Host.run (onlookers watch) supply (moving c m) h
    (r.1, r.2.world.1) :: attended c watch supply r.2 ms

/-- The outcomes of moves that nobody listens to, each with the player it leaves. -/
def unattended : Player F → List (Move F) → List (Outcome PlayFault Answer × Player F)
  | _, [] => []
  | p, m :: ms => (.ofExcept (m.turn.alone p).2.2, p.after m) :: unattended (p.after m) ms

/-- **Onlookers make no difference.** Whoever looks on, on a host in whatever state: if no delivery
goes on forever, every move of a run has the outcome that it has when nobody listens, and leaves the
same player. -/
theorem attended_eq_unattended (c : χ) (watch : η → Nat → Watch F M χ η Unit) (supply : Nat)
    (h : Host (Player F × M) χ NoticeKind Notice η) (ms : List (Move F))
    (hends : ∀ r ∈ attended c watch supply h ms, r.1 ≠ .exhausted) :
    attended c watch supply h ms = unattended h.world.1 ms := by
  induction ms generalizing h with
  | nil => rfl
  | cons m ms ih =>
    rw [attended, List.forall_mem_cons] at hends
    obtain ⟨hmove, hmoves⟩ := hends
    obtain ⟨houtcome, hleft⟩ := comesOutAs_moving c supply h m hmove
    rw [attended, unattended, ih _ hmoves, hleft]
    exact congrArg (· :: _) (Prod.ext houtcome rfl)

/-- An onlooker that gets in the way as far as it can: it hides what it hears from the others,
publishes something of its own, leaves, and fails. -/
def heckler (ticket : Nat) : Watch Amount Nat Unit Unit Unit := do
  let p ← Turn.say Glance.look
  let calls ← Turn.get
  Turn.modify (· + 1)
  Turn.say (Glance.command (.consume ticket))
  let _ ← Turn.say
    (Glance.command (.publish () .textCompleted (.textCompleted p.reveal.text)) : Glance Unit Unit)
  if calls < 3 then pure ()
  else Turn.say (Glance.command (.unsubscribe () .lineShown ()))
  Turn.fail .tooLarge

/-- The gate among hecklers. -/
theorem attended_eq_unattended_gate :
    let p := start gate "gate".toList .empty (Amount.whole 20)
    let h := (Host.quiet (p, 0)).changeRegistry () fun r =>
      r.subscribeAll [.lineShown, .choicesShown, .variablesChanged, .choiceSelected] ⟨5, ()⟩
    let ms := [.advance, .advance, .select 0, .select 1, .advance, .select 0, .skip]
    (∀ r ∈ attended () (fun _ => heckler) 8 h ms, r.1 ≠ .exhausted) ∧
      attended () (fun _ => heckler) 8 h ms = unattended p ms := by
  intro p h ms
  have hends : ∀ r ∈ attended () (fun _ => heckler) 8 h ms, r.1 ≠ .exhausted := by
    decide +kernel
  exact ⟨hends, attended_eq_unattended () _ 8 h ms hends⟩

end Player

end Parley
