import Parley.Proofs.Playback.Onlookers
import Parley.Proofs.Playback.Writers
import Parley.Proofs.Stage.Cues

/-!
# A stage before an audience

What is said on a stage goes to the channels of the player and of the stage, and whoever listens
there is the audience. An audience may look at the stage, remember what it likes, use the host in
every way, write variables, and fail. It does not touch the player or the stage otherwise, and it
does not abort. So when a cue goes on after something was said, all that can be different is the
store.

A performance is what comes of cues before an audience: how each came out, the stage it left, and
what was said meanwhile, each with the stage as it was then. An audience that writes nothing makes
no difference to any of these, so what holds of runs that nobody listens to holds of performances.

## Main definitions

* `Stage.Reaction`, `Stage.audience` — what an audience does, and the listeners that do it
* `Stage.Rewritten` — a stage but for the store
* `Stage.performance`, `Stage.unattended` — cues before an audience, and with nobody listening
* `Stage.hostAfter` — the host that cues before an audience leave
* `Stage.IsPassive` — an audience that writes nothing

## Main results

* `Stage.playedOut_run` — a cue before an audience is a play among others who change no more than
  the audience does
* `Stage.performance_eq_unattended`
-/

namespace Parley

/-- Whatever it is answered, and in whatever state it goes on, the play says nothing bad. -/
def Play.Avoids {σ ω : Type} {ρ : ω → Type} {ε α : Type} (bad : ω → Prop) :
    Play σ ω ρ ε α → Prop
  | done .. => True
  | fail .. => True
  | pause _ o next => ¬ bad o ∧ ∀ r s, (next r s).Avoids bad

namespace Stage

variable {F M χ η α : Type}

/-! ### Audiences -/

/-- What somebody in the audience can ask for: a look at the stage, to write variables, or something
of the host. -/
inductive Request (χ η : Type) where
  | look
  | write (f : Store → Store)
  | command (c : Command χ NoticeKind Notice η)

/-- What a request is answered with. -/
def Request.Reply (F : Type) {χ η : Type} : Request χ η → Type
  | look => Stage F
  | write _ => Unit
  | command c => c.Reply

/-- Requests to write variables. -/
def Request.IsWrite : Request χ η → Prop
  | write _ => True
  | _ => False

/-- A reaction to an event. It works on what the audience remembers, and may fail, but not abort. -/
abbrev Reaction (F M χ η α : Type) : Type := Turn M (Request χ η) (Request.Reply F) PlayFault α

/-- A stage, what was said on it since the last cue, each with the stage as it was then, and what
the audience remembers. -/
structure House (F M : Type) where
  stage : Stage F
  said : List (Stage F × StageSignal)
  memory : M

/-- A turn in a house. -/
abbrev HouseTurn (F M χ η α : Type) : Type := HostTurn (House F M) χ NoticeKind Notice η PlayFault α

/-- The channels on which the player and the stage announce, if they have any. -/
structure Wiring (χ : Type) where
  player : Option χ
  stage : Option χ

/-- Change the store and nothing else. -/
def rewrite (f : Store → Store) (s : Stage F) : Stage F :=
  s.withPlayer { s.player with store := f s.player.store }

/-- Grant a request. -/
def grant : (r : Request χ η) → HouseTurn F M χ η (r.Reply F)
  | .look => do
    let w ← Turn.get
    return w.stage
  | .write f => Turn.modify fun w => { w with stage := w.stage.rewrite f }
  | .command command => HostTurn.ask command

/-- The listeners that answer events by reactions. -/
def audience (react : η → Nat → Reaction F M χ η Unit) :
    Listeners (House F M) χ NoticeKind Notice η PlayFault :=
  ⟨fun handler ticket =>
      (react handler ticket).embed House.memory (fun memory w => { w with memory }) grant .error,
    NoticeKind.label⟩

/-- Announce a notice on a channel, if there is one. -/
def announceOn (channel : Option χ) (n : Notice) : HouseTurn F M χ η Unit :=
  match channel with
  | none => pure ()
  | some c => do
    let _ ← HostTurn.publish c n.kind n

/-- What is said goes to its channel or on record. -/
def broadcast (wires : Wiring χ) : StageSignal → HouseTurn F M χ η Unit
  | .player (.notice n) => announceOn wires.player n
  | .player (.remark r) => HostTurn.remark r
  | .stage n => announceOn wires.stage n

/-- What is said is noted down and then broadcast. -/
def hear (wires : Wiring χ) (o : StageSignal) : HouseTurn F M χ η Unit := do
  Turn.modify fun w => { w with said := w.said ++ [(w.stage, o)] }
  broadcast wires o

/-! ### What an audience leaves as it is -/

/-- The same stage, but for the store. -/
def Rewritten (s t : Stage F) : Prop := ∃ p, s.player.Rewritten p ∧ t = s.withPlayer p

theorem Rewritten.refl (s : Stage F) : s.Rewritten s := ⟨s.player, .refl _, rfl⟩

theorem rewritten_rewrite {s t : Stage F} (h : s.Rewritten t) (f : Store → Store) :
    s.Rewritten (t.rewrite f) := by
  obtain ⟨p, hp, rfl⟩ := h
  exact ⟨_, hp.trans ⟨_, rfl⟩, rfl⟩

/-- An audience whose reactions never ask to write variables. -/
def IsPassive (react : η → Nat → Reaction F M χ η Unit) : Prop :=
  ∀ handler ticket memory, (react handler ticket memory).Avoids Request.IsWrite

variable {react : η → Nat → Reaction F M χ η Unit}

theorem neverAbort_audience : (audience react).NeverAbort := by
  intro handler ticket w
  refine Play.NeverAborts.embed (fun r w => ?_) (react handler ticket w.memory) w
  cases r with
  | look => trivial
  | write f => trivial
  | command command => exact fun _ _ => trivial

/-- **An audience changes nothing but the store.** -/
theorem keep_audience (s : Stage F) (said : List (Stage F × StageSignal)) :
    (audience react).Keep fun w => s.Rewritten w.stage ∧ w.said = said := by
  intro handler ticket w hw
  have hremember (memory : M) (w : House F M) (hw : s.Rewritten w.stage ∧ w.said = said) :
      s.Rewritten { w with memory }.stage ∧ { w with memory }.said = said := hw
  refine Turn.ensures_embed hremember (fun r w hw => ?_) (react handler ticket) hw
  cases r with
  | look => exact ⟨hw, trivial⟩
  | write f => exact ⟨⟨rewritten_rewrite hw.1 f, hw.2⟩, trivial⟩
  | command command => exact ⟨hw, fun _ _ hw' _ => ⟨hw', trivial⟩⟩

/-- A passive audience changes nothing at all. -/
theorem keep_audience_of_isPassive (hpassive : IsPassive react) (s : Stage F)
    (said : List (Stage F × StageSignal)) :
    (audience react).Keep fun w => w.stage = s ∧ w.said = said := by
  have h (play : Play M (Request χ η) (Request.Reply F) PlayFault Unit)
      (hplay : play.Avoids Request.IsWrite) (w : House F M) (hw : w.stage = s ∧ w.said = said) :
      (play.embed House.memory (fun memory w => { w with memory }) grant .error w).Ensures
        Command.isHeard (fun w => w.stage = s ∧ w.said = said) fun _ _ => True := by
    induction play generalizing w with
    | done memory a => exact ⟨hw, trivial⟩
    | fail memory e => exact hw
    | pause memory r next ih =>
      obtain ⟨hr, hnext⟩ := hplay
      cases r with
      | look => exact ih _ memory (hnext _ memory) _ hw
      | write f => exact absurd trivial hr
      | command command =>
        exact ⟨hw, fun a w' hw' _ => ih a w'.memory (hnext a w'.memory) w' hw'⟩
  exact fun handler ticket w hw => h _ (hpassive handler ticket w.memory) w hw

/-! ### Cues before an audience -/

variable [DecidableEq χ] [DecidableEq η]

/-- A play on the stage of a house. -/
def inHouse (wires : Wiring χ) (play : Play (Stage F) StageSignal (fun _ => Unit) PlayFault α) :
    HouseTurn F M χ η α :=
  play.embed House.stage (fun s w => { w with stage := s }) (hear wires) .error

/-- How a play came out in a house where others leave stages in certain ways: it is a play among
them, and what was noted down is what it said, unless a delivery goes on forever. -/
def PlayedOut (leaves : Stage F → Stage F → Prop)
    (play : Play (Stage F) StageSignal (fun _ => Unit) PlayFault α)
    (said : List (Stage F × StageSignal))
    (r : Outcome PlayFault α × Host (House F M) χ NoticeKind Notice η) : Prop :=
  r.1 ≠ .exhausted → ∃ xs result,
    play.Ends (fun s _ t => leaves s t) xs r.2.world.stage result ∧
      r.2.world.said = said ++ xs ∧ r.1 = .ofExcept result

/-- Every play comes out so before an audience that leaves stages in these ways. -/
theorem playedOut_perform {leaves : Stage F → Stage F → Prop} (hrefl : ∀ s, leaves s s)
    {publisher : Publisher (House F M) χ NoticeKind Notice η PlayFault}
    (hkeeps : ∀ s said, publisher.Keeps fun w => leaves s w.stage ∧ w.said = said)
    (hfails : publisher.NeverFails) (wires : Wiring χ)
    (play : Play (Stage F) StageSignal (fun _ => Unit) PlayFault α) (w : House F M)
    (h : Host (House F M) χ NoticeKind Notice η) :
    PlayedOut leaves play w.said ((inHouse wires play w).perform publisher h) := by
  induction play generalizing w h with
  | done s a => exact fun _ => ⟨[], .ok a, .done, (List.append_nil _).symm, rfl⟩
  | fail s e => exact fun _ => ⟨[], .error e, .fail, (List.append_nil _).symm, rfl⟩
  | pause s o next ih =>
    -- what was said is noted, and the play goes on from the stage that was left
    have hon (w' : House F M) (h' : Host (House F M) χ NoticeKind Notice η)
        (hw' : leaves s w'.stage ∧ w'.said = w.said ++ [(s, o)]) :
        PlayedOut leaves (.pause s o next) w.said
          ((inHouse wires (next () w'.stage) w').perform publisher h') := by
      intro hr
      obtain ⟨xs, result, hends, hsaid, hresult⟩ := ih () w'.stage w' h' hr
      refine ⟨(s, o) :: xs, result, .pause hw'.1 hends, ?_, hresult⟩
      rw [hsaid, hw'.2, List.append_assoc, List.singleton_append]
    have hnoted : leaves s s ∧ w.said ++ [(s, o)] = w.said ++ [(s, o)] := ⟨hrefl s, rfl⟩
    have hannounced (channel : Option χ) (n : Notice) :
        PlayedOut leaves (.pause s o next) w.said
          (((announceOn channel n ⟨s, w.said ++ [(s, o)], w.memory⟩).bind fun _ w' =>
            inHouse wires (next () w'.stage) w').perform publisher h) := by
      cases channel with
      | none => exact hon _ h hnoted
      | some c =>
        show PlayedOut leaves _ _ (Play.perform publisher
          (.pause ⟨s, w.said ++ [(s, o)], w.memory⟩ (.publish c n.kind n) fun _ w' =>
            inHouse wires (next () w'.stage) w') h)
        unfold Play.perform
        extract_lets ticket posted
        split
        · exact hon _ _ hnoted
        · have hdelivered := hkeeps s (w.said ++ [(s, o)]) c ticket posted hnoted
          split
          · next hr =>
            rw [hr] at hdelivered
            exact hon _ _ hdelivered
          · next hr => exact absurd (congrArg Prod.fst hr) (hfails c ticket posted _)
          · exact fun hne => absurd rfl hne
    cases o with
    | player o =>
      cases o with
      | notice n => exact hannounced wires.player n
      | remark r => exact hon _ _ hnoted
    | stage n => exact hannounced wires.stage n

variable [Tempo F]

/-- A cue in a house: what was said before is forgotten. -/
def staging (wires : Wiring χ) (c : Cue F) : HouseTurn F M χ η Answer := do
  Turn.modify fun w => { w with said := [] }
  c.turn.embed House.stage (fun s w => { w with stage := s }) (hear wires) .error

/-- **A cue before an audience** that leaves stages in certain ways. -/
theorem playedOut_run (leaves : Stage F → Stage F → Prop) (hrefl : ∀ s, leaves s s)
    (hkeeps : ∀ s said, (audience react).Keep fun w => leaves s w.stage ∧ w.said = said)
    (wires : Wiring χ) (supply : Nat) (h : Host (House F M) χ NoticeKind Notice η) (c : Cue F) :
    PlayedOut leaves (c.turn h.world.stage) []
      (Host.run (audience react) supply (staging wires c) h) :=
  playedOut_perform hrefl (fun s said => Host.keeps_publish (hkeeps s said) supply)
    (Host.neverFails_publish neverAbort_audience supply) wires (c.turn h.world.stage)
    { h.world with said := [] } h

/-- Cues before an audience: how each came out, and the house it left. -/
def performance (wires : Wiring χ) (react : η → Nat → Reaction F M χ η Unit) (supply : Nat) :
    Host (House F M) χ NoticeKind Notice η → List (Cue F) →
      List (Outcome PlayFault Answer × House F M)
  | _, [] => []
  | h, c :: cs =>
    let r := Host.run (audience react) supply (staging wires c) h
    (r.1, r.2.world) :: performance wires react supply r.2 cs

/-- The host after cues before an audience. -/
def hostAfter (wires : Wiring χ) (react : η → Nat → Reaction F M χ η Unit) (supply : Nat)
    (h : Host (House F M) χ NoticeKind Notice η) (cs : List (Cue F)) :
    Host (House F M) χ NoticeKind Notice η :=
  cs.foldl (fun h c => (Host.run (audience react) supply (staging wires c) h).2) h

theorem performance_append (wires : Wiring χ) (supply : Nat)
    (h : Host (House F M) χ NoticeKind Notice η) (cs ds : List (Cue F)) :
    performance wires react supply h (cs ++ ds) =
      performance wires react supply h cs ++
        performance wires react supply (hostAfter wires react supply h cs) ds := by
  induction cs generalizing h with
  | nil => rfl
  | cons c cs ih =>
    rw [List.cons_append, performance, ih, performance, List.cons_append]
    rfl

/-! ### Nobody listening -/

/-- Cues that nobody listens to: how each came out, the stage it left, and what was said. -/
def unattended :
    Stage F → List (Cue F) →
      List (Outcome PlayFault Answer × Stage F × List (Stage F × StageSignal))
  | _, [] => []
  | s, c :: cs =>
    (.ofExcept (c.turn.alone s).2.2, s.after c, c.turn.told s) :: unattended (s.after c) cs

/-- A cue before a passive audience is the cue that nobody listens to. -/
theorem run_eq_alone (wires : Wiring χ) (hpassive : IsPassive react) (supply : Nat)
    (h : Host (House F M) χ NoticeKind Notice η) (c : Cue F)
    (hends : (Host.run (audience react) supply (staging wires c) h).1 ≠ .exhausted) :
    let r := Host.run (audience react) supply (staging wires c) h
    r.1 = .ofExcept (c.turn.alone h.world.stage).2.2 ∧ r.2.world.stage = h.world.stage.after c ∧
      r.2.world.said = c.turn.told h.world.stage := by
  obtain ⟨xs, result, hplay, hsaid, houtcome⟩ :=
    playedOut_run (fun s t => t = s) (fun _ => rfl) (keep_audience_of_isPassive hpassive) wires
      supply h c hends
  obtain ⟨rfl, hleft, rfl⟩ := hplay.eq_told
  exact ⟨houtcome, hleft, hsaid⟩

/-- **A passive audience makes no difference.** Whoever looks on, on a host in whatever state: if no
delivery goes on forever, every cue comes out as it does when nobody listens, leaves the same stage,
and the same is said meanwhile. -/
theorem performance_eq_unattended (wires : Wiring χ) (hpassive : IsPassive react) (supply : Nat)
    (h : Host (House F M) χ NoticeKind Notice η) (cs : List (Cue F))
    (hends : ∀ r ∈ performance wires react supply h cs, r.1 ≠ .exhausted) :
    (performance wires react supply h cs).map (fun r => (r.1, r.2.stage, r.2.said)) =
      unattended h.world.stage cs := by
  induction cs generalizing h with
  | nil => rfl
  | cons c cs ih =>
    rw [performance, List.forall_mem_cons] at hends
    obtain ⟨houtcome, hleft, hsaid⟩ := run_eq_alone wires hpassive supply h c hends.1
    rw [performance, unattended, List.map_cons, ih _ hends.2, hleft]
    exact congrArg (· :: _) (Prod.ext houtcome (Prod.ext rfl hsaid))

/-- Before a passive audience a stage is left as when nobody listens. -/
theorem stage_hostAfter (wires : Wiring χ) (hpassive : IsPassive react) (supply : Nat)
    (h : Host (House F M) χ NoticeKind Notice η) (cs : List (Cue F))
    (hends : ∀ r ∈ performance wires react supply h cs, r.1 ≠ .exhausted) :
    (hostAfter wires react supply h cs).world.stage = h.world.stage.afterAll cs := by
  induction cs generalizing h with
  | nil => rfl
  | cons c cs ih =>
    rw [performance, List.forall_mem_cons] at hends
    rw [hostAfter, List.foldl_cons, afterAll, List.foldl_cons,
      ← (run_eq_alone wires hpassive supply h c hends.1).2.1]
    exact ih _ hends.2

end Stage

end Parley
