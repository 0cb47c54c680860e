import Parley.Proofs.Bus.Invariants
import Parley.Proofs.Playback.Runs

/-!
# Listeners that move the player

A listener is called in the middle of a move. If it moves the player in its turn, the outer move
goes on from where it finds the player, and still puts on screen what it had set out to show. So
after such a call the screen may show a node that the player has left, and choices may be open that
no choice of the current node stands behind; `ferry_incoherent` has an instance of both.

What survives is what every move restores before it pauses and again before it ends, `Tidy`: the
text that is revealed is that of what is on screen, and choices are on screen at choices only.

Listeners are taken as turns on a memory of their own that may ask for moves of the player, look at
it, and use the host in every other way. Each of their calls may do all of this many times, and a
move they ask for may call them again.

## Main definitions

* `Player.Tidy` — what holds of a player between any two moves, nested ones included
* `Player.Call`, `Player.company` — what listeners do, and the listeners that do it
* `Player.hostAfter` — the host after moves in company

## Main results

* `Player.tidily_move` — every move keeps the player tidy and answers with what is on screen
* `Player.keep_company` — and so does every listener
* `Player.tidy_after_moves_in_company`
-/

namespace Parley

/-- Whether listeners hear of a signal. -/
def Signal.isHeard : Signal → Bool
  | notice _ => true
  | remark _ => false

namespace Player

variable {F : Type}

/-! ### What every listener finds -/

/-- What holds of a player between any two moves, nested ones included. Choices are on screen at
choices only, and the text that is revealed is that of the display on screen. -/
structure Tidy (p : Player F) : Prop where
  choices (hphase : p.phase ≠ .atChoice) : p.choices = []
  text : p.reveal.text = p.display.elim [] Display.text

variable {p : Player F} {α : Type}

/-- A turn that keeps the player tidy and makes something true of its result, whatever listeners do
that keep the player tidy as well. -/
abbrev Tidily (m : PlayerTurn F α) (p : Player F) (Q : α → Player F → Prop) : Prop :=
  m.Ensures Signal.isHeard Tidy p Q

theorem tidily_remark (rs : List Remark) (hp : p.Tidy) :
    Tidily (remark rs) p fun _ q => q = p := by
  induction rs with
  | nil => exact ⟨hp, rfl⟩
  | cons r rs ih =>
    refine ⟨hp, fun _ q _ hsame => ?_⟩
    obtain rfl := hsame rfl
    exact ih

theorem tidily_announce (n : Notice) (hp : p.Tidy) : Tidily (announce n) p fun _ _ => True :=
  ⟨hp, fun _ _ hq _ => ⟨hq, trivial⟩⟩

theorem tidily_lift (r : Except Overlong α) (hp : p.Tidy) :
    Tidily (lift r) p fun a q => q = p ∧ r = .ok a := by
  cases r with
  | ok a => exact ⟨hp, rfl, rfl⟩
  | error e => exact hp

theorem tidily_applyChanges (es : List Text) (hp : p.Tidy) :
    Tidily (applyChanges es) p fun _ _ => True := by
  rw [applyChanges]
  split
  · exact ⟨hp, trivial⟩
  · refine Turn.Ensures.get_bind ?_
    simp only
    refine Turn.Ensures.modify_bind ?_
    refine Turn.Ensures.bind (tidily_remark _ ⟨hp.choices, hp.text⟩) fun _ q hq _ => ?_
    refine Turn.Ensures.bind (tidily_lift _ hq) fun applied q' hq' _ => ?_
    split
    · exact ⟨hq', trivial⟩
    · exact tidily_announce _ hq'

variable [Tempo F]

/-- What is presented is on screen. -/
theorem tidily_present (d : Display) (hp : p.Tidy) :
    Tidily (present d) p fun a q => q.display = some a :=
  ⟨⟨hp.choices, rfl⟩, rfl⟩

theorem tidily_finish (why : EndReason) (hp : p.Tidy) :
    Tidily (finish why) p fun a q => q.display = some a := by
  rw [finish]
  refine Turn.Ensures.modify_bind (Turn.Ensures.get_bind ?_)
  exact Turn.Ensures.bind (tidily_announce _ ⟨fun _ => rfl, hp.text⟩) fun _ q hq _ =>
    tidily_present _ hq

theorem tidily_presentLine (n : Node) (hp : p.Tidy) :
    Tidily (presentLine n) p fun a q => q.display = some a := by
  rw [presentLine]
  refine Turn.Ensures.modify_bind (Turn.Ensures.get_bind ?_)
  exact Turn.Ensures.bind (tidily_announce _ ⟨fun _ => rfl, hp.text⟩) fun _ q hq _ =>
    tidily_present _ hq

theorem tidily_presentChoices (cs : List Choice) (hp : p.Tidy) :
    Tidily (presentChoices cs) p fun a q => q.display = some a := by
  rw [presentChoices]
  refine Turn.Ensures.modify_bind (Turn.Ensures.get_bind ?_)
  have hchoosing : Tidy { p with phase := .atChoice } := ⟨fun hne => absurd rfl hne, hp.text⟩
  refine Turn.Ensures.bind (tidily_remark _ hchoosing) fun _ q hq hsame => ?_
  refine Turn.Ensures.bind (tidily_lift _ hq) fun views q' hq' hsame' => ?_
  obtain ⟨rfl, -⟩ := hsame'
  refine Turn.Ensures.modify_bind (Turn.Ensures.get_bind ?_)
  have hphase : q'.phase = .atChoice := by rw [hsame]
  refine Turn.Ensures.bind (tidily_announce _ ⟨fun hne => absurd hphase hne, hq.text⟩)
    fun _ q hq _ => tidily_present _ hq

theorem tidily_settleOn (conversation : Text) (index : Nat) (n : Node) (hp : p.Tidy) :
    Tidily (settleOn conversation index n) p fun a q => q.display = some a := by
  have hshown {q : Player F} (hq : q.Tidy) :
      Tidily (if n.offersChoices then presentChoices n.options else presentLine n) q
        fun a q => q.display = some a := by
    split
    · exact tidily_presentChoices _ hq
    · exact tidily_presentLine _ hq
  rw [settleOn]
  refine Turn.Ensures.modify_bind (Turn.Ensures.get_bind ?_)
  simp only
  split
  · exact hshown ⟨hp.choices, hp.text⟩
  · refine Turn.Ensures.modify_bind ?_
    exact Turn.Ensures.bind (tidily_applyChanges _ ⟨hp.choices, hp.text⟩) fun _ q hq _ => hshown hq

theorem tidily_settleAmong (conversation : Text) (nodes : List Node) (hp : p.Tidy) :
    Tidily (settleAmong conversation nodes) p fun a q => q.display = some a := by
  rw [settleAmong]
  refine Turn.Ensures.get_bind ?_
  simp only
  refine Turn.Ensures.modify_bind ?_
  refine Turn.Ensures.bind (tidily_remark _ ⟨hp.choices, hp.text⟩) fun _ q hq _ => ?_
  refine Turn.Ensures.bind (tidily_lift _ hq) fun found q' hq' _ => ?_
  cases found with
  | none => exact tidily_finish _ hq'
  | some n => exact tidily_settleOn _ _ n hq'

theorem tidily_settle (entering : Bool) (hp : p.Tidy) :
    Tidily (settle entering) p fun a q => q.display = some a := by
  rw [settle]
  refine Turn.Ensures.get_bind ?_
  simp only
  split
  · exact Turn.Ensures.bind (tidily_remark _ hp) fun _ q hq _ => tidily_finish _ hq
  · split
    · exact Turn.Ensures.bind (tidily_announce _ hp) fun _ q hq _ => tidily_settleAmong _ _ hq
    · exact tidily_settleAmong _ _ hp

/-- **Advancing answers with what is on screen**, whatever listeners did to the player meanwhile. -/
theorem tidily_advance (hp : p.Tidy) :
    Tidily advance p fun a q => ∀ d, a = some d → q.display = some d := by
  have hsettled {q : Player F} (hq : q.Tidy) :
      Tidily (some <$> settle (!p.positioned)) q fun a q => ∀ d, a = some d → q.display = some d :=
    Turn.Ensures.map ((tidily_settle _ hq).mono fun d q _ hd e he => hd.trans he)
  rw [advance]
  refine Turn.Ensures.get_bind ?_
  split
  · simp only
    split
    · exact Turn.Ensures.modify_bind (hsettled ⟨hp.choices, hp.text⟩)
    · exact hsettled hp
  · exact ⟨hp, fun d hd => hd⟩

theorem tidily_take (i : Nat) (c : Choice) (hp : p.Tidy) :
    Tidily (take i c) p fun a q => q.display = some a := by
  rw [take]
  refine Turn.Ensures.bind (tidily_applyChanges _ hp) fun _ q hq _ => ?_
  refine Turn.Ensures.bind (tidily_announce _ hq) fun _ q' hq' _ => ?_
  refine Turn.Ensures.modify_bind ?_
  exact tidily_settle _ ⟨fun _ => rfl, hq'.text⟩

/-- **Selecting answers with what is on screen**, unless it is ignored. -/
theorem tidily_select (index : Int) (hp : p.Tidy) :
    Tidily (select index) p fun a q => ∀ d, a = some d → q.display = some d := by
  rw [select]
  refine Turn.Ensures.get_bind ?_
  split
  · refine Turn.Ensures.bind (tidily_remark _ hp) fun _ q hq _ => ?_
    exact Turn.Ensures.bind (tidily_announce _ hq) fun _ q' hq' _ => ⟨hq', fun d hd => by cases hd⟩
  · split
    · exact Turn.ensures_fail _ hp
    · exact Turn.Ensures.map ((tidily_take _ _ hp).mono fun d q _ hd e he => hd.trans he)

/-- Every move, taken in the middle of others, keeps the player tidy, and answers with what is on
screen. -/
theorem tidily_move (m : Move F) (hp : p.Tidy) :
    Tidily m.turn p fun a q => ∀ d, a = .display (some d) → q.display = some d := by
  cases m with
  | advance =>
    exact Turn.Ensures.map ((tidily_advance hp).mono fun a q _ ha d hd => ha d (by simpa using hd))
  | select index =>
    exact Turn.Ensures.map
      ((tidily_select index hp).mono fun a q _ ha d hd => ha d (by simpa using hd))
  | skip => exact ⟨⟨hp.choices, hp.text⟩, fun d hd => by cases hd⟩
  | tick dt =>
    rw [Move.turn]
    refine Turn.Ensures.get_bind ?_
    split
    · exact Turn.ensures_fail _ hp
    · rename_i reveal htick
      exact ⟨⟨hp.choices, (text_of_tick? htick).trans hp.text⟩, fun d hd => by cases hd⟩
  | setNumber | setFlag | clearStore => exact ⟨⟨hp.choices, hp.text⟩, fun d hd => by cases hd⟩

/-! ### Listeners that ask for moves -/

/-- What a listener can ask for: a move of the player it listens to, a look at it, or something of
the host. -/
inductive Request (F χ η : Type) where
  | move (m : Move F)
  | look
  | command (c : Command χ NoticeKind Notice η)

/-- What a request is answered with. A move that fails or is aborted says so. -/
def Request.Reply {F χ η : Type} : Request F χ η → Type
  | move _ => Except (Upset PlayFault) Answer
  | look => Player F
  | command c => c.Reply

/-- A turn of a listener. It works on what listeners remember, asks for what it likes, and goes on
as it likes. -/
abbrev Call (F M χ η α : Type) : Type := Turn M (Request F χ η) Request.Reply (Upset PlayFault) α

/-- A turn on a player and on what its listeners remember. -/
abbrev CompanyTurn (F M χ η α : Type) : Type :=
  HostTurn (Player F × M) χ NoticeKind Notice η PlayFault α

section Company

variable {M χ η : Type} (c : χ)

/-- What the player says goes to its channel or on record. -/
def hear : Signal → CompanyTurn F M χ η Unit
  | .notice n => do
    let _ ← HostTurn.publish c n.kind n
  | .remark r => HostTurn.remark r

/-- A move of the player, in company. -/
def moving (m : Move F) : CompanyTurn F M χ η Answer :=
  m.turn.embed Prod.fst (fun p w => (p, w.2)) (hear c) .error

/-- Grant a request. -/
def grant : (r : Request F χ η) → CompanyTurn F M χ η r.Reply
  | .move m => (moving c m).attempt
  | .look => do
    let w ← Turn.get
    return w.1
  | .command command => HostTurn.ask command

/-- The listeners that answer events by calls. -/
def company (calls : η → Nat → Call F M χ η Unit) :
    Listeners (Player F × M) χ NoticeKind Notice η PlayFault :=
  ⟨fun handler ticket =>
      (calls handler ticket).embed Prod.snd (fun memory w => (w.1, memory)) (grant c) id,
    NoticeKind.label⟩

variable {c} {w : Player F × M}

omit [Tempo F] in
theorem ensures_hear (s : Signal) (hw : w.1.Tidy) :
    (hear c s : CompanyTurn F M χ η Unit).Ensures Command.isHeard (fun w => w.1.Tidy) w
      fun _ w' => s.isHeard = false → w'.1 = w.1 := by
  cases s with
  | notice n => exact ⟨hw, fun _ _ hw' _ => ⟨hw', fun hsilent => by cases hsilent⟩⟩
  | remark r => exact ⟨hw, fun _ _ hw' hsame => ⟨hw', fun _ => by rw [hsame rfl]⟩⟩

/-- A move in company answers with what is on screen. -/
theorem ensures_moving (m : Move F) (hw : w.1.Tidy) :
    (moving c m : CompanyTurn F M χ η Answer).Ensures Command.isHeard (fun w => w.1.Tidy) w
      fun a w' => ∀ d, a = .display (some d) → w'.1.display = some d :=
  Turn.Ensures.embed (fun _ _ => rfl) (fun s _ hw => ensures_hear s hw) (tidily_move m hw)

theorem ensures_grant (r : Request F χ η) (hw : w.1.Tidy) :
    (grant c r : CompanyTurn F M χ η r.Reply).Ensures Command.isHeard (fun w => w.1.Tidy) w
      fun _ _ => True := by
  cases r with
  | move m => exact (ensures_moving m hw).attempt.mono fun _ _ _ _ => trivial
  | look => exact ⟨hw, trivial⟩
  | command command =>
    have hasked : (HostTurn.ask command : CompanyTurn F M χ η command.Reply).Ensures
        Command.isHeard (fun w => w.1.Tidy) w fun _ w' => command.isHeard = false → w' = w :=
      Turn.ensures_say command hw
    exact hasked.mono fun _ _ _ _ => trivial

/-- **Listeners keep the player tidy**, whatever they ask for. -/
theorem keep_company (calls : η → Nat → Call F M χ η Unit) :
    (company c calls).Keep fun w => w.1.Tidy := by
  intro handler ticket w hw
  have hremember (memory : M) (w : Player F × M) (hw : w.1.Tidy) : (w.1, memory).1.Tidy := hw
  exact Turn.ensures_embed hremember (fun r _ hw => ensures_grant r hw) (calls handler ticket) hw

variable [DecidableEq χ] [DecidableEq η]

/-- The host after moves in company, in order. -/
def hostAfter (c : χ) (calls : η → Nat → Call F M χ η Unit) (supply : Nat)
    (h : Host (Player F × M) χ NoticeKind Notice η) (ms : List (Move F)) :
    Host (Player F × M) χ NoticeKind Notice η :=
  ms.foldl (fun h m => (Host.run (company c calls) supply (moving c m) h).2) h

theorem tidy_hostAfter (calls : η → Nat → Call F M χ η Unit) (supply : Nat)
    {h : Host (Player F × M) χ NoticeKind Notice η} (hw : h.world.1.Tidy) (ms : List (Move F)) :
    (hostAfter c calls supply h ms).world.1.Tidy := by
  induction ms generalizing h with
  | nil => exact hw
  | cons m ms ih =>
    exact ih (Host.ensures_run (keep_company calls) (ensures_moving m hw) supply).invariant

theorem tidy_start (story : Story) (conversation : Text) (store : Store) (speed : F) :
    (start story conversation store speed).Tidy := ⟨fun _ => rfl, rfl⟩

/-- **What is left of coherence among listeners that move the player.** Whoever listens on whatever
channels, after any moves from the start of any story: choices are on screen at choices only, and
the text that is revealed is that of what is on screen. A move that answers with a display has it on
screen in the end. -/
theorem tidy_after_moves_in_company (story : Story) (conversation : Text) (store : Store)
    (speed : F) (memory : M) (calls : η → Nat → Call F M χ η Unit) (supply : Nat)
    (h : Host (Player F × M) χ NoticeKind Notice η) (ms : List (Move F)) (m : Move F) :
    let opening := { h with world := (start story conversation store speed, memory) }
    let r := Host.run (company c calls) supply (moving c m) (hostAfter c calls supply opening ms)
    let p := r.2.world.1
    (p.phase ≠ .atChoice → p.choices = []) ∧
      p.reveal.text = p.display.elim [] Display.text ∧
      ∀ d, r.1 = .returned (.display (some d)) → p.display = some d := by
  intro opening r p
  have hbefore : (hostAfter c calls supply opening ms).world.1.Tidy :=
    tidy_hostAfter calls supply (tidy_start story conversation store speed) ms
  have hended : Host.Ended (fun w => w.1.Tidy)
      (fun a w => ∀ d, a = .display (some d) → w.1.display = some d) r :=
    Host.ensures_run (keep_company calls) (ensures_moving m hbefore) supply
  exact ⟨hended.invariant.choices, hended.invariant.text,
    fun d hreturned => hended.result _ hreturned d rfl⟩

end Company

/-! ### What is lost -/

/-- A crossing. Whoever is on board pays the fare while deciding to row. -/
def ferry : Story :=
  .ofList [
    ("ferry".toList,
      [.line "Ferryman".toList "Aboard.".toList,
        ⟨[], [], some [⟨"Row".toList, none, [], none⟩], none, ["fare = 1".toList], false⟩,
        .line "Ferryman".toList "We sail.".toList])]

/-- A call that moves the story on. -/
def nudge : Call Amount Unit Unit Unit Unit := do
  let _ ← Turn.say (Request.move .advance)

/-- The ferry, with one listener who is called at every notice of a kind. -/
def ferryWith (k : NoticeKind) : Host (Player Amount × Unit) Unit NoticeKind Notice Unit :=
  (Host.quiet (start ferry "ferry".toList .empty (.whole 20), ())).changeRegistry ()
    fun r => r.subscribe k ⟨0, ()⟩

/-- A move among listeners who move the story on. -/
def nudged (m : Move Amount) (h : Host (Player Amount × Unit) Unit NoticeKind Notice Unit) :
    Outcome PlayFault Answer × Host (Player Amount × Unit) Unit NoticeKind Notice Unit :=
  Host.run (company () fun _ _ => nudge) 4 (moving () m) h

/-- **The screen need not agree with the place, and a choice on screen may not be there to take.**
Moved on when the first line is shown, the player is at the choices with that line on screen. Moved
on when the fare is paid, it is past them with the choices on screen, and selecting one fails. -/
theorem ferry_incoherent :
    ferry.Readable ∧
      (let aboard := Display.line "Ferryman".toList "Aboard.".toList;
        let r := nudged .advance (ferryWith .lineShown);
        r.1 = .returned (.display (some aboard)) ∧
          r.2.world.1.phase = .atChoice ∧ r.2.world.1.display = some aboard) ∧
      (let r := nudged .advance (nudged .advance (ferryWith .variablesChanged)).2;
        r.1 = .returned (.display (some (.choices [⟨"Row".toList, true⟩]))) ∧
          r.2.world.1.phase = .atChoice ∧
          (nudged (.select 0) r.2).1 = .failed (.error .noChoiceList)) := by
  refine ⟨by decide, ⟨?_, ?_, ?_⟩, ?_, ?_, ?_⟩ <;> decide +kernel

end Player

end Parley
