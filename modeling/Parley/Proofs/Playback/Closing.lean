import Parley.Proofs.Pacts
import Parley.Proofs.Playback.Runs

/-!
# How a conversation ends

When a conversation is over, nothing is left on screen but its end: there are no choices, and no
text to reveal. This holds of every story, also of one that cannot be read and has failed on the
way. Only one turn ends a conversation, and it is the last thing that a move does; wherever a move
fails, the conversation is still running.

Nobody listens here, so in the middle of a turn the player is what the turn has made of it, and
nothing has to hold there.

## Main definitions

* `Player.Closed` — the end of the conversation is on screen
* `Player.ending` — the pact that a player whose conversation is over is closed

## Main results

* `Player.ends_move`, `Player.closed_afterAll_start`
-/

namespace Parley.Player

variable {F α : Type} {p : Player F}

/-- The end of the conversation is on screen, and nothing else. -/
structure Closed (p : Player F) : Prop where
  choices : p.choices = []
  shows : p.Shows (.ended p.conversation)

/-- The pact that a player whose conversation is over is closed. The others do nothing. -/
def ending : Pact (Player F) Signal where
  allows _ _ := True
  leaves p _ q := q = p
  fails p := p.phase = .ended → p.Closed

/-- A turn that leaves a player closed if its conversation is over. -/
abbrev Ends (m : PlayerTurn F α) (p : Player F) : Prop :=
  m.Abides ending p fun _ q => q.phase = .ended → q.Closed

/-- A turn that ends no conversation, and fails in none that is over. -/
abbrev Continues (m : PlayerTurn F α) (p : Player F) : Prop :=
  m.Abides ending p fun _ q => q.phase ≠ .ended

/-! ### Turns that end nothing -/

theorem abides_announce (n : Notice) (p : Player F) :
    (announce n).Abides ending p fun _ q => q = p := Turn.abides_say trivial

theorem abides_remark (rs : List Remark) (p : Player F) :
    (remark rs).Abides ending p fun _ q => q = p := by
  induction rs with
  | nil => exact (rfl : p = p)
  | cons r rs ih =>
    refine Turn.Abides.bind (Turn.abides_say trivial) fun _ q hq => ?_
    obtain rfl : q = p := hq
    exact ih

theorem continues_lift (r : Except Overlong α) (hp : p.phase ≠ .ended) :
    Continues (lift r) p := by
  cases r with
  | ok a => exact hp
  | error e => exact Turn.abides_fail _ fun hended => absurd hended hp

theorem continues_applyChanges (es : List Text) (hp : p.phase ≠ .ended) :
    Continues (applyChanges es) p := by
  rw [Continues, applyChanges]
  split
  · exact hp
  · refine Turn.Abides.get_bind (Turn.Abides.modify_bind ?_)
    refine Turn.Abides.bind (abides_remark _ _) fun _ q hq => ?_
    have hopen : q.phase ≠ .ended := hq ▸ hp
    refine Turn.Abides.bind (continues_lift _ hopen) fun applied q hq => ?_
    split
    · exact hq
    · exact (abides_announce _ q).mono fun _ r hr => hr ▸ hq

/-! ### Turns that may end a conversation -/

variable [Tempo F]

theorem ends_finish (why : EndReason) (p : Player F) : Ends (finish why) p := by
  rw [Ends, finish]
  refine Turn.Abides.modify_bind (Turn.Abides.get_bind ?_)
  refine Turn.Abides.bind (abides_announce _ _) fun _ q hq => ?_
  rw [hq]
  exact Turn.Abides.modify_bind fun _ => ⟨rfl, rfl, rfl⟩

theorem ends_presentLine (n : Node) (p : Player F) : Ends (presentLine n) p := by
  rw [Ends, presentLine]
  refine Turn.Abides.modify_bind (Turn.Abides.get_bind ?_)
  refine Turn.Abides.bind (abides_announce _ _) fun _ q hq => ?_
  rw [hq]
  exact Turn.Abides.modify_bind nofun

theorem ends_presentChoices (cs : List Choice) (p : Player F) : Ends (presentChoices cs) p := by
  rw [Ends, presentChoices]
  refine Turn.Abides.modify_bind (Turn.Abides.get_bind ?_)
  refine Turn.Abides.bind (abides_remark _ _) fun _ q hq => ?_
  have hchoosing : q.phase ≠ .ended := by simp [hq]
  refine Turn.Abides.bind (continues_lift _ hchoosing) fun views q hq => ?_
  refine Turn.Abides.modify_bind (Turn.Abides.get_bind ?_)
  refine Turn.Abides.bind (abides_announce _ _) fun _ r hr => ?_
  rw [hr]
  exact Turn.Abides.modify_bind fun hended => absurd hended hq

theorem ends_settleOn (conversation : Text) (index : Nat) (n : Node) (hp : p.phase ≠ .ended) :
    Ends (settleOn conversation index n) p := by
  have hshown (q : Player F) :
      Ends (if n.offersChoices then presentChoices n.options else presentLine n) q := by
    split
    · exact ends_presentChoices _ q
    · exact ends_presentLine _ q
  rw [Ends, settleOn]
  refine Turn.Abides.modify_bind (Turn.Abides.get_bind ?_)
  simp only
  split
  · exact hshown _
  · refine Turn.Abides.modify_bind ?_
    exact Turn.Abides.bind (continues_applyChanges _ hp) fun _ q _ => hshown q

theorem ends_settleAmong (conversation : Text) (nodes : List Node) (hp : p.phase ≠ .ended) :
    Ends (settleAmong conversation nodes) p := by
  rw [Ends, settleAmong]
  refine Turn.Abides.get_bind (Turn.Abides.modify_bind ?_)
  refine Turn.Abides.bind (abides_remark _ _) fun _ q hq => ?_
  have hopen : q.phase ≠ .ended := hq ▸ hp
  refine Turn.Abides.bind (continues_lift _ hopen) fun found q hq => ?_
  cases found with
  | none => exact ends_finish _ q
  | some n => exact ends_settleOn _ _ n hq

theorem ends_settle (entering : Bool) (hp : p.phase ≠ .ended) : Ends (settle entering) p := by
  rw [Ends, settle]
  refine Turn.Abides.get_bind ?_
  simp only
  split
  · exact Turn.Abides.bind (abides_remark _ p) fun _ q _ => ends_finish _ q
  · split
    · refine Turn.Abides.bind (abides_announce _ p) fun _ q hq => ?_
      exact ends_settleAmong _ _ (hq ▸ hp)
    · exact ends_settleAmong _ _ hp

theorem ends_advance (hp : p.phase = .ended → p.Closed) : Ends advance p := by
  have hsettled {q : Player F} (hq : q.phase ≠ .ended) :
      Ends (some <$> settle (!p.positioned)) q := Turn.Abides.map (ends_settle _ hq)
  rw [Ends, advance]
  refine Turn.Abides.get_bind ?_
  split
  · next hphase =>
    have hopen : p.phase ≠ .ended := by simp [hphase]
    simp only
    split
    · exact Turn.Abides.modify_bind (hsettled hopen)
    · exact hsettled hopen
  · exact hp

theorem ends_take (i : Nat) (c : Choice) (hp : p.phase ≠ .ended) : Ends (take i c) p := by
  rw [Ends, take]
  refine Turn.Abides.bind (continues_applyChanges _ hp) fun _ q _ => ?_
  refine Turn.Abides.bind (abides_announce _ q) fun _ r _ => ?_
  exact Turn.Abides.modify_bind (ends_settle _ (by simp))

theorem ends_select (index : Int) (hp : p.phase = .ended → p.Closed) :
    Ends (select index) p := by
  rw [Ends, select]
  refine Turn.Abides.get_bind ?_
  split
  · refine Turn.Abides.bind (abides_remark _ p) fun _ q hq => ?_
    refine Turn.Abides.bind (abides_announce _ q) fun _ r hr => ?_
    rw [hr, hq]
    exact hp
  · next hrefusal =>
    have hopen : p.phase ≠ .ended := by simp [(refusal?_eq_none_iff.mp hrefusal).1]
    split
    · exact Turn.abides_fail _ fun hended => absurd hended hopen
    · exact Turn.Abides.map (ends_take _ _ hopen)

/-- **Every move leaves a player closed whose conversation is over**, if it found it so. -/
theorem ends_move (m : Move F) (hp : p.phase = .ended → p.Closed) : Ends m.turn p := by
  have hreveal {reveal : Reveal F} (htext : reveal.text = p.reveal.text) :
      p.phase = .ended → Closed { p with reveal } := fun hended =>
    ⟨(hp hended).choices, (hp hended).shows.display, htext.trans (hp hended).shows.text⟩
  have hwritten (store : Store) : p.phase = .ended → Closed { p with store } := fun hended =>
    ⟨(hp hended).choices, (hp hended).shows.display, (hp hended).shows.text⟩
  cases m with
  | advance => exact Turn.Abides.map (ends_advance hp)
  | select index => exact Turn.Abides.map (ends_select index hp)
  | skip => exact hreveal rfl
  | tick dt =>
    rw [Ends, Move.turn]
    refine Turn.Abides.get_bind ?_
    split
    · exact Turn.abides_fail _ hp
    · next htick => exact hreveal (text_of_tick? htick)
  | setNumber | setFlag | clearStore => exact hwritten _

theorem closed_after (m : Move F) (hp : p.phase = .ended → p.Closed) :
    (p.after m).phase = .ended → (p.after m).Closed :=
  (ends_move m hp).keeps_alone (fun _ _ => rfl) fun _ => id

theorem closed_start (story : Story) (conversation : Text) (store : Store) (speed : F) :
    let p := start story conversation store speed
    p.phase = .ended → p.Closed := nofun

/-- **After every run** of every story: when the conversation is over, its end is on screen. -/
theorem closed_afterAll_start (story : Story) (conversation : Text) (store : Store) (speed : F)
    (ms : List (Move F)) :
    let p := (start story conversation store speed).afterAll ms
    p.phase = .ended → p.Closed :=
  afterAll_induction (P := fun p => p.phase = .ended → p.Closed) (fun _ m => closed_after m)
    (closed_start story conversation store speed) ms

end Parley.Player
