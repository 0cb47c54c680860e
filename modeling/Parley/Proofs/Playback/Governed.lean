import Parley.Proofs.Playback.Grounded
import Parley.Proofs.Playback.Interludes

/-!
# Invariants of a player among listeners that move it

Whoever is told something in the middle of a move may move the player, so little can be kept in the
middle of a move. What can be kept does not depend on what is on screen, on the store or on the
index, for these change on the way; it depends on the story, the conversation and the nodes that
were settled on.

`Governs` lists what is asked of such an invariant, and of what may be announced. Moves need nothing
else to keep it: the node that is settled on is fixed before anything is said, and it has passed.

## Main definitions

* `Player.Governs` — an invariant, and what may be announced under it

## Main results

* `Player.Governs.sound_move`, `Player.Governs.of_leads` — moves and runs of every story keep it
-/

namespace Parley.Player

variable {F α : Type} {story : Story}

/-- A node of the story that passes in some store, and where it is. -/
structure Passes (story : Story) (conversation : Text) (index : Nat) (n : Node) : Prop where
  node : story.node? conversation index = some n
  passable : Passable n

/-- An invariant that moves keep if listeners do, and what may be announced under it. Only the
story, the conversation and the nodes played matter to the invariant, and it survives settling on a
node that has passed and following a choice. -/
structure Governs (story : Story) (keeps : Player F → Prop) (allows : Player F → Notice → Prop) :
    Prop where
  story_eq {p : Player F} (hp : keeps p) : p.story = story
  scenery {p : Player F} (hp : keeps p) (store : Store) (reveal : Reveal F) (index : Nat)
    (phase : Phase) (positioned : Bool) (choices : List ChoiceView) (display : Option Display) :
    keeps { p with store, reveal, index, phase, positioned, choices, display }
  settles {p : Player F} (hp : keeps p) {conversation : Text} {index : Nat} {n : Node}
    (hn : Passes story conversation index n) :
    keeps { p with played := p.played ++ [(conversation, index)] }
  follows {p q : Player F} (hp : keeps p) {i : Nat} {c : Choice} (hchoice : p.choiceAt i = .ok c)
    (hq : keeps q) :
    keeps { q with conversation := c.target.getD q.conversation }
  entered {p : Player F} (hp : keeps p) (hexists : p.story.contains p.conversation = true) :
    allows p (.conversationEntered p.conversation)
  line {p : Player F} (hp : keeps p) {conversation : Text} {index : Nat} {n : Node}
    (hn : Passes story conversation index n) :
    allows p (.lineShown n.speaker n.text p.conversation p.index)
  choices {p : Player F} (hp : keeps p) {conversation : Text} {index : Nat} {n : Node}
    (hn : Passes story conversation index n) {s : Store} {views : List ChoiceView}
    (hviews : Appear s n.options views) : allows p (.choicesShown views p.conversation p.index)
  other {p : Player F} {n : Notice} (hn : n.kind = .conversationEnded ∨ n.kind = .variablesChanged ∨
    n.kind = .choiceSelected ∨ n.kind = .choiceRejected) : allows p n

/-- A notice that may be announced, or any remark. -/
def Permits (allows : Player F → Notice → Prop) (p : Player F) : Signal → Prop
  | .notice n => allows p n
  | .remark _ => True

/-- A turn that keeps an invariant, and announces only what it may, if listeners keep it too. -/
abbrev Keeps (keeps : Player F → Prop) (allows : Player F → Notice → Prop) (m : PlayerTurn F α)
    (p : Player F) : Prop :=
  m.Abides (.keeping Signal.isHeard keeps (Permits allows)) p fun _ => keeps

namespace Governs

variable {p q : Player F} {keeps : Player F → Prop} {allows : Player F → Notice → Prop}

theorem keeps_announce {n : Notice} (hn : allows p n) (hp : keeps p) :
    Keeps keeps allows (announce n) p :=
  Turn.Abides.mono (Turn.abides_say_keeping hn hp) fun _ _ h => h.1

theorem keeps_remark (rs : List Remark) (hp : keeps p) : Keeps keeps allows (remark rs) p := by
  induction rs generalizing p with
  | nil => exact hp
  | cons r rs ih =>
    have hpermits : Permits allows p (.remark r) := trivial
    exact Turn.Abides.bind (Turn.abides_say_keeping hpermits hp) fun _ _ hq => ih hq.1

theorem keeps_lift (r : Except Overlong α) (hp : keeps p) :
    (lift r : PlayerTurn F α).Abides (.keeping Signal.isHeard keeps (Permits allows)) p
      fun a q => r = .ok a ∧ keeps q := by
  cases r with
  | ok a => exact ⟨rfl, hp⟩
  | error e => exact Turn.abides_fail _ hp

variable (h : Governs story keeps allows)

include h

theorem keeps_applyChanges (es : List Text) (hp : keeps p) :
    Keeps keeps allows (applyChanges es) p := by
  rw [applyChanges]
  split
  · exact hp
  · refine Turn.Abides.get_bind (Turn.Abides.modify_bind ?_)
    have hwritten := h.scenery hp (Change.applyAll es p.store).1 p.reveal p.index p.phase
      p.positioned p.choices p.display
    refine Turn.Abides.bind (keeps_remark _ hwritten) fun _ q hq => ?_
    refine Turn.Abides.bind (keeps_lift _ hq) fun applied q hq => ?_
    split
    · exact hq.2
    · exact keeps_announce (h.other (.inr (.inl rfl))) hq.2

variable [Tempo F]

theorem keeps_present (d : Display) (hp : keeps p) : Keeps keeps allows (present d) p :=
  Turn.Abides.modify_bind (h.scenery hp p.store _ p.index p.phase p.positioned p.choices _)

theorem keeps_finish (why : EndReason) (hp : keeps p) : Keeps keeps allows (finish why) p := by
  rw [finish]
  refine Turn.Abides.modify_bind (Turn.Abides.get_bind ?_)
  have hended := h.scenery hp p.store p.reveal p.index .ended p.positioned [] p.display
  exact Turn.Abides.bind (keeps_announce (h.other (.inl rfl)) hended) fun _ _ hq =>
    h.keeps_present _ hq

theorem keeps_presentLine {conversation : Text} {index : Nat} {n : Node}
    (hn : Passes story conversation index n) (hp : keeps p) :
    Keeps keeps allows (presentLine n) p := by
  rw [presentLine]
  refine Turn.Abides.modify_bind (Turn.Abides.get_bind ?_)
  have hline := h.scenery hp p.store p.reveal p.index .atLine p.positioned [] p.display
  exact Turn.Abides.bind (keeps_announce (h.line hline hn) hline) fun _ _ hq => h.keeps_present _ hq

theorem keeps_presentChoices {conversation : Text} {index : Nat} {n : Node}
    (hn : Passes story conversation index n) (hp : keeps p) :
    Keeps keeps allows (presentChoices n.options) p := by
  rw [presentChoices]
  refine Turn.Abides.modify_bind (Turn.Abides.get_bind ?_)
  have hchoosing := h.scenery hp p.store p.reveal p.index .atChoice p.positioned p.choices p.display
  refine Turn.Abides.bind (keeps_remark _ hchoosing) fun _ q hq => ?_
  refine Turn.Abides.bind (keeps_lift _ hq) fun views q hq => ?_
  refine Turn.Abides.modify_bind (Turn.Abides.get_bind ?_)
  have hoffered := h.scenery hq.2 q.store q.reveal q.index q.phase q.positioned views q.display
  have hviews := h.choices hoffered hn (appear_of_viewsOf hq.1)
  exact Turn.Abides.bind (keeps_announce hviews hoffered) fun _ _ hq => h.keeps_present _ hq

theorem keeps_settleOn {conversation : Text} {index : Nat} {n : Node}
    (hn : Passes story conversation index n) (hp : keeps p) :
    Keeps keeps allows (settleOn conversation index n) p := by
  have hshown {q : Player F} (hq : keeps q) :
      Keeps keeps allows
        (if n.offersChoices then presentChoices n.options else presentLine n) q := by
    split
    · exact h.keeps_presentChoices hn hq
    · exact h.keeps_presentLine hn hq
  rw [settleOn]
  refine Turn.Abides.modify_bind (Turn.Abides.get_bind ?_)
  have hpositioned := h.scenery hp p.store p.reveal p.index p.phase true p.choices p.display
  simp only
  split
  · exact hshown hpositioned
  · refine Turn.Abides.modify_bind ?_
    exact Turn.Abides.bind (h.keeps_applyChanges _ (h.settles hpositioned hn)) fun _ _ hq =>
      hshown hq

theorem keeps_settleAmong {nodes : List Node} (hget : p.story.get? p.conversation = some nodes)
    (hnodes : q.story = p.story) (hq : keeps q) :
    Keeps keeps allows (settleAmong p.conversation nodes) q := by
  rw [settleAmong]
  refine Turn.Abides.get_bind (Turn.Abides.modify_bind ?_)
  have hfound := h.scenery hq q.store q.reveal (scan q.store q.index (nodes.drop q.index)).1 q.phase
    q.positioned q.choices q.display
  refine Turn.Abides.bind (keeps_remark _ hfound) fun _ r hr => ?_
  refine Turn.Abides.bind (keeps_lift _ hr) fun found r hr => ?_
  cases found with
  | none => exact h.keeps_finish _ hr.2
  | some n =>
    obtain ⟨j, hk, hn, hpass⟩ := exists_of_scan (Prod.ext rfl hr.1)
    rw [List.getElem?_drop, ← hk] at hn
    refine h.keeps_settleOn ⟨?_, hpass⟩ hr.2
    rw [← h.story_eq hq, hnodes]
    simp only [Story.node?, hget, hn, Option.bind_some, Option.bind_eq_bind]

theorem keeps_settle (entering : Bool) (hp : keeps p) :
    Keeps keeps allows (settle entering) p := by
  rw [settle]
  refine Turn.Abides.get_bind ?_
  simp only
  split
  · exact Turn.Abides.bind (keeps_remark _ hp) fun _ _ hq => h.keeps_finish _ hq
  · next hget =>
    have hsettled {q : Player F} (hq : keeps q) :=
      h.keeps_settleAmong hget ((h.story_eq hq).trans (h.story_eq hp).symm) hq
    split
    · have hexists : p.story.contains p.conversation = true := by
        rw [Table.contains, hget, Option.isSome_some]
      exact Turn.Abides.bind (keeps_announce (h.entered hp hexists) hp) fun _ _ hq => hsettled hq
    · exact hsettled hp

theorem keeps_advance (hp : keeps p) : Keeps keeps allows advance p := by
  have hsettled {q : Player F} (hq : keeps q) :
      Keeps keeps allows (some <$> settle (!p.positioned)) q :=
    Turn.Abides.map (h.keeps_settle _ hq)
  rw [advance]
  refine Turn.Abides.get_bind ?_
  split
  · simp only
    split
    · exact Turn.Abides.modify_bind (hsettled
        (h.scenery hp p.store p.reveal (p.index + 1) p.phase p.positioned p.choices p.display))
    · exact hsettled hp
  · exact hp

/-- The player may have been moved by the time it follows the choice. -/
theorem keeps_take {i : Nat} {c : Choice} (hchoice : p.choiceAt i = .ok c) (hp : keeps p) :
    Keeps keeps allows (take i c) p := by
  rw [take]
  refine Turn.Abides.bind (h.keeps_applyChanges _ hp) fun _ q hq => ?_
  refine Turn.Abides.bind (keeps_announce (h.other (.inr (.inr (.inl rfl)))) hq) fun _ r hr => ?_
  refine Turn.Abides.modify_bind (h.keeps_settle _ ?_)
  exact h.scenery (h.follows hp hchoice hr) r.store r.reveal 0 .atLine r.positioned [] r.display

theorem keeps_select (index : Int) (hp : keeps p) : Keeps keeps allows (select index) p := by
  rw [select]
  refine Turn.Abides.get_bind ?_
  split
  · refine Turn.Abides.bind (keeps_remark _ hp) fun _ q hq => ?_
    exact Turn.Abides.bind (keeps_announce (h.other (.inr (.inr (.inr rfl)))) hq) fun _ _ hr => hr
  · split
    · exact Turn.abides_fail _ hp
    · next hchoice => exact Turn.Abides.map (h.keeps_take hchoice hp)

/-- **Every move of every story keeps what governs it**, among listeners that do. -/
theorem sound_move (m : Move F) (hp : keeps p) : Scene.Sound keeps (Permits allows) (m.turn p) := by
  show Keeps keeps allows m.turn p
  cases m with
  | advance => exact Turn.Abides.map (h.keeps_advance hp)
  | select index => exact Turn.Abides.map (h.keeps_select index hp)
  | skip => exact h.scenery hp p.store _ p.index p.phase p.positioned p.choices p.display
  | tick dt =>
    rw [Move.turn]
    refine Turn.Abides.get_bind ?_
    split
    · exact Turn.abides_fail _ hp
    · exact h.scenery hp p.store _ p.index p.phase p.positioned p.choices p.display
  | setNumber | setFlag | clearStore =>
    exact h.scenery hp _ p.reveal p.index p.phase p.positioned p.choices p.display

/-- **And so does every run**, whatever listeners do in the middle of its moves. -/
theorem of_leads (hp : keeps p) {ns : List Notice} {b : Scene F}
    (hrun : Scene.Leads (.acting p []) ns b) :
    b.Upholds keeps (Permits allows) ∧ ∀ n ∈ ns, ∃ q, allows q n :=
  hrun.allowed (fun m _ hq => h.sound_move m hq) ⟨hp, nofun⟩

end Governs

end Parley.Player
