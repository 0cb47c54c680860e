import Parley.Proofs.Pacts
import Parley.Proofs.Playback.Coherence

/-!
# Listeners that write variables

A listener may write variables of the player whose move it hears of. The move goes on with the store
it finds: which nodes pass and which choices are unlocked is decided by what is written by then. So
it may come out otherwise than it does with nobody listening, but in the end the screen agrees with
the place all the same, and the move does not fail on the way.

Since such listeners leave everything but the store as it is, what each turn leaves is known up to
the store, and coherence is not about the store.

## Main definitions

* `Player.Rewritten` — a player but for its store
* `Player.writing` — the pact with listeners that write variables
* `Player.Landed` — a player that has something on screen, in agreement with its place

## Main results

* `Player.withstands_settle` — settling among such listeners
* `Player.withstands_advance`, `Player.withstands_select`
-/

namespace Parley.Player

variable {F α : Type} {p q r : Player F} {story : Story}

/-- The same player, but for its store. -/
def Rewritten (p q : Player F) : Prop := ∃ store, q = { p with store }

theorem Rewritten.refl (p : Player F) : p.Rewritten p := ⟨p.store, rfl⟩

theorem Rewritten.trans (h : p.Rewritten q) (h' : q.Rewritten r) : p.Rewritten r := by
  obtain ⟨_, rfl⟩ := h
  obtain ⟨store, rfl⟩ := h'
  exact ⟨store, rfl⟩

section Rewritten

variable (h : p.Rewritten q)

include h

theorem Rewritten.story_eq : q.story = p.story := by
  obtain ⟨_, rfl⟩ := h
  rfl

theorem Rewritten.conversation_eq : q.conversation = p.conversation := by
  obtain ⟨_, rfl⟩ := h
  rfl

theorem Rewritten.index_eq : q.index = p.index := by
  obtain ⟨_, rfl⟩ := h
  rfl

theorem Rewritten.positioned_eq : q.positioned = p.positioned := by
  obtain ⟨_, rfl⟩ := h
  rfl

theorem Rewritten.hasExecuted_eq (conversation : Text) (index : Nat) (n : Node) :
    q.hasExecuted conversation index n = p.hasExecuted conversation index n := by
  obtain ⟨_, rfl⟩ := h
  rfl

/-- Offering choices is the same for both. -/
theorem Rewritten.offered (views : List ChoiceView) :
    Rewritten { p with choices := views } { q with choices := views } := by
  obtain ⟨store, rfl⟩ := h
  exact ⟨store, rfl⟩

/-- Presenting something is the same for both. -/
theorem Rewritten.presented [Tempo F] (d : Display) :
    Rewritten { p with display := some d, reveal := p.reveal.start d.text }
      { q with display := some d, reveal := q.reveal.start d.text } := by
  obtain ⟨store, rfl⟩ := h
  exact ⟨store, rfl⟩

end Rewritten

/-- The pact of a player that goes on whenever variables are written, and does not fail. -/
def writing : Pact (Player F) Signal where
  allows _ _ := True
  leaves p _ q := p.Rewritten q
  fails _ := False

/-- A turn that does not fail while variables are written, and makes something true. -/
abbrev Withstands (m : PlayerTurn F α) (p : Player F) (Q : α → Player F → Prop) : Prop :=
  m.Abides writing p Q

/-! ### Turns that leave the place as it is -/

theorem withstands_announce (n : Notice) (p : Player F) :
    Withstands (announce n) p fun _ q => p.Rewritten q := Turn.abides_say trivial

theorem withstands_remark (rs : List Remark) (p : Player F) :
    Withstands (remark rs) p fun _ q => p.Rewritten q := by
  induction rs generalizing p with
  | nil => exact .refl p
  | cons r rs ih =>
    refine Turn.Abides.bind (Turn.abides_say trivial) fun _ q (hq : p.Rewritten q) => ?_
    exact (ih q).mono fun _ _ hr => hq.trans hr

theorem withstands_lift (a : α) (p : Player F) :
    Withstands (lift (.ok a)) p fun b q => q = p ∧ b = a := ⟨rfl, rfl⟩

theorem withstands_applyChanges {es : List Text} (h : ∀ e ∈ es, e.hasOverlongValue = false)
    (p : Player F) : Withstands (applyChanges es) p fun _ q => p.Rewritten q := by
  rw [applyChanges]
  split
  · exact .refl p
  · refine Turn.Abides.get_bind ?_
    simp only [Change.applyAll_of_readable p.store h]
    refine Turn.Abides.modify_bind (Turn.Abides.bind (withstands_remark _ _) fun _ q hq => ?_)
    have hwritten : p.Rewritten q := Rewritten.trans ⟨_, rfl⟩ hq
    refine Turn.Abides.bind (withstands_lift _ q) fun applied r hr => ?_
    obtain ⟨rfl, -⟩ := hr
    split
    · exact hwritten
    · exact (withstands_announce _ r).mono fun _ _ h => hwritten.trans h

/-! ### Turns that show something -/

variable [Tempo F]

theorem withstands_finish (why : EndReason) (p : Player F) :
    Withstands (finish why) p fun _ q =>
      (p.showing .ended [] (.ended p.conversation)).Rewritten q := by
  rw [finish]
  refine Turn.Abides.modify_bind (Turn.Abides.get_bind ?_)
  refine Turn.Abides.bind (withstands_announce _ _) fun _ q hq => ?_
  exact Turn.Abides.modify_bind (hq.presented _)

theorem withstands_presentLine (n : Node) (p : Player F) :
    Withstands (presentLine n) p fun _ q =>
      (p.showing .atLine [] (.line n.speaker n.text)).Rewritten q := by
  rw [presentLine]
  refine Turn.Abides.modify_bind (Turn.Abides.get_bind ?_)
  refine Turn.Abides.bind (withstands_announce _ _) fun _ q hq => ?_
  exact Turn.Abides.modify_bind (hq.presented _)

theorem withstands_presentChoices {cs : List Choice} (h : ∀ c ∈ cs, c.Readable) (p : Player F) :
    Withstands (presentChoices cs) p fun _ q =>
      (p.showing .atChoice (viewsIn p.store cs) (.choices (viewsIn p.store cs))).Rewritten q := by
  rw [presentChoices]
  refine Turn.Abides.modify_bind (Turn.Abides.get_bind ?_)
  rw [viewsOf_of_readable p.store h]
  refine Turn.Abides.bind (withstands_remark _ _) fun _ q hq => ?_
  refine Turn.Abides.bind (withstands_lift _ q) fun views r hr => ?_
  obtain ⟨rfl, rfl⟩ := hr
  refine Turn.Abides.modify_bind (Turn.Abides.get_bind ?_)
  refine Turn.Abides.bind (withstands_announce _ _) fun _ r hr => ?_
  have hoffered : Rewritten { p with phase := .atChoice, choices := viewsIn p.store cs } r :=
    (hq.offered _).trans hr
  exact Turn.Abides.modify_bind (hoffered.presented _)

theorem withstands_present_node {n : Node} (h : n.Readable) (p : Player F) :
    Withstands (if n.offersChoices then presentChoices n.options else presentLine n) p fun _ q =>
      (p.onNode n).Rewritten q := by
  rw [onNode, displayOf]
  cases n.offersChoices
  · exact withstands_presentLine n p
  · exact withstands_presentChoices h.options p

/-- The changes of a node are applied before it is shown, and then its choices are decided in
whatever store there is. -/
theorem withstands_settleOn {n : Node} (h : n.Readable) (conversation : Text) (index : Nat)
    (p : Player F) :
    Withstands (settleOn conversation index n) p fun _ q =>
      ∃ r, (p.settledAt conversation index n).Rewritten r ∧ (r.onNode n).Rewritten q := by
  rw [settleOn, settledAt]
  refine Turn.Abides.modify_bind (Turn.Abides.get_bind ?_)
  have hsame : ({ p with positioned := true } : Player F).hasExecuted conversation index n
      = p.hasExecuted conversation index n := rfl
  rw [hsame]
  cases p.hasExecuted conversation index n
  · refine Turn.Abides.modify_bind ?_
    refine Turn.Abides.bind (withstands_applyChanges h.changes _) fun _ r hr => ?_
    refine (withstands_present_node h r).mono fun _ q hq => ⟨r, ?_, hq⟩
    obtain ⟨store, rfl⟩ := hr
    exact ⟨store, rfl⟩
  · exact (withstands_present_node h _).mono fun _ q hq => ⟨_, .refl _, hq⟩

/-! ### Settling -/

/-- The player has something on screen, and the screen agrees with the place. -/
structure Landed (story : Story) (p : Player F) : Prop where
  story_eq : p.story = story
  coherent : p.Coherent
  shows : ∃ d, p.Shows d

omit [Tempo F] in
theorem Landed.rewritten (h : p.Landed story) (hq : p.Rewritten q) : q.Landed story := by
  obtain ⟨store, rfl⟩ := hq
  obtain ⟨d, hd⟩ := h.shows
  exact ⟨h.story_eq, h.coherent.of_scenery store rfl, d, hd.display, hd.text⟩

theorem landed_showing_ended (h : p.story = story) :
    (p.showing .ended [] (.ended p.conversation)).Landed story :=
  ⟨h, coherent_showing_ended p, _, rfl, rfl⟩

theorem landed_onNode {n : Node} (h : p.story = story)
    (hnode : p.story.node? p.conversation p.index = some n) (hpositioned : p.positioned = true)
    (hexecuted : p.hasExecuted p.conversation p.index n = true) : (p.onNode n).Landed story := by
  refine ⟨?_, coherent_onNode hnode hpositioned hexecuted, displayOf p.store n, ?_⟩
  · rw [onNode]
    split <;> exact h
  · rw [onNode]
    split <;> exact ⟨rfl, rfl⟩

theorem withstands_settleAmong (hread : story.Readable) (hp : p.story = story) {nodes : List Node}
    (hget : p.story.get? p.conversation = some nodes) :
    Withstands (settleAmong p.conversation nodes) p fun _ q => q.Landed story := by
  have hnodes : ∀ n ∈ nodes, n.Readable := readable_of_get? (hp ▸ hread) hget
  have hdrop : ∀ n ∈ nodes.drop p.index, n.Readable := fun n hn =>
    hnodes n (List.mem_of_mem_drop hn)
  rw [settleAmong]
  refine Turn.Abides.get_bind ?_
  simp only [scan_of_readable p.store p.index hdrop]
  refine Turn.Abides.modify_bind (Turn.Abides.bind (withstands_remark _ _) fun _ q hq => ?_)
  refine Turn.Abides.bind (withstands_lift _ q) fun found q' hq' => ?_
  obtain ⟨rfl, rfl⟩ := hq'
  have hstory : q'.story = story := hq.story_eq.trans hp
  rcases hfind : (nodes.drop p.index).find? (passes p.store) with _ | n
  · exact (withstands_finish .finished q').mono fun _ _ hr =>
      (landed_showing_ended hstory).rewritten hr
  · obtain ⟨hk, -, -⟩ := first_passing hfind
    have hn : n.Readable := hnodes n (List.mem_of_getElem? hk)
    refine (withstands_settleOn hn _ _ q').mono fun _ q hq'' => ?_
    obtain ⟨r, hr, hshown⟩ := hq''
    -- the place that was settled on is still the place of the player
    have hplace : r.conversation = p.conversation ∧
        r.index = p.index + (nodes.drop p.index).findIdx (passes p.store) := by
      rw [hr.conversation_eq, hr.index_eq, settledAt_conversation, settledAt_index]
      exact ⟨hq.conversation_eq, hq.index_eq⟩
    have hplaced : r.story = story := by rw [hr.story_eq, settledAt_story, hstory]
    refine (landed_onNode hplaced ?_ ?_ ?_).rewritten hshown
    · rw [hplaced, hplace.1, hplace.2, ← hp, Story.node?, hget]
      exact hk
    · rw [hr.positioned_eq, settledAt_positioned]
    · rw [hplace.1, hplace.2, hr.hasExecuted_eq, hasExecuted_settledAt]

theorem withstands_settle (hread : story.Readable) (hp : p.story = story) (entering : Bool) :
    Withstands (settle entering) p fun _ q => q.Landed story := by
  rw [settle]
  refine Turn.Abides.get_bind ?_
  simp only
  split
  · refine Turn.Abides.bind (withstands_remark _ p) fun _ q hq => ?_
    exact (withstands_finish .missing q).mono fun _ _ hr =>
      (landed_showing_ended (hq.story_eq.trans hp)).rewritten hr
  · next nodes hget =>
    split
    · refine Turn.Abides.bind (withstands_announce _ p) fun _ q hq => ?_
      rw [← hq.conversation_eq]
      refine withstands_settleAmong hread (hq.story_eq.trans hp) ?_
      rw [hq.story_eq, hq.conversation_eq, hget]
    · exact withstands_settleAmong hread hp hget

/-! ### Advancing and selecting -/

omit [Tempo F] in
/-- A coherent player that is not at a line has something on screen. -/
theorem Coherent.landed (h : p.Coherent) (hp : p.story = story) (hphase : p.phase ≠ .atLine) :
    p.Landed story := by
  refine ⟨hp, h, ?_⟩
  cases h with
  | fresh phase => exact absurd phase hphase
  | atLine phase node executed line choices shows => exact ⟨_, shows⟩
  | atChoice phase node executed offers choices shows => exact ⟨_, shows⟩
  | ended phase node choices shows => exact ⟨_, shows⟩

/-- **Advancing among listeners that write variables** does not fail, and leaves something on
screen. -/
theorem withstands_advance (hread : story.Readable) (hp : p.story = story) (hcoherent : p.Coherent) :
    Withstands advance p fun _ q => q.Landed story := by
  have hsettled {q : Player F} (hq : q.story = story) :
      Withstands (some <$> settle (!p.positioned)) q fun _ q => q.Landed story :=
    Turn.Abides.map (withstands_settle hread hq _)
  rw [advance]
  refine Turn.Abides.get_bind ?_
  split
  · simp only
    split
    · exact Turn.Abides.modify_bind (hsettled hp)
    · exact hsettled hp
  · next hphase => exact hcoherent.landed hp hphase

theorem withstands_take (hread : story.Readable) (hp : p.story = story) {c : Choice}
    (hc : ∀ e ∈ c.changes, e.hasOverlongValue = false) (i : Nat) :
    Withstands (take i c) p fun _ q => q.Landed story := by
  rw [take]
  refine Turn.Abides.bind (withstands_applyChanges hc p) fun _ q hq => ?_
  refine Turn.Abides.bind (withstands_announce _ q) fun _ r hr => ?_
  refine Turn.Abides.modify_bind (withstands_settle hread ?_ true)
  exact (hq.trans hr).story_eq.trans hp

/-- **Selecting among listeners that write variables** does not fail. It is refused and leaves
everything else as it is, or leaves something on screen. -/
theorem withstands_select (hread : story.Readable) (hp : p.story = story) (hcoherent : p.Coherent)
    (index : Int) :
    Withstands (select index) p fun d q =>
      d = none ∧ p.Rewritten q ∨ d.isSome = true ∧ q.Landed story := by
  rw [select]
  refine Turn.Abides.get_bind ?_
  split
  · refine Turn.Abides.bind (withstands_remark _ p) fun _ q hq => ?_
    exact Turn.Abides.bind (withstands_announce _ q) fun _ r hr => .inl ⟨rfl, hq.trans hr⟩
  · next hrefusal =>
    obtain ⟨n, c, hnode, hc, hchoice⟩ := hcoherent.exists_choiceAt hrefusal
    rw [hchoice]
    have hreadable : c.Readable := readable_of_currentNode? (hp ▸ hread) hnode c hc
    exact Turn.Abides.map ((withstands_take hread hp hreadable.changes _).mono fun _ _ hq =>
      .inr ⟨rfl, hq⟩)

end Parley.Player
