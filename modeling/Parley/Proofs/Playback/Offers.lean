import Parley.Proofs.Playback.Landing
import Parley.Proofs.Playback.Visits
import Parley.Reveal.Amount

/-!
# Offers are kept

Which choices are unlocked is decided when they are shown, and enforced when one is selected. In
between the host may write variables, advance to no effect and try choices that are locked. None of
that changes what is on offer, so what was displayed is what is enforced.

A selection is refused for what is on screen alone. A refused one leaves the player as it is, and
one that is taken applies the changes of its choice before anything else is asked of the store.

## Main definitions

* `Player.Opens` — choices come on screen
* `Player.Unmoved` — the same choices are on screen
* `Player.followed` — where a choice that is taken leads

## Main results

* `Player.Step.opens`, `Player.Step.unmoved` — what a step does to what is on offer
* `Player.offered_is_enforced` — after every run
-/

namespace Parley.Player

variable {F : Type} {p q : Player F} {os : List Signal} {views : List ChoiceView}
  {id : Text} {k : Nat}

/-! ### Choices come on screen -/

/-- The store in which a move evaluates the conditions of nodes: changes of a choice that it takes
are made before. -/
def sought (p : Player F) : Move F → Store
  | .select index =>
    match p.choiceAt index.toNat with
    | .ok c => changed p.store c.changes
    | .error _ => p.store
  | _ => p.store

/-- Choices come on screen: they are those of the node that the second player has settled on. Its
own changes come first, when it is settled on for the first time, and then the conditions of its
choices are evaluated. -/
structure Opens (s : Store) (p q : Player F) (views : List ChoiceView) : Prop where
  phase : q.phase = .atChoice
  choices : q.choices = views
  node : ∃ n, q.story.node? q.conversation q.index = some n ∧ n.offersChoices = true ∧
    q.store = (if p.hasExecuted q.conversation q.index n then s else changed s n.changes) ∧
    Appear q.store n.options views

/-- The player that has taken a choice and looks for a node: the changes of the choice are made, and
the search begins at the first node of its target, or of the same conversation if it has none. -/
def followed (p : Player F) (c : Choice) : Player F :=
  { p with
    store := changed p.store c.changes
    conversation := c.target.getD p.conversation
    index := 0
    phase := .atLine
    choices := [] }

/-- The place of the player and its screen are the same. -/
structure Unmoved (p q : Player F) : Prop where
  phase : q.phase = p.phase
  choices : q.choices = p.choices
  display : q.display = p.display
  conversation : q.conversation = p.conversation
  index : q.index = p.index

theorem Unmoved.refl (p : Player F) : Unmoved p p := ⟨rfl, rfl, rfl, rfl, rfl⟩

theorem Unmoved.trans {r : Player F} (h : Unmoved p q) (h' : Unmoved q r) : Unmoved p r :=
  ⟨h'.phase.trans h.phase, h'.choices.trans h.choices, h'.display.trans h.display,
    h'.conversation.trans h.conversation, h'.index.trans h.index⟩

/-- A player that lands with choices on screen has opened them. -/
theorem Lands.opens (h : Lands p q (some (.choicesShown views id k))) (hstory : q.story = p.story) :
    q.conversation = id ∧ q.index = k ∧ Opens p.store p q views := by
  generalize hlast : some (Notice.choicesShown views id k) = last at h
  cases h with
  | missing | finished => cases hlast
  | @shown nodes j n hget hfirst hstands =>
    have hshown := Option.some.inj hlast
    rw [shownLast] at hshown
    split at hshown
    · next hoffers =>
      obtain ⟨rfl, rfl, rfl⟩ := Notice.choicesShown.inj hshown
      obtain ⟨hphase, happear, -⟩ := hstands.choices hoffers
      have hnode : q.story.node? q.conversation q.index = some n := by
        rw [hstory, hstands.conversation, hstands.index]
        simp [Story.node?, hget, hfirst.node]
      refine ⟨rfl, rfl, hphase, rfl, n, hnode, hoffers, ?_, happear⟩
      rw [hstands.store, hstands.conversation, hstands.index]
    · cases hshown

/-- A player that lands with choices on screen has announced them. -/
theorem Lands.exists_of_phase {last : Option Notice} (h : Lands p q last)
    (hphase : q.phase = .atChoice) : ∃ views id k, last = some (.choicesShown views id k) := by
  cases h with
  | missing hget hover | finished hget hnone hover =>
    exact absurd (hphase.symm.trans hover.phase) (by decide)
  | @shown nodes j n hget hfirst hstands =>
    cases hoffers : n.offersChoices with
    | true => exact ⟨q.choices, q.conversation, q.index, by rw [shownLast, hoffers, if_pos rfl]⟩
    | false => exact absurd (hphase.symm.trans (hstands.line hoffers).1) (by decide)

theorem not_choicesShown_of_mem_notices {es : List Text} :
    .choicesShown views id k ∉ Change.notices es := by
  rw [Change.notices]
  split <;> simp

variable [Tempo F]

/-- Settling announces choices last. -/
theorem Settles.getLast?_of_mem {entering : Bool} {d : Display} (h : Settles p entering os q d)
    (hmem : .choicesShown views id k ∈ noticesIn os) :
    (noticesIn os).getLast? = some (.choicesShown views id k) := by
  cases h with
  | missing => simp at hmem
  | finished => cases entering <;> simp at hmem
  | @shown nodes j n =>
    have hentered : Notice.choicesShown views id k ∉
        if entering then [.conversationEntered p.conversation] else [] := by
      split <;> simp
    have hchanges : Notice.choicesShown views id k ∉
        if p.hasExecuted p.conversation j n then [] else Change.notices n.changes := by
      split
      · exact List.not_mem_nil
      · exact not_choicesShown_of_mem_notices
    simp only [noticesIn_append, noticesIn_enteringSignals, noticesIn_map_remark, List.nil_append,
      noticesIn_settlingSignals, noticesIn_showingSignals, List.mem_append, hentered, hchanges,
      false_or, List.mem_singleton] at hmem ⊢
    rw [← hmem, ← List.append_assoc, List.getLast?_concat]

/-- **A step that announces choices opens them**, in the store in which it looked for the node. -/
theorem Step.opens {m : Move F} {r : Except PlayFault Answer} (h : Step p m os q r)
    (hread : p.story.Readable) (hmem : .choicesShown views id k ∈ noticesIn os) :
    q.conversation = id ∧ q.index = k ∧ Opens (sought p m) p q views := by
  cases h with
  | idle | skipped | ticked | overrun | written => cases hmem
  | rejected => simp at hmem
  | next hphase hsettles =>
    have hforward : p.forward.story.Readable := by rwa [forward_story]
    have hlands := hsettles.lands hforward
    rw [hsettles.getLast?_of_mem hmem] at hlands
    obtain ⟨hid, hk, hopens⟩ := hlands.opens hsettles.story
    have hnode := hopens.node
    simp only [hasExecuted_forward, forward_store] at hnode
    exact ⟨hid, hk, hopens.phase, hopens.choices, hnode⟩
  | @taken index c rest _ d hrefusal hchoice hsettles =>
    have hrest : .choicesShown views id k ∈ noticesIn rest := by
      rw [noticesIn_append, noticesIn_signals, noticesIn_cons_notice, List.mem_append,
        List.mem_cons] at hmem
      exact (hmem.resolve_left not_choicesShown_of_mem_notices).resolve_left nofun
    have hlands := hsettles.lands hread
    rw [hsettles.getLast?_of_mem hrest] at hlands
    obtain ⟨hid, hk, hopens⟩ := hlands.opens hsettles.story
    have hreadable : c.Readable := readable_of_choiceAt hread hchoice
    have hstore : (p.jump c).store = sought p (.select index) := by
      simp only [sought, hchoice]
      exact changed_eq hreadable.changes p.store
    rw [hstore] at hopens
    exact ⟨hid, hk, hopens.phase, hopens.choices, hopens.node⟩

/-! ### Choices stay on screen -/

theorem choiceSelected_mem_signals (c : Choice) (index : Int) (rest : List Signal) :
    .choiceSelected index c.text c.target ∈
      noticesIn (Change.signals c.changes ++ .notice (.choiceSelected index c.text c.target) ::
        rest) := by
  rw [noticesIn_append, noticesIn_cons_notice]
  exact List.mem_append_right _ List.mem_cons_self

/-- **A step that selects nothing leaves the choices on screen.** -/
theorem Step.unmoved {m : Move F} {r : Except PlayFault Answer} (h : Step p m os q r)
    (hphase : p.phase = .atChoice)
    (hselected : ∀ i text target, .choiceSelected i text target ∉ noticesIn os) : Unmoved p q := by
  cases h with
  | idle | rejected | overrun => exact .refl p
  | skipped | ticked | written => exact ⟨rfl, rfl, rfl, rfl, rfl⟩
  | next hline => exact absurd (hphase.symm.trans hline) (by decide)
  | taken => exact absurd (choiceSelected_mem_signals _ _ _) (hselected _ _ _)

/-- Choices are on screen after a step only if they were before, or the step announces them. -/
theorem Step.unmoved_or_shown {m : Move F} {r : Except PlayFault Answer} (h : Step p m os q r)
    (hread : p.story.Readable) (hphase : q.phase = .atChoice) :
    Unmoved p q ∨ ∃ views id k, .choicesShown views id k ∈ noticesIn os := by
  cases h with
  | idle | rejected | overrun => exact .inl (.refl p)
  | skipped | ticked | written => exact .inl ⟨rfl, rfl, rfl, rfl, rfl⟩
  | next _ hsettles =>
    have hforward : p.forward.story.Readable := by rwa [forward_story]
    obtain ⟨views, id, k, hlast⟩ := (hsettles.lands hforward).exists_of_phase hphase
    exact .inr ⟨views, id, k, List.mem_of_getLast? hlast⟩
  | @taken index c rest _ d hrefusal hchoice hsettles =>
    obtain ⟨views, id, k, hlast⟩ := (hsettles.lands hread).exists_of_phase hphase
    refine .inr ⟨views, id, k, ?_⟩
    rw [noticesIn_append, noticesIn_cons_notice]
    exact List.mem_append_right _ (List.mem_cons_of_mem _ (List.mem_of_getLast? hlast))

theorem unmoved_afterAll (hread : p.story.Readable) (hp : p.Coherent) (hphase : p.phase = .atChoice)
    {ms : List (Move F)}
    (hselected : ∀ i text target, .choiceSelected i text target ∉ record noticesOf p ms) :
    Unmoved p (p.afterAll ms) := by
  induction ms generalizing p with
  | nil => exact .refl p
  | cons m ms ih =>
    obtain ⟨os, q, r, halone, hstep⟩ := exists_step hread hp m
    have hafter : p.after m = q := by rw [after, halone]
    have hnotices : p.noticesOf m = noticesIn os := by rw [noticesOf, halone]
    simp only [record, hnotices, hafter, List.mem_append, not_or] at hselected
    have hunmoved := hstep.unmoved hphase fun i text target => (hselected i text target).1
    have hrest := ih (hstep.story ▸ hread) (hstep.coherent hp) (hunmoved.phase.trans hphase)
      fun i text target => (hselected i text target).2
    rw [afterAll, List.foldl_cons, hafter]
    exact hunmoved.trans hrest

/-! ### Selections -/

omit [Tempo F] in
/-- When a selection is refused. -/
theorem refusal?_ne_none_iff {index : Int} :
    p.refusal? index ≠ none ↔
      p.phase ≠ .atChoice ∨ index < 0 ∨ (p.choices.length : Int) ≤ index ∨
        ∃ v, p.choices[index.toNat]? = some v ∧ v.unlocked = false := by
  rw [Ne, refusal?_eq_none_iff]
  by_cases hphase : p.phase = .atChoice
  · by_cases hle : 0 ≤ index
    · have hpast : (p.choices.length : Int) ≤ index ↔ p.choices.length ≤ index.toNat := by omega
      rw [hpast, ← List.getElem?_eq_none_iff]
      rcases hview : p.choices[index.toNat]? with _ | v
      · simp [hphase]
      · simp [hphase, hle]
    · simp [hphase, hle, Int.not_le.mp hle]
  · simp [hphase]

/-- What becomes of a selection that is refused: nothing but the announcement. -/
theorem alone_select_of_refused {index : Int} {why : Refusal} (h : p.refusal? index = some why) :
    ((Move.select index).turn.alone p).2.2 = .ok (.display none) ∧ p.after (.select index) = p ∧
      p.noticesOf (.select index) = [.choiceRejected index why] := by
  have halone : (Move.select index).turn.alone p =
      ([.remark (.ignoredChoice index why), .notice (.choiceRejected index why)], p,
        .ok (.display none)) := by
    rw [Move.turn, Turn.alone_map, alone_select_of_refusal h]
    rfl
  rw [after, noticesOf, halone]
  exact ⟨rfl, rfl, rfl⟩

omit [Tempo F] in
theorem jump_eq_followed {c : Choice} (h : c.Readable) (p : Player F) : p.jump c = p.followed c := by
  rw [jump, followed, changed_eq h.changes]

/-- What becomes of a selection that is not refused: the choice is that of the current node, its
changes are made and the selection is announced, and then the player looks for a node in the target
from the first one on. It answers with what is on screen then. -/
theorem exists_select_of_taken (hread : p.story.Readable) (hp : p.Coherent) {index : Int}
    (h : p.refusal? index = none) :
    ∃ n c d rest, p.story.node? p.conversation p.index = some n ∧
      n.options[index.toNat]? = some c ∧
      ((Move.select index).turn.alone p).2.2 = .ok (.display (some d)) ∧
      (p.after (.select index)).Shows d ∧
      p.noticesOf (.select index) =
        Change.notices c.changes ++ .choiceSelected index c.text c.target :: rest ∧
      Lands (p.followed c) (p.after (.select index)) rest.getLast? := by
  obtain ⟨os, q, r, halone, hstep⟩ := exists_step hread hp (.select index)
  rw [after, noticesOf, halone]
  cases hstep with
  | rejected hrefusal => cases h.symm.trans hrefusal
  | written hwritten => cases hwritten
  | @taken _ c rest _ d _ hchoice hsettles =>
    obtain ⟨n, hnode, hc⟩ := getElem?_options_of_choiceAt hchoice
    have hreadable : c.Readable := readable_of_choiceAt hread hchoice
    have hlands := hsettles.lands hread
    rw [jump_eq_followed hreadable] at hlands
    exact ⟨n, c, d, noticesIn rest, hnode, hc, rfl, hsettles.shows.1,
      by rw [noticesIn_append, noticesIn_signals, noticesIn_cons_notice], hlands⟩

/-! ### All runs -/

/-- **What is displayed is what is enforced.** Whatever was done before, from the start of a
readable story: when choices come on screen, each is unlocked if its condition holds right after the
changes of their node, and they come on screen in no other way. They stay there, the same and with
the same locks, until one is selected, whatever the host writes. A selection is refused exactly when
there are no choices, the index is out of range or the choice is locked; then nothing is changed,
and the refusal is announced. Any other selection makes the changes of its choice before it looks
for the first node of the target whose condition holds. -/
theorem offered_is_enforced {story : Story} (hread : story.Readable) (conversation : Text)
    (store : Store) (speed : F) (ms : List (Move F)) :
    let p := (start story conversation store speed).afterAll ms
    (∀ m views id k, .choicesShown views id k ∈ p.noticesOf m →
      (p.after m).conversation = id ∧ (p.after m).index = k ∧
        Opens (p.sought m) p (p.after m) views) ∧
    (∀ m, (p.after m).phase = .atChoice →
      Unmoved p (p.after m) ∨ ∃ views id k, .choicesShown views id k ∈ p.noticesOf m) ∧
    (p.phase = .atChoice → ∀ ms',
      (∀ i text target, .choiceSelected i text target ∉ record noticesOf p ms') →
        Unmoved p (p.afterAll ms')) ∧
    ∀ index : Int,
      (((Move.select index).turn.alone p).2.2 = .ok (.display none) ↔
        p.phase ≠ .atChoice ∨ index < 0 ∨ (p.choices.length : Int) ≤ index ∨
          ∃ v, p.choices[index.toNat]? = some v ∧ v.unlocked = false) ∧
      (((Move.select index).turn.alone p).2.2 = .ok (.display none) →
        p.after (.select index) = p ∧
          ∃ why, p.noticesOf (.select index) = [.choiceRejected index why]) ∧
      (((Move.select index).turn.alone p).2.2 ≠ .ok (.display none) →
        ∃ n c d rest, p.story.node? p.conversation p.index = some n ∧
          n.options[index.toNat]? = some c ∧
          ((Move.select index).turn.alone p).2.2 = .ok (.display (some d)) ∧
          (p.after (.select index)).Shows d ∧
          p.noticesOf (.select index) =
            Change.notices c.changes ++ .choiceSelected index c.text c.target :: rest ∧
          Lands (p.followed c) (p.after (.select index)) rest.getLast?) := by
  intro p
  obtain ⟨hstory, hcoherent⟩ :=
    coherent_afterAll hread (coherent_start story conversation store speed) ms
  have hreadable : p.story.Readable := hstory ▸ hread
  refine ⟨fun m views id k hmem => ?_, fun m hphase => ?_, fun hphase ms' hselected => ?_,
    fun index => ?_⟩
  · obtain ⟨os, q, r, halone, hstep⟩ := exists_step hreadable hcoherent m
    rw [noticesOf, halone] at hmem
    rw [after, halone]
    exact hstep.opens hreadable hmem
  · obtain ⟨os, q, r, halone, hstep⟩ := exists_step hreadable hcoherent m
    rw [after, halone] at hphase ⊢
    rw [noticesOf, halone]
    exact hstep.unmoved_or_shown hreadable hphase
  · exact unmoved_afterAll hreadable hcoherent hphase hselected
  · rw [← refusal?_ne_none_iff]
    rcases hrefusal : p.refusal? index with _ | why
    · obtain ⟨n, c, d, rest, hnode, hc, hresult, htaken⟩ :=
        exists_select_of_taken hreadable hcoherent hrefusal
      rw [hresult]
      exact ⟨by simp, by simp, fun _ => ⟨n, c, d, rest, hnode, hc, rfl, htaken⟩⟩
    · obtain ⟨hresult, hafter, hnotices⟩ := alone_select_of_refused hrefusal
      rw [hresult]
      exact ⟨by simp, fun _ => ⟨hafter, why, hnotices⟩, fun hne => absurd rfl hne⟩

/-- One coin does not open the gate, and eight more do not unlock a choice that is on screen. -/
theorem offered_is_enforced_gate :
    gate.Readable ∧
      let p := (start gate "gate".toList .empty (Amount.whole 20)).afterAll [.advance, .advance]
      p.choices = [⟨"Pay".toList, false⟩, ⟨"Wait".toList, true⟩] ∧
        Unmoved p (p.afterAll [.setNumber "coins".toList 9, .select 0]) ∧
        p.after (.select 0) = p := by
  have hread : gate.Readable := by decide
  obtain ⟨-, -, hkept, hselect⟩ :=
    offered_is_enforced hread "gate".toList .empty (Amount.whole 20) [.advance, .advance]
  refine ⟨hread, by decide, hkept (by decide) _ fun i text target hmem => ?_, ?_⟩
  · have hrecord : record noticesOf
        ((start gate "gate".toList .empty (Amount.whole 20)).afterAll [.advance, .advance])
        [.setNumber "coins".toList 9, .select 0] = [.choiceRejected 0 .locked] := by decide
    rw [hrecord] at hmem
    simp at hmem
  · exact ((hselect 0).2.1 (by decide)).1

end Parley.Player
