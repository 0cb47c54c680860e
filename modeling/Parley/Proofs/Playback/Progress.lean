import Parley.Proofs.Playback.Landing
import Parley.Reveal.Amount

/-!
# Advancing makes progress

The index is moved in two places: a player that has settled somewhere steps over its node before it
looks for the next, and one that has not starts at the first. `nextIndex` is where the search begins
in either case.

Each advance of a player at a line ends at a later index, at choices or at the end. The conditions
of the nodes depend on a store that anybody may write, so nothing about the store can bound a run;
what does is the number of nodes from the next index on. It does not get larger until a choice is
taken, and every advance makes it smaller.

## Main definitions

* `Player.nextIndex` — where the next search begins
* `Player.Placed` — a player at a line is at a node, or before the first

## Main results

* `Player.Step.placed` — a step keeps a player placed
* `Player.Placed.lands_advance` — an advance finds the first node whose condition holds
* `Player.advances_to_first` — after every run, and how many advances are enough
-/

namespace Parley.Player

variable {F : Type} {p q : Player F} {os : List Signal} {nodes : List Node}

/-- Where the next search begins. -/
def nextIndex (p : Player F) : Nat := if p.positioned then p.index + 1 else 0

/-- At a line, a player is at a node of its conversation or has not settled yet. -/
structure Placed (p : Player F) : Prop where
  settled (hphase : p.phase = .atLine) (hpositioned : p.positioned = true) :
    ∃ n, p.story.node? p.conversation p.index = some n
  fresh (hphase : p.phase = .atLine) (hpositioned : p.positioned = false) : p.index = 0

theorem Placed.index_forward (h : p.Placed) (hphase : p.phase = .atLine) :
    p.forward.index = p.nextIndex := by
  rw [forward, nextIndex]
  split
  · rfl
  · next hpositioned => exact h.fresh hphase (Bool.eq_false_iff.mpr hpositioned)

/-- The search begins in the conversation, or right after it. -/
theorem Placed.nextIndex_le (h : p.Placed) (hphase : p.phase = .atLine)
    (hget : p.story.get? p.conversation = some nodes) : p.nextIndex ≤ nodes.length := by
  rw [nextIndex]
  split
  · next hpositioned =>
    obtain ⟨n, hnode⟩ := h.settled hphase hpositioned
    obtain ⟨nodes', hget', hn⟩ := Option.bind_eq_some_iff.mp hnode
    obtain rfl := Option.some.inj (hget'.symm.trans hget)
    exact (List.getElem?_eq_some_iff.mp hn).1
  · exact Nat.zero_le _

/-- Wherever a player lands, it is placed. -/
theorem Lands.placed {last : Option Notice} (h : Lands p q last) (hstory : q.story = p.story) :
    q.Placed := by
  cases h with
  | missing hget hover | finished hget hnone hover =>
    exact ⟨fun hphase => absurd (hphase.symm.trans hover.phase) (by decide),
      fun hphase => absurd (hphase.symm.trans hover.phase) (by decide)⟩
  | @shown nodes k n hget hfirst hstands =>
    refine ⟨fun _ _ => ⟨n, ?_⟩, fun _ hpositioned => ?_⟩
    · rw [hstory, hstands.conversation, hstands.index]
      simp [Story.node?, hget, hfirst.node]
    · exact absurd (hstands.positioned.symm.trans hpositioned) (by decide)

variable [Tempo F]

/-- **A step keeps a player placed.** -/
theorem Step.placed {m : Move F} {r : Except PlayFault Answer} (h : Step p m os q r)
    (hread : p.story.Readable) (hp : p.Placed) : q.Placed := by
  cases h with
  | idle | rejected | overrun => exact hp
  | skipped | ticked | written => exact ⟨hp.settled, hp.fresh⟩
  | next hphase hsettles =>
    have hforward : p.forward.story.Readable := by rwa [forward_story]
    exact (hsettles.lands hforward).placed hsettles.story
  | taken hrefusal hchoice hsettles => exact (hsettles.lands hread).placed hsettles.story

/-! ### One advance -/

/-- **An advance finds the first node whose condition holds**, or the end. -/
theorem Placed.lands_advance (hread : p.story.Readable) (hp : p.Placed) (hphase : p.phase = .atLine)
    (hget : p.story.get? p.conversation = some nodes) :
    (∃ d, (Move.advance.turn.alone p).2.2 = .ok (.display (some d)) ∧
      (p.after .advance).Shows d) ∧
      ((∃ k n, IsFirst p.store nodes p.nextIndex k n ∧ Stands p k n (p.after .advance) ∧
        (p.noticesOf .advance).getLast? = some (shownLast (p.after .advance) n)) ∨
      NoneFrom p.store nodes p.nextIndex ∧ IsOver p (p.after .advance) ∧
        (p.after .advance).index = nodes.length ∧
        (p.noticesOf .advance).getLast? = some (.conversationEnded p.conversation .finished)) := by
  have hforward : p.forward.story.Readable := by rwa [forward_story]
  have hindex := hp.index_forward hphase
  obtain ⟨os, q, d, halone, hsettles⟩ := exists_settles hforward (!p.positioned)
  have hturn : Move.advance.turn.alone p = (os, q, .ok (.display (some d))) := by
    rw [Move.turn, Turn.alone_map, alone_advance_of_atLine hphase, Turn.alone_map, halone]
    rfl
  have hlands := hsettles.lands hforward
  rw [after, noticesOf, hturn]
  refine ⟨⟨d, rfl, hsettles.shows.1⟩, ?_⟩
  generalize (noticesIn os).getLast? = last at hlands
  cases hlands with
  | missing hmissing =>
    rw [forward_story, forward_conversation] at hmissing
    cases hmissing.symm.trans hget
  | @finished nodes' hget' hnone hover hlast =>
    rw [forward_story, forward_conversation] at hget'
    obtain rfl := Option.some.inj (hget'.symm.trans hget)
    rw [forward_store, hindex] at hnone
    rw [hindex, max_eq_right (hp.nextIndex_le hphase hget)] at hlast
    exact .inr ⟨hnone, hover.of_forward, hlast, by rw [forward_conversation]⟩
  | @shown nodes' k n hget' hfirst hstands =>
    rw [forward_story, forward_conversation] at hget'
    obtain rfl := Option.some.inj (hget'.symm.trans hget)
    rw [forward_store, hindex] at hfirst
    exact .inl ⟨k, n, hfirst, hstands.of_forward, rfl⟩

/-! ### Several advances -/

omit [Tempo F] in
/-- Whether a move is an advance. -/
def Move.isAdvance : Move F → Bool
  | advance => true
  | _ => false

/-- Once at choices or at the end, a player is at a line again only when a choice is taken. -/
theorem Step.phase_ne {m : Move F} {r : Except PlayFault Answer} (h : Step p m os q r)
    (hm : ∀ j, m ≠ .select j) (hphase : p.phase ≠ .atLine) : q.phase ≠ .atLine := by
  cases h with
  | idle | overrun | skipped | ticked | written => exact hphase
  | rejected | taken => exact absurd rfl (hm _)
  | next hline => exact absurd hline hphase

/-- **A step that takes no choice makes progress.** If the player is at a line after it, the next
index has not become smaller, and it is larger after an advance. -/
theorem Step.progress {m : Move F} {r : Except PlayFault Answer} (h : Step p m os q r)
    (hread : p.story.Readable) (hp : p.Placed) (hm : ∀ j, m ≠ .select j)
    (hphase : p.phase = .atLine) (hphase' : q.phase = .atLine) :
    q.conversation = p.conversation ∧ p.nextIndex + [m].countP Move.isAdvance ≤ q.nextIndex := by
  cases h with
  | idle hne => exact absurd hphase hne
  | rejected | taken => exact absurd rfl (hm _)
  | overrun | skipped | ticked => exact ⟨rfl, Nat.le_refl _⟩
  | written hwritten =>
    cases m with
    | setNumber | setFlag | clearStore => exact ⟨rfl, Nat.le_refl _⟩
    | advance | select | skip | tick => cases hwritten
  | next _ hsettles =>
    have hforward : p.forward.story.Readable := by rwa [forward_story]
    have hlands := hsettles.lands hforward
    generalize (noticesIn os).getLast? = last at hlands
    cases hlands with
    | missing hget hover | finished hget hnone hover =>
      exact absurd (hphase'.symm.trans hover.phase) (by decide)
    | @shown nodes k n hget hfirst hstands =>
      have hstands := hstands.of_forward
      have hle := hfirst.le
      rw [hp.index_forward hphase] at hle
      refine ⟨hstands.conversation, ?_⟩
      rw [show q.nextIndex = k + 1 by rw [nextIndex, hstands.positioned, if_pos rfl, hstands.index]]
      exact Nat.succ_le_succ hle

/-- A player that is at a line after moves that take no choice was at a line before. -/
theorem phase_of_afterAll (hread : p.story.Readable) (hp : p.Coherent) {ms : List (Move F)}
    (hms : ∀ m ∈ ms, ∀ j, m ≠ .select j) (hphase : (p.afterAll ms).phase = .atLine) :
    p.phase = .atLine := by
  induction ms generalizing p with
  | nil => exact hphase
  | cons m ms ih =>
    obtain ⟨os, q, r, halone, hstep⟩ := exists_step hread hp m
    rw [List.forall_mem_cons] at hms
    rw [afterAll, List.foldl_cons, after, halone] at hphase
    have hq := ih (hstep.story ▸ hread) (hstep.coherent hp) hms.2 hphase
    by_contra hne
    exact hstep.phase_ne hms.1 hne hq

/-- **A player that is still at a line has not advanced further than its conversation goes.** -/
theorem nextIndex_add_le (hread : p.story.Readable) (hp : p.Coherent) (hplaced : p.Placed)
    (hget : p.story.get? p.conversation = some nodes) {ms : List (Move F)}
    (hms : ∀ m ∈ ms, ∀ j, m ≠ .select j) (hphase : (p.afterAll ms).phase = .atLine) :
    p.nextIndex + ms.countP Move.isAdvance ≤ nodes.length := by
  have hline := phase_of_afterAll hread hp hms hphase
  induction ms generalizing p with
  | nil => exact hplaced.nextIndex_le hline hget
  | cons m ms ih =>
    obtain ⟨os, q, r, halone, hstep⟩ := exists_step hread hp m
    rw [List.forall_mem_cons] at hms
    rw [afterAll, List.foldl_cons, after, halone] at hphase
    have hread' : q.story.Readable := hstep.story ▸ hread
    have hq : q.phase = .atLine := phase_of_afterAll hread' (hstep.coherent hp) hms.2 hphase
    obtain ⟨hconversation, hnext⟩ := hstep.progress hread hplaced hms.1 hline hq
    have hget' : q.story.get? q.conversation = some nodes := by
      rw [hstep.story, hconversation, hget]
    have hrest := ih hread' (hstep.coherent hp) (hstep.placed hread hplaced) hget' hms.2 hphase hq
    rw [← List.singleton_append, List.countP_append]
    omega

/-! ### All runs -/

theorem placed_start (story : Story) (conversation : Text) (store : Store) (speed : F) :
    (start story conversation store speed).Placed := ⟨nofun, fun _ _ => rfl⟩

theorem placed_afterAll (hread : p.story.Readable) (hp : p.Coherent) (hplaced : p.Placed)
    (ms : List (Move F)) : (p.afterAll ms).Placed := by
  induction ms generalizing p with
  | nil => exact hplaced
  | cons m ms ih =>
    obtain ⟨os, q, r, halone, hstep⟩ := exists_step hread hp m
    rw [afterAll, List.foldl_cons, after, halone]
    exact ih (hstep.story ▸ hread) (hstep.coherent hp) (hstep.placed hread hplaced)

/-- **The search shows the first node that passes, and makes progress.** Whatever was done before,
from the start of a readable story: at a line, in a conversation that exists, an advance ends at the
first node after the current one, or from the first on if there is none, whose condition holds in
the store as it is, or else at the end, with the index behind the last node. What it passes over it
neither executes nor lets change the store. The index gets larger, and as many advances as there are
nodes left, and one more at the start, lead to choices or to the end, whatever is written between
them. -/
theorem advances_to_first {story : Story} (hread : story.Readable) (conversation : Text)
    (store : Store) (speed : F) (ms : List (Move F)) {nodes : List Node} :
    let p := (start story conversation store speed).afterAll ms
    p.phase = .atLine → story.get? p.conversation = some nodes →
      (p.positioned = true → p.index < nodes.length ∧ p.index < (p.after .advance).index) ∧
      (∃ d, (Move.advance.turn.alone p).2.2 = .ok (.display (some d)) ∧
        (p.after .advance).Shows d) ∧
      ((∃ k n, IsFirst p.store nodes p.nextIndex k n ∧ Stands p k n (p.after .advance) ∧
        (p.noticesOf .advance).getLast? = some (shownLast (p.after .advance) n)) ∨
      NoneFrom p.store nodes p.nextIndex ∧ IsOver p (p.after .advance) ∧
        (p.after .advance).index = nodes.length ∧
        (p.noticesOf .advance).getLast? = some (.conversationEnded p.conversation .finished)) ∧
      ∀ ms' : List (Move F), (∀ m ∈ ms', ∀ j, m ≠ .select j) →
        nodes.length < p.nextIndex + ms'.countP Move.isAdvance →
          (p.afterAll ms').phase ≠ .atLine := by
  intro p hphase hget
  have hstart := coherent_start story conversation store speed
  obtain ⟨hstory, hcoherent⟩ := coherent_afterAll hread hstart ms
  have hreadable : p.story.Readable := hstory ▸ hread
  have hplaced : p.Placed :=
    placed_afterAll hread hstart (placed_start story conversation store speed) ms
  have hget' : p.story.get? p.conversation = some nodes := by
    rw [show p.story = story from hstory, hget]
  obtain ⟨hanswer, hlands⟩ := hplaced.lands_advance hreadable hphase hget'
  refine ⟨fun hpositioned => ?_, hanswer, hlands, fun ms' hms' hcount hline => ?_⟩
  · have hnext : p.nextIndex = p.index + 1 := if_pos hpositioned
    have hle := hplaced.nextIndex_le hphase hget'
    refine ⟨by omega, ?_⟩
    rcases hlands with ⟨k, n, hfirst, hstands, -⟩ | ⟨-, -, hindex, -⟩
    · have hfirst := hfirst.le
      rw [hstands.index]
      omega
    · rw [hindex]
      omega
  · have hle := nextIndex_add_le hreadable hcoherent hplaced hget' hms' hline
    omega

/-- Before the gate there are two nodes, so three advances lead somewhere else than to a line. -/
theorem advances_to_first_gate :
    gate.Readable ∧
      let p := start gate "gate".toList .empty (Amount.whole 20)
      p.phase = .atLine ∧ (gate.get? p.conversation).isSome = true ∧
        (p.afterAll [.advance, .clearStore, .advance, .setFlag "open".toList true,
          .advance]).phase ≠ .atLine := by
  have hread : gate.Readable := by decide
  have hget : gate.get? "gate".toList = some (gate.getD "gate".toList []) := by decide
  obtain ⟨-, -, -, hbound⟩ :=
    advances_to_first hread "gate".toList .empty (Amount.whole 20) [] rfl hget
  exact ⟨hread, rfl, by decide, hbound _ (by simp) (by decide)⟩

end Parley.Player
