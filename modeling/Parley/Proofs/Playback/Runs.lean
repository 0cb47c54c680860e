import Parley.Playback.Move
import Parley.Proofs.Playback.Coherence
import Parley.Reveal.Amount

/-!
# Runs of a player

A host makes one move after the other, in any order. `Step` lists what a single move of a coherent
player can do, in full: what it says, the player it leaves, and its answer. So a property of runs is
a property of `Step` and an induction over the moves.

Listeners that leave the player alone make no difference to a turn, so a run is taken with nobody
listening.

## Main definitions

* `Player.Step`
* `Player.after`, `Player.afterAll` — the player after one move, and after a run

## Main results

* `Player.exists_step` — a move of a coherent player is a step
* `Player.Step.coherent` — a step keeps the player coherent
* `Player.coherent_afterAll_start` — and so does every run
-/

namespace Parley.Player

variable {F : Type} {p q : Player F}

/-! ### Where a move looks next -/

/-- The player that looks for the next node. -/
def forward (p : Player F) : Player F :=
  if p.positioned then { p with index := p.index + 1 } else p

/-- The player that follows a choice. -/
def jump (p : Player F) (c : Choice) : Player F :=
  { p with
    store := (Change.applyAll c.changes p.store).1
    conversation := c.target.getD p.conversation
    index := 0
    phase := .atLine
    choices := [] }

@[simp] theorem forward_story (p : Player F) : p.forward.story = p.story := by
  rw [forward]
  split <;> rfl

/-- The store after a move that writes it. -/
def Move.written? (s : Store) : Move F → Option Store
  | setNumber name n => some (s.setNumber name n)
  | setFlag name b => some (s.setFlag name b)
  | clearStore => some .empty
  | _ => none

variable [Tempo F]

/-! ### What one move does -/

/-- What a move can do: what it says, the player it leaves and its answer. Only `next` and `taken`
move the player. -/
inductive Step (p : Player F) :
    Move F → List Signal → Player F → Except PlayFault Answer → Prop where
  | idle (hphase : p.phase ≠ .atLine) : Step p .advance [] p (.ok (.display p.display))
  | next {os : List Signal} {q : Player F} {d : Display} (hphase : p.phase = .atLine)
      (hsettles : Settles p.forward (!p.positioned) os q d) :
      Step p .advance os q (.ok (.display (some d)))
  | rejected {index : Int} {why : Refusal} (hrefusal : p.refusal? index = some why) :
      Step p (.select index)
        [.remark (.ignoredChoice index why), .notice (.choiceRejected index why)] p
        (.ok (.display none))
  | taken {index : Int} {c : Choice} {os : List Signal} {q : Player F} {d : Display}
      (hrefusal : p.refusal? index = none) (hchoice : p.choiceAt index.toNat = .ok c)
      (hsettles : Settles (p.jump c) true os q d) :
      Step p (.select index)
        (Change.signals c.changes ++ .notice (.choiceSelected index c.text c.target) :: os) q
        (.ok (.display (some d)))
  | skipped : Step p .skip [] p.skipReveal (.ok (.text p.reveal.text))
  | ticked {dt : F} {reveal : Reveal F} (htick : p.reveal.tick? dt = some reveal) :
      Step p (.tick dt) [] { p with reveal } (.ok (.text reveal.shown))
  | overrun {dt : F} (htick : p.reveal.tick? dt = none) :
      Step p (.tick dt) [] p (.error .tooLarge)
  | written {m : Move F} {s : Store} (hwritten : m.written? p.store = some s) :
      Step p m [] { p with store := s } (.ok .nothing)

theorem alone_advance_of_atLine (hphase : p.phase = .atLine) :
    advance.alone p = (some <$> settle (!p.positioned)).alone p.forward := by
  rw [advance, Turn.alone_bind, Turn.alone_get, forward]
  by_cases hpositioned : p.positioned = true
  · simp only [if_pos hphase, if_pos hpositioned, Turn.alone_bind, Turn.alone_modify,
      List.nil_append]
  · simp only [if_pos hphase, if_neg hpositioned]
    rfl

theorem alone_advance_of_ne (hphase : p.phase ≠ .atLine) :
    advance.alone p = ([], p, .ok p.display) := by
  rw [advance, Turn.alone_bind, Turn.alone_get]
  simp only [if_neg hphase, Turn.alone_pure, List.nil_append]

theorem alone_take {c : Choice} (h : ∀ e ∈ c.changes, e.hasOverlongValue = false) (i : Nat)
    (p : Player F) :
    (take i c).alone p =
      (Change.signals c.changes ++ .notice (.choiceSelected i c.text c.target) ::
          ((settle true).alone (p.jump c)).1,
        ((settle true).alone (p.jump c)).2) := by
  simp only [take, Turn.alone_bind, alone_applyChanges h, alone_announce, Turn.alone_modify,
    List.nil_append, List.singleton_append]
  rfl

theorem alone_select_of_refusal {index : Int} {why : Refusal}
    (h : p.refusal? index = some why) :
    (select index).alone p =
      ([.remark (.ignoredChoice index why), .notice (.choiceRejected index why)], p, .ok none) := by
  rw [select, Turn.alone_bind, Turn.alone_get]
  simp only [h]
  rfl

theorem alone_select_of_choiceAt {index : Int} {c : Choice} (h : p.refusal? index = none)
    (hchoice : p.choiceAt index.toNat = .ok c) :
    (select index).alone p = (some <$> take index.toNat c).alone p := by
  rw [select, Turn.alone_bind, Turn.alone_get]
  simp only [h, hchoice, List.nil_append]

/-- **A move of a coherent player is a step**; in particular it fails only when a tick takes numbers
that are too large. -/
theorem exists_step (hread : p.story.Readable) (h : p.Coherent) (m : Move F) :
    ∃ os q r, m.turn.alone p = (os, q, r) ∧ Step p m os q r := by
  cases m with
  | advance =>
    by_cases hphase : p.phase = .atLine
    · have hforward : p.forward.story.Readable := by
        rw [forward]
        split <;> exact hread
      obtain ⟨os, q, d, halone, hsettles⟩ := exists_settles hforward (!p.positioned)
      refine ⟨_, _, _, ?_, .next hphase hsettles⟩
      rw [Move.turn, Turn.alone_map, alone_advance_of_atLine hphase, Turn.alone_map, halone]
      rfl
    · refine ⟨_, _, _, ?_, .idle hphase⟩
      rw [Move.turn, Turn.alone_map, alone_advance_of_ne hphase]
      rfl
  | select index =>
    rcases hrefusal : p.refusal? index with _ | why
    · have hle : 0 ≤ index := (refusal?_eq_none_iff.mp hrefusal).2.1
      obtain ⟨n, c, hnode, hc, hchoice⟩ := h.exists_choiceAt hrefusal
      have hreadable : c.Readable := readable_of_currentNode? hread hnode c hc
      obtain ⟨os, q, d, halone, hsettles⟩ :=
        exists_settles (show (p.jump c).story.Readable from hread) true
      refine ⟨_, _, _, ?_, .taken hrefusal hchoice hsettles⟩
      have hindex : (index.toNat : Int) = index := Int.toNat_of_nonneg hle
      rw [Move.turn, Turn.alone_map, alone_select_of_choiceAt hrefusal hchoice, Turn.alone_map,
        alone_take hreadable.changes, halone, hindex]
      rfl
    · refine ⟨_, _, _, ?_, .rejected hrefusal⟩
      rw [Move.turn, Turn.alone_map, alone_select_of_refusal hrefusal]
      rfl
  | skip => exact ⟨_, _, _, rfl, .skipped⟩
  | tick dt =>
    rcases htick : p.reveal.tick? dt with _ | reveal
    · refine ⟨_, _, _, ?_, .overrun htick⟩
      simp only [Move.turn, Turn.alone_bind, Turn.alone_get, htick]
      rfl
    · refine ⟨_, _, _, ?_, .ticked htick⟩
      simp only [Move.turn, Turn.alone_bind, Turn.alone_get, htick]
      rfl
  | setNumber name n => exact ⟨_, _, _, rfl, .written rfl⟩
  | setFlag name b => exact ⟨_, _, _, rfl, .written rfl⟩
  | clearStore => exact ⟨_, _, _, rfl, .written rfl⟩

theorem Step.story {m : Move F} {os : List Signal} {r : Except PlayFault Answer}
    (h : Step p m os q r) : q.story = p.story := by
  cases h with
  | idle | rejected | skipped | ticked | overrun | written => rfl
  | next hphase hsettles => rw [hsettles.story, forward_story]
  | taken hrefusal hchoice hsettles => exact hsettles.story

theorem text_of_tick? {r r' : Reveal F} {dt : F} (h : r.tick? dt = some r') : r'.text = r.text := by
  rw [Reveal.tick?] at h
  split at h
  · obtain ⟨position, -, rfl⟩ := Option.map_eq_some_iff.mp h
    rfl
  · cases h
    rfl

/-- **A step keeps the screen in agreement with the place.** -/
theorem Step.coherent {m : Move F} {os : List Signal} {r : Except PlayFault Answer}
    (h : Step p m os q r) (hp : p.Coherent) : q.Coherent := by
  cases h with
  | idle | rejected | overrun => exact hp
  | next hphase hsettles => exact hsettles.coherent
  | taken hrefusal hchoice hsettles => exact hsettles.coherent
  | skipped => exact hp.of_scenery p.store rfl
  | ticked htick => exact hp.of_scenery p.store (text_of_tick? htick)
  | written => exact hp.of_scenery _ rfl

/-! ### Runs -/

/-- The player after a move that nobody listens to. -/
def after (p : Player F) (m : Move F) : Player F := (m.turn.alone p).2.1

/-- The player after moves that nobody listens to, in order. -/
def afterAll (p : Player F) (ms : List (Move F)) : Player F := ms.foldl after p

theorem afterAll_induction {P : Player F → Prop} (hstep : ∀ p m, P p → P (p.after m))
    {p : Player F} (hp : P p) (ms : List (Move F)) : P (p.afterAll ms) := by
  induction ms generalizing p with
  | nil => exact hp
  | cons m ms ih => exact ih (hstep p m hp)

theorem coherent_afterAll (hread : p.story.Readable) (hp : p.Coherent) (ms : List (Move F)) :
    (p.afterAll ms).story = p.story ∧ (p.afterAll ms).Coherent := by
  refine afterAll_induction (P := fun q => q.story = p.story ∧ q.Coherent) ?_ ⟨rfl, hp⟩ ms
  rintro q m ⟨hstory, hq⟩
  obtain ⟨os, q', r, halone, hstep⟩ := exists_step (hstory ▸ hread) hq m
  rw [after, halone]
  exact ⟨hstep.story.trans hstory, hstep.coherent hq⟩

/-- **After every run the screen agrees with the place.** Whatever the host does in whatever order,
from the start of a readable story, in any store and with any arithmetic of times. -/
theorem coherent_afterAll_start {story : Story} (hread : story.Readable) (conversation : Text)
    (store : Store) (speed : F) (ms : List (Move F)) :
    ((start story conversation store speed).afterAll ms).Coherent :=
  (coherent_afterAll hread (coherent_start story conversation store speed) ms).2

/-- A gate that opens for a coin. Whoever waits starts over, and nothing leads to the cellar. -/
def gate : Story :=
  .ofList [
    ("gate".toList,
      [⟨"Guard".toList, "Halt.".toList, none, none, ["coins += 1".toList], false⟩,
        ⟨[], [], some [
            ⟨"Pay".toList, some "court".toList, ["coins -= 2".toList, "open = true".toList],
              some "coins >= 2 || open == true".toList⟩,
            ⟨"Wait".toList, none, ["coins += 1".toList], none⟩], none, [], false⟩]),
    ("court".toList,
      [⟨"Page".toList, "Welcome.".toList, none, some "coins == 0".toList, [], false⟩]),
    ("cellar".toList, [])]

theorem coherent_afterAll_start_gate :
    gate.Readable ∧
      ((start gate "gate".toList .empty (Amount.whole 20)).afterAll
        [.advance, .advance, .select 0, .select 1, .tick (.real 0.5), .advance, .skip, .select 0,
          .clearStore, .advance]).Coherent := by
  have h : gate.Readable := by decide
  exact ⟨h, coherent_afterAll_start h _ _ _ _⟩

/-- The first coin is not enough: paying is refused until the second round. -/
example :
    ((start gate "gate".toList .empty (Amount.whole 20)).afterAll
      [.advance, .advance, .select 0, .select 1, .advance, .select 0]).display =
      some (.line "Page".toList "Welcome.".toList) := by decide

end Parley.Player
