import Parley.Proofs.Playback.Runs
import Parley.Proofs.Reveal.Laws

/-!
# The texts of a story

How long the texts are that a story puts on screen is known from the story alone. A line is as long
as it is; a list of choices is longest when all of them are locked, since that is said of each. What
is on screen of a coherent player is the line or the choices of a node of its story.

## Main definitions

* `Node.extent`, `Story.FitsIn` — how long the texts of a node are, and those of a story

## Main results

* `Player.Coherent.length_text_le` — a text on screen is no longer than those of the story
-/

namespace Parley

/-- How many characters a node takes on screen at most: those of its line, or of its choices with
all of them locked. -/
def Node.extent (n : Node) : Nat :=
  max n.text.length (Display.choices (n.options.map fun c => ⟨c.text, false⟩)).text.length

/-- The texts of a story have at most so many characters. -/
def Story.FitsIn (limit : Nat) (s : Story) : Prop := ∀ e ∈ s.entries, ∀ n ∈ e.2, n.extent ≤ limit

instance (limit : Nat) (s : Story) : Decidable (s.FitsIn limit) :=
  inferInstanceAs (Decidable (∀ e ∈ s.entries, ∀ n ∈ e.2, n.extent ≤ limit))

theorem Node.length_text_le (n : Node) : n.text.length ≤ n.extent := Nat.le_max_left _ _

/-- The choices of a node fit, whichever of them are locked. -/
theorem Node.length_choices_le {n : Node} {views : List ChoiceView}
    (h : views.map ChoiceView.text = n.options.map Choice.text) :
    (Display.choices views).text.length ≤ n.extent := by
  have hlocked : views.map Display.locked = n.options.map fun c => ⟨c.text, false⟩ := by
    have hmap := congrArg (List.map fun t => (⟨t, false⟩ : ChoiceView)) h
    rwa [List.map_map, List.map_map] at hmap
  calc (Display.choices views).text.length
      ≤ (Display.choices (views.map Display.locked)).text.length :=
        Display.length_text_choices_le views
    _ = (Display.choices (n.options.map fun c => ⟨c.text, false⟩)).text.length := by rw [hlocked]
    _ ≤ n.extent := Nat.le_max_right _ _

namespace Player

variable {F : Type} {p : Player F} {limit : Nat}

theorem extent_le_of_currentNode? (hfits : p.story.FitsIn limit) {n : Node}
    (hnode : p.currentNode? = some n) : n.extent ≤ limit := by
  rw [currentNode?] at hnode
  split at hnode
  · cases hnode
  · obtain ⟨m, hm, rfl⟩ := Option.map_eq_some_iff.mp hnode
    obtain ⟨nodes, hget, hm⟩ := Option.bind_eq_some_iff.mp hm
    exact hfits _ (Table.get?_eq_some_iff.mp hget) m (List.mem_of_getElem? hm)

/-- **A text on screen is no longer than those of the story.** -/
theorem Coherent.length_text_le (h : p.Coherent) (hfits : p.story.FitsIn limit) :
    p.reveal.text.length ≤ limit := by
  cases h with
  | fresh phase index display node choices text =>
    rw [text]
    exact Nat.zero_le limit
  | @atLine n phase node executed line choices shows =>
    rw [shows.text]
    exact n.length_text_le.trans (extent_le_of_currentNode? hfits node)
  | @atChoice n phase node executed offers choices shows =>
    rw [shows.text]
    exact (Node.length_choices_le choices).trans (extent_le_of_currentNode? hfits node)
  | ended phase node choices shows =>
    rw [shows.text]
    exact Nat.zero_le limit

theorem Step.speed [Tempo F] {q : Player F} {m : Move F} {os : List Signal}
    {r : Except PlayFault Answer} (h : Step p m os q r) : q.reveal.speed = p.reveal.speed := by
  cases h with
  | idle | rejected | overrun | skipped | written => rfl
  | next hphase hsettles =>
    rw [hsettles.shows.2, forward]
    split <;> rfl
  | taken hrefusal hchoice hsettles =>
    rw [hsettles.shows.2]
    rfl
  | ticked htick => exact (Reveal.tick?_text_speed htick).2

/-- At the gate the longest text is that of its two choices when both are locked. -/
example : gate.FitsIn 32 ∧ ¬ gate.FitsIn 31 := by decide

end Player

end Parley
