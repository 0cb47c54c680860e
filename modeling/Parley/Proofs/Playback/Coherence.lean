import Parley.Proofs.Playback.Settling

/-!
# The screen agrees with the place

A player keeps its place, its phase, the choices, the display and the text to reveal in fields of
their own, and every move writes only some of them. `Coherent` says what they have to do with each
other; it is the invariant of playing a readable story.

That a choice on screen can always be taken is part of it: the choices on screen are those of the
current node, so looking one up there cannot fail.

## Main definitions

* `Player.Coherent`

## Main results

* `Player.Settles.coherent` — settling makes a player coherent, whatever it was before
* `Player.Coherent.exists_choiceAt`
-/

namespace Parley.Player

variable {F : Type} {p q : Player F}

/-- A display is on screen, and its text is the one that is revealed. -/
structure Shows (p : Player F) (d : Display) : Prop where
  display : p.display = some d
  text : p.reveal.text = d.text

/-- The screen agrees with the place. Either nothing was shown yet, or the current node is on screen
with its line or its choices, or the conversation is over. -/
inductive Coherent (p : Player F) : Prop where
  | fresh (phase : p.phase = .atLine) (index : p.index = 0) (display : p.display = none)
      (node : p.currentNode? = none) (choices : p.choices = []) (text : p.reveal.text = [])
  | atLine {n : Node} (phase : p.phase = .atLine) (node : p.currentNode? = some n)
      (executed : n.executed = true) (line : n.offersChoices = false) (choices : p.choices = [])
      (shows : p.Shows (.line n.speaker n.text))
  | atChoice {n : Node} (phase : p.phase = .atChoice) (node : p.currentNode? = some n)
      (executed : n.executed = true) (offers : n.offersChoices = true)
      (choices : p.choices.map ChoiceView.text = n.options.map Choice.text)
      (shows : p.Shows (.choices p.choices))
  | ended (phase : p.phase = .ended) (node : p.currentNode? = none) (choices : p.choices = [])
      (shows : p.Shows (.ended p.conversation))

/-- Neither the store nor how much of the text is revealed matters. -/
theorem Coherent.of_scenery (h : p.Coherent) (store : Store) {reveal : Reveal F}
    (htext : reveal.text = p.reveal.text) : Coherent { p with store, reveal } := by
  cases h with
  | fresh phase index display node choices text =>
    exact .fresh phase index display node choices (htext.trans text)
  | atLine phase node executed line choices shows =>
    exact .atLine phase node executed line choices ⟨shows.display, htext.trans shows.text⟩
  | atChoice phase node executed offers choices shows =>
    exact .atChoice phase node executed offers choices ⟨shows.display, htext.trans shows.text⟩
  | ended phase node choices shows =>
    exact .ended phase node choices ⟨shows.display, htext.trans shows.text⟩

/-! ### A choice on screen can be taken -/

theorem refusal?_eq_none_iff {index : Int} :
    p.refusal? index = none ↔
      p.phase = .atChoice ∧ 0 ≤ index ∧
        ∃ v, p.choices[index.toNat]? = some v ∧ v.unlocked = true := by
  rw [refusal?]
  by_cases hphase : p.phase = .atChoice
  · by_cases hneg : index < 0
    · simp [hphase, hneg, Int.not_le.mpr hneg]
    · rcases hview : p.choices[index.toNat]? with _ | v
      · simp [hphase, hneg]
      · simp [hphase, hneg, Int.not_lt.mp hneg]
  · simp [hphase]

theorem mem_of_currentNode? {n : Node} (hnode : p.currentNode? = some n) :
    ∃ nodes m, p.story.get? p.conversation = some nodes ∧ m ∈ nodes ∧ n.options = m.options := by
  rw [currentNode?] at hnode
  split at hnode
  · cases hnode
  · obtain ⟨m, hm, rfl⟩ := Option.map_eq_some_iff.mp hnode
    obtain ⟨nodes, hget, hm⟩ := Option.bind_eq_some_iff.mp hm
    exact ⟨nodes, m, hget, List.mem_of_getElem? hm, rfl⟩

/-- The choices of the current node are readable in a readable story. -/
theorem readable_of_currentNode? (hread : p.story.Readable) {n : Node}
    (hnode : p.currentNode? = some n) : ∀ c ∈ n.options, c.Readable := by
  obtain ⟨nodes, m, hget, hm, hoptions⟩ := mem_of_currentNode? hnode
  rw [hoptions]
  exact (readable_of_get? hread hget m hm).options

theorem choiceAt_of_getElem? {n : Node} (hnode : p.currentNode? = some n) {i : Nat} {c : Choice}
    (hc : n.options[i]? = some c) : p.choiceAt i = .ok c := by
  rw [Node.options] at hc
  rw [choiceAt, hnode]
  rcases hchoices : n.choices with _ | cs
  · simp [hchoices] at hc
  · rw [hchoices, Option.getD_some] at hc
    simp only [hchoices, hc]

/-- A choice that can be taken is one of the node at the place of the player. -/
theorem getElem?_options_of_choiceAt {i : Nat} {c : Choice} (h : p.choiceAt i = .ok c) :
    ∃ n, p.story.node? p.conversation p.index = some n ∧ n.options[i]? = some c := by
  rw [choiceAt] at h
  split at h
  · cases h
  · rename_i m hcurrent
    rw [currentNode?] at hcurrent
    split at hcurrent
    · cases hcurrent
    · obtain ⟨n, hnode, rfl⟩ := Option.map_eq_some_iff.mp hcurrent
      refine ⟨n, hnode, ?_⟩
      rw [Node.options]
      split at h
      · cases h
      · rename_i cs hchoices
        rw [show n.choices = some cs from hchoices, Option.getD_some]
        split at h
        · cases h
        · rename_i c' hc
          rw [hc, Except.ok.inj h]

theorem readable_of_choiceAt (hread : p.story.Readable) {i : Nat} {c : Choice}
    (h : p.choiceAt i = .ok c) : c.Readable := by
  obtain ⟨n, hnode, hc⟩ := getElem?_options_of_choiceAt h
  obtain ⟨nodes, hget, hn⟩ := Option.bind_eq_some_iff.mp hnode
  exact (readable_of_get? hread hget n (List.mem_of_getElem? hn)).options c
    (List.mem_of_getElem? hc)

/-- **A choice on screen can be taken**: it is one of the choices of the current node. -/
theorem Coherent.exists_choiceAt (h : p.Coherent) {index : Int}
    (hrefusal : p.refusal? index = none) :
    ∃ n c, p.currentNode? = some n ∧ c ∈ n.options ∧ p.choiceAt index.toNat = .ok c := by
  obtain ⟨hphase, -, v, hview, -⟩ := refusal?_eq_none_iff.mp hrefusal
  cases h with
  | fresh phase | atLine phase | ended phase => exact absurd (hphase.symm.trans phase) (by decide)
  | @atChoice n phase node executed offers choices shows =>
    have htext : (n.options.map Choice.text)[index.toNat]? = some v.text := by
      rw [← choices, List.getElem?_map, hview, Option.map_some]
    obtain ⟨c, hc, -⟩ := Option.map_eq_some_iff.mp (List.getElem?_map.symm.trans htext)
    exact ⟨n, c, node, List.mem_of_getElem? hc, choiceAt_of_getElem? node hc⟩

/-! ### Settling makes a player coherent -/

variable [Tempo F]

theorem coherent_start (story : Story) (conversation : Text) (store : Store) (speed : F) :
    (start story conversation store speed).Coherent :=
  .fresh rfl rfl rfl rfl rfl rfl

theorem coherent_showing_ended (p : Player F) :
    (p.showing .ended [] (.ended p.conversation)).Coherent :=
  .ended rfl (by simp [currentNode?, isEnded, showing]) rfl ⟨rfl, rfl⟩

theorem coherent_onNode {n : Node} (hnode : p.story.node? p.conversation p.index = some n)
    (hpositioned : p.positioned = true)
    (hexecuted : p.hasExecuted p.conversation p.index n = true) : (p.onNode n).Coherent := by
  have hcurrent (phase : Phase) (views : List ChoiceView) (d : Display) (hphase : phase ≠ .ended) :
      (p.showing phase views d).currentNode? = some { n with executed := true } := by
    have hopen : ((p.showing phase views d).isEnded || !(p.showing phase views d).positioned)
        = false := by simp [isEnded, showing, hphase, hpositioned]
    rw [currentNode?, hopen, if_neg Bool.false_ne_true]
    show (p.story.node? p.conversation p.index).map (fun m =>
      { m with executed := p.hasExecuted p.conversation p.index m }) = _
    rw [hnode, Option.map_some, hexecuted]
  rw [onNode, displayOf]
  cases hoffers : n.offersChoices
  · exact .atLine rfl (hcurrent _ _ _ (by decide)) rfl hoffers rfl ⟨rfl, rfl⟩
  · refine .atChoice rfl (hcurrent _ _ _ (by decide)) rfl hoffers ?_ ⟨rfl, rfl⟩
    show (viewsIn p.store n.options).map ChoiceView.text = n.options.map Choice.text
    simp [viewsIn]

theorem Settles.coherent {entering : Bool} {os : List Signal} {d : Display}
    (h : Settles p entering os q d) : q.Coherent := by
  cases h with
  | missing hget => exact coherent_showing_ended p
  | @finished nodes hget hfail =>
    exact coherent_showing_ended { p with index := p.index + (nodes.drop p.index).length }
  | shown hget hk hle hpass hfail =>
    refine coherent_onNode ?_ ?_ ?_
    · simp [Story.node?, hget, hk]
    · simp
    · simp

/-- What settling shows is on screen, and its text begins to be revealed. -/
theorem Settles.shows {entering : Bool} {os : List Signal} {d : Display}
    (h : Settles p entering os q d) : q.Shows d ∧ q.reveal = p.reveal.start d.text := by
  cases h with
  | missing | finished => exact ⟨⟨rfl, rfl⟩, rfl⟩
  | shown =>
    rw [onNode]
    split <;> exact ⟨⟨rfl, rfl⟩, by rw [showing, settledAt_reveal]⟩

end Parley.Player
