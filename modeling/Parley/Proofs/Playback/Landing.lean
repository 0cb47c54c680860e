import Parley.Proofs.Malformed
import Parley.Proofs.Playback.Closing
import Parley.Proofs.Playback.Deeds
import Parley.Proofs.Playback.Grounded

/-!
# Where a player lands

`Settles` says of settling in a readable story what it makes of a player, in terms of the turns it
is made of. Here the same is said in terms of the story: which node is found, what becomes of the
store, which nodes count as executed, and what is on screen.

The search is blind to everything but the store it starts with. Nodes that it passes over leave no
trace, neither in the store nor among those that were executed.

## Main definitions

* `Player.IsFirst`, `Player.NoneFrom` — what a search finds
* `Player.Stands`, `Player.IsOver` — the player at a node, and at the end
* `Player.Lands` — how settling ends

## Main results

* `Player.Settles.lands`
-/

namespace Parley.Player

variable {F : Type} {p q : Player F}

/-- From an index on, a node is the first whose condition holds. -/
structure IsFirst (s : Store) (nodes : List Node) (i k : Nat) (n : Node) : Prop where
  node : nodes[k]? = some n
  le : i ≤ k
  holds : Condition.holds s n.condition = .ok true
  fails {j : Nat} {m : Node} (hle : i ≤ j) (hlt : j < k) (hm : nodes[j]? = some m) :
    Condition.holds s m.condition = .ok false

/-- From an index on, no node has a condition that holds. -/
def NoneFrom (s : Store) (nodes : List Node) (i : Nat) : Prop :=
  ∀ j m, i ≤ j → nodes[j]? = some m → Condition.holds s m.condition = .ok false

/-- The store after well-formed changes among expressions, in order. -/
def changed (s : Store) (es : List Text) : Store :=
  (es.filterMap Change.meaning?).foldl Change.apply s

/-- The second player is what becomes of the first when it settles on a node of its conversation and
shows it. The changes of the node are made if it was not executed before, nothing else is executed,
and which choices are unlocked is decided after that. -/
structure Stands (p : Player F) (k : Nat) (n : Node) (q : Player F) : Prop where
  conversation : q.conversation = p.conversation
  index : q.index = k
  positioned : q.positioned = true
  store : q.store = if p.hasExecuted p.conversation k n then p.store else changed p.store n.changes
  executed {id : Text} {j : Nat} {m : Node} (hm : p.story.node? id j = some m) :
    q.hasExecuted id j m = (p.hasExecuted id j m || (id, j) == (p.conversation, k))
  line (hoffers : n.offersChoices = false) :
    q.phase = .atLine ∧ q.choices = [] ∧ q.Shows (.line n.speaker n.text)
  choices (hoffers : n.offersChoices = true) :
    q.phase = .atChoice ∧ Appear q.store n.options q.choices ∧ q.Shows (.choices q.choices)

/-- The second player is what becomes of the first when its conversation ends. -/
structure IsOver (p q : Player F) : Prop where
  phase : q.phase = .ended
  closed : q.Closed
  conversation : q.conversation = p.conversation
  store : q.store = p.store
  played : q.played = p.played

/-- What is announced last when a node is shown. -/
def shownLast (q : Player F) (n : Node) : Notice :=
  if n.offersChoices then .choicesShown q.choices q.conversation q.index
  else .lineShown n.speaker n.text q.conversation q.index

/-- How the first player becomes the second when it looks for a node in its conversation, from its
index on and in its store, and announces something, the last of it given here. -/
inductive Lands (p q : Player F) : Option Notice → Prop where
  | missing (hget : p.story.get? p.conversation = none) (hover : IsOver p q)
      (hindex : q.index = p.index) :
      Lands p q (some (.conversationEnded p.conversation .missing))
  | finished {nodes : List Node} (hget : p.story.get? p.conversation = some nodes)
      (hnone : NoneFrom p.store nodes p.index) (hover : IsOver p q)
      (hindex : q.index = max p.index nodes.length) :
      Lands p q (some (.conversationEnded p.conversation .finished))
  | shown {nodes : List Node} {k : Nat} {n : Node}
      (hget : p.story.get? p.conversation = some nodes)
      (hfirst : IsFirst p.store nodes p.index k n) (hstands : Stands p k n q) :
      Lands p q (some (shownLast q n))

/-! ### Stepping over the current node -/

@[simp] theorem forward_store (p : Player F) : p.forward.store = p.store := by
  rw [forward]
  split <;> rfl

@[simp] theorem forward_conversation (p : Player F) : p.forward.conversation = p.conversation := by
  rw [forward]
  split <;> rfl

@[simp] theorem hasExecuted_forward (p : Player F) (id : Text) (k : Nat) (n : Node) :
    p.forward.hasExecuted id k n = p.hasExecuted id k n := by
  rw [forward]
  split <;> rfl

theorem Stands.of_forward {k : Nat} {n : Node} (h : Stands p.forward k n q) : Stands p k n q := by
  rw [forward] at h
  split at h <;>
    exact ⟨h.conversation, h.index, h.positioned, h.store, h.executed, h.line, h.choices⟩

theorem IsOver.of_forward (h : IsOver p.forward q) : IsOver p q := by
  rw [forward] at h
  split at h <;> exact ⟨h.phase, h.closed, h.conversation, h.store, h.played⟩

/-! ### Settling in a readable story -/

theorem changed_eq {es : List Text} (h : ∀ e ∈ es, e.hasOverlongValue = false) (s : Store) :
    (Change.applyAll es s).1 = changed s es :=
  (Change.applyAll_of_ok (Change.applyAll_of_readable s h)).1

theorem appear_viewsIn {cs : List Choice} (h : ∀ c ∈ cs, c.Readable) (s : Store) :
    Appear s cs (viewsIn s cs) := appear_of_viewsOf (viewsOf_of_readable s h)

theorem holds_of_get? (hread : p.story.Readable) {nodes : List Node}
    (hget : p.story.get? p.conversation = some nodes) (s : Store) {j : Nat} {m : Node}
    (hm : nodes[j]? = some m) : Condition.holds s m.condition = .ok (passes s m) :=
  Condition.holds_of_readable s (readable_of_get? hread hget m (List.mem_of_getElem? hm)).condition

variable [Tempo F]

theorem isOver_showing_ended (p : Player F) (index : Nat) :
    IsOver p ({ p with index }.showing .ended [] (.ended p.conversation)) :=
  ⟨rfl, ⟨rfl, rfl, rfl⟩, rfl, rfl, rfl⟩

/-- The player on a node stands there. -/
theorem stands_onNode {n : Node} {k : Nat} (hn : n.Readable)
    (hnode : p.story.node? p.conversation k = some n) :
    Stands p k n (({ p with index := k }.settledAt p.conversation k n).onNode n) where
  conversation := by
    have hplace := onNode_place ({ p with index := k }.settledAt p.conversation k n) n
    rw [settledAt_conversation, settledAt_index] at hplace
    exact congrArg Prod.fst hplace
  index := by
    have hplace := onNode_place ({ p with index := k }.settledAt p.conversation k n) n
    rw [settledAt_conversation, settledAt_index] at hplace
    exact congrArg Prod.snd hplace
  positioned := by
    rw [onNode]
    split <;> simp [showing]
  store := by
    rw [onNode_store, settledAt_store]
    show (Change.applyAll
      (if p.hasExecuted p.conversation k n then [] else n.changes) p.store).1 = _
    split
    · rfl
    · exact changed_eq hn.changes p.store
  executed {id j m} hm := by
    rw [hasExecuted_onNode, hasExecuted_settledAt_of_node? (p := { p with index := k }) hnode hm]
    rfl
  line hoffers := by
    rw [onNode, hoffers, displayOf, hoffers]
    exact ⟨rfl, rfl, rfl, rfl⟩
  choices hoffers := by
    rw [onNode, hoffers, displayOf, hoffers]
    exact ⟨rfl, appear_viewsIn hn.options _, rfl, rfl⟩

theorem shownLast_onNode (p : Player F) (n : Node) :
    shownLast (p.onNode n) n = showingNotice p.store p.conversation p.index n := by
  rw [shownLast, showingNotice, onNode]
  split <;> rfl

/-- **Settling in a readable story lands somewhere.** -/
theorem Settles.lands {entering : Bool} {os : List Signal} {d : Display}
    (h : Settles p entering os q d) (hread : p.story.Readable) :
    Lands p q (noticesIn os).getLast? := by
  cases h with
  | missing hget => exact .missing hget (isOver_showing_ended p p.index) rfl
  | @finished nodes hget hfail =>
    have hnone : NoneFrom p.store nodes p.index := fun j m hle hm => by
      obtain ⟨d, rfl⟩ := Nat.exists_eq_add_of_le hle
      rw [holds_of_get? hread hget p.store hm]
      rw [← List.getElem?_drop] at hm
      rw [hfail m (List.mem_of_getElem? hm)]
    have hlast := Lands.finished hget hnone
      (isOver_showing_ended p (p.index + (nodes.drop p.index).length))
      (by rw [List.length_drop]; show p.index + _ = _; omega)
    simpa using hlast
  | @shown nodes k n hget hk hle hpass hfail =>
    have hn : n.Readable := readable_of_get? hread hget n (List.mem_of_getElem? hk)
    have hnode : p.story.node? p.conversation k = some n := by simp [Story.node?, hget, hk]
    have hfirst : IsFirst p.store nodes p.index k n :=
      { node := hk
        le := hle
        holds := by rw [holds_of_get? hread hget p.store hk, hpass]
        fails := fun hj hlt hm => by
          rw [holds_of_get? hread hget p.store hm, hfail _ hj hlt _ hm] }
    have hlast := Lands.shown hget hfirst (stands_onNode hn hnode)
    rw [shownLast_onNode] at hlast
    simpa using hlast

end Parley.Player
