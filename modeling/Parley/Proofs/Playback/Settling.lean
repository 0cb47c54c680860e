import Parley.Playback.Player
import Parley.Proofs.Readable
import Parley.Proofs.Table

/-!
# What settling on a node does

Everything a player does on its own happens while it settles: it enters a conversation, looks for a
node, applies changes, decides about choices and puts something on screen. In a readable story none
of that can fail. So each of these turns comes down to three things, what is said, the player that
is left and what is shown, and one equation for each says what they are.

`Settles` puts the equations together. Whoever reasons about a run takes it apart, and opens no turn
again.

## Main definitions

* `Player.settledAt`, `Player.onNode` — the player on the way to a node, and there
* `Player.Settles` — the three ways in which settling goes

## Main results

* `Player.alone_settleOn`
* `Player.exists_settles`
-/

namespace Parley

/-- What applying readable changes says: the malformed ones as remarks, and one notice if at least
one was well formed. -/
def Change.signals (es : List Text) : List Signal :=
  (Change.remarks es).map .remark ++
    if accepted es = 0 then [] else [.notice (.variablesChanged es (accepted es))]

namespace Player

variable {F : Type} {p q : Player F}

/-- Whether the condition of a node holds. -/
def passes (s : Store) (n : Node) : Bool := Condition.value s n.condition

/-- Choices as they appear in a store, when their conditions are readable. -/
def viewsIn (s : Store) (cs : List Choice) : List ChoiceView :=
  cs.map fun c => ⟨c.text, Condition.value s c.condition⟩

/-! ### One spec for each turn -/

theorem alone_remark (rs : List Remark) (p : Player F) :
    (remark rs).alone p = (rs.map .remark, p, .ok ()) := by
  induction rs with
  | nil => rfl
  | cons r rs ih =>
    rw [remark] at ih
    simp only [remark, Turn.each, Turn.alone_bind, Turn.alone_say, ih, List.map_cons,
      List.singleton_append]

theorem alone_announce (n : Notice) (p : Player F) :
    (announce n).alone p = ([.notice n], p, .ok ()) := rfl

theorem alone_lift {α : Type} (a : α) (p : Player F) :
    (lift (.ok a) : PlayerTurn F α).alone p = ([], p, .ok a) := rfl

theorem alone_applyChanges {es : List Text} (h : ∀ e ∈ es, e.hasOverlongValue = false) :
    (applyChanges es).alone p =
      (Change.signals es, { p with store := (Change.applyAll es p.store).1 }, .ok ()) := by
  rcases eq_or_ne es [] with rfl | hne
  · rfl
  · have hcount := Change.applyAll_of_readable p.store h
    rw [applyChanges, if_neg (by simpa using hne)]
    simp only [Turn.alone_bind, Turn.alone_get, Turn.alone_modify, alone_remark, hcount, alone_lift,
      List.nil_append, Change.signals]
    split <;> simp [alone_announce]

theorem scan_of_readable (s : Store) (i : Nat) {ns : List Node} (h : ∀ n ∈ ns, n.Readable) :
    scan s i ns = (i + ns.findIdx (passes s), .ok (ns.find? (passes s))) := by
  induction ns generalizing i with
  | nil => rfl
  | cons n ns ih =>
    rw [scan, Condition.holds_of_readable s (h n List.mem_cons_self).condition, List.findIdx_cons,
      List.find?_cons, passes]
    cases Condition.value s n.condition
    · have hrest := ih (i + 1) fun m hm => h m (List.mem_cons_of_mem _ hm)
      simp only [hrest, cond_false]
      rw [show i + 1 + ns.findIdx (passes s) = i + (ns.findIdx (passes s) + 1) by omega]
    · rfl

theorem viewsOf_of_readable (s : Store) {cs : List Choice} (h : ∀ c ∈ cs, c.Readable) :
    viewsOf s cs = .ok (viewsIn s cs) := by
  induction cs with
  | nil => rfl
  | cons c cs ih =>
    rw [viewsOf, Condition.holds_of_readable s (h c List.mem_cons_self).condition,
      ih fun d hd => h d (List.mem_cons_of_mem _ hd)]
    rfl

/-- The player once it has settled on a node: the node is played, and its changes are applied if it
was not played before. -/
def settledAt (p : Player F) (conversation : Text) (index : Nat) (n : Node) : Player F :=
  if p.hasExecuted conversation index n then { p with positioned := true }
  else
    { p with
      positioned := true
      played := p.played ++ [(conversation, index)]
      store := (Change.applyAll n.changes p.store).1 }

section Settled

variable (p) (conversation : Text) (index : Nat) (n : Node)

@[simp] theorem settledAt_story : (p.settledAt conversation index n).story = p.story := by
  rw [settledAt]
  split <;> rfl

@[simp] theorem settledAt_conversation :
    (p.settledAt conversation index n).conversation = p.conversation := by
  rw [settledAt]
  split <;> rfl

@[simp] theorem settledAt_index : (p.settledAt conversation index n).index = p.index := by
  rw [settledAt]
  split <;> rfl

@[simp] theorem settledAt_reveal : (p.settledAt conversation index n).reveal = p.reveal := by
  rw [settledAt]
  split <;> rfl

@[simp] theorem settledAt_positioned : (p.settledAt conversation index n).positioned = true := by
  rw [settledAt]
  split <;> rfl

@[simp] theorem hasExecuted_settledAt :
    (p.settledAt conversation index n).hasExecuted conversation index n = true := by
  rw [settledAt]
  by_cases h : p.hasExecuted conversation index n = true
  · rw [if_pos h]
    exact h
  · rw [if_neg h]
    simp [hasExecuted]

end Settled

/-- What is said when the player settles on a node, before the node is shown. -/
def settlingSignals (p : Player F) (conversation : Text) (index : Nat) (n : Node) : List Signal :=
  if p.hasExecuted conversation index n then [] else Change.signals n.changes

variable [Tempo F]

/-- The player once something is on screen. -/
def showing (p : Player F) (phase : Phase) (views : List ChoiceView) (d : Display) : Player F :=
  { p with phase, choices := views, display := some d, reveal := p.reveal.start d.text }

theorem alone_finish (why : EndReason) (p : Player F) :
    (finish why).alone p =
      ([.notice (.conversationEnded p.conversation why)],
        p.showing .ended [] (.ended p.conversation), .ok (.ended p.conversation)) := rfl

theorem alone_presentLine (n : Node) (p : Player F) :
    (presentLine n).alone p =
      ([.notice (.lineShown n.speaker n.text p.conversation p.index)],
        p.showing .atLine [] (.line n.speaker n.text), .ok (.line n.speaker n.text)) := rfl

theorem alone_presentChoices {cs : List Choice} (h : ∀ c ∈ cs, c.Readable) (p : Player F) :
    (presentChoices cs).alone p =
      ((viewsRemarks p.store cs).map .remark ++
          [.notice (.choicesShown (viewsIn p.store cs) p.conversation p.index)],
        p.showing .atChoice (viewsIn p.store cs) (.choices (viewsIn p.store cs)),
        .ok (.choices (viewsIn p.store cs))) := by
  simp only [presentChoices, Turn.alone_bind, Turn.alone_modify, Turn.alone_get, alone_remark,
    viewsOf_of_readable p.store h, alone_lift, alone_announce, List.nil_append]
  rfl

/-- What belongs on screen at a node. -/
def displayOf (s : Store) (n : Node) : Display :=
  if n.offersChoices then .choices (viewsIn s n.options) else .line n.speaker n.text

/-- The player once a node is on screen. -/
def onNode (p : Player F) (n : Node) : Player F :=
  if n.offersChoices then p.showing .atChoice (viewsIn p.store n.options) (displayOf p.store n)
  else p.showing .atLine [] (displayOf p.store n)

/-- What is said when a node is shown. -/
def showingSignals (s : Store) (conversation : Text) (index : Nat) (n : Node) : List Signal :=
  if n.offersChoices then
    (viewsRemarks s n.options).map .remark ++
      [.notice (.choicesShown (viewsIn s n.options) conversation index)]
  else [.notice (.lineShown n.speaker n.text conversation index)]

theorem alone_present_node {n : Node} (h : n.Readable) (p : Player F) :
    (if n.offersChoices then presentChoices n.options else presentLine n).alone p =
      (showingSignals p.store p.conversation p.index n, p.onNode n,
        .ok (displayOf p.store n)) := by
  rw [showingSignals, onNode, displayOf]
  cases n.offersChoices
  · exact alone_presentLine n p
  · exact alone_presentChoices h.options p

theorem alone_settleOn {n : Node} (h : n.Readable) (conversation : Text) (index : Nat)
    (p : Player F) :
    (settleOn conversation index n).alone p =
      (p.settlingSignals conversation index n ++
          showingSignals (p.settledAt conversation index n).store p.conversation p.index n,
        (p.settledAt conversation index n).onNode n,
        .ok (displayOf (p.settledAt conversation index n).store n)) := by
  rw [settleOn, settlingSignals, settledAt]
  simp only [Turn.alone_bind, Turn.alone_modify, Turn.alone_get, List.nil_append]
  have hsame : ({ p with positioned := true } : Player F).hasExecuted conversation index n
      = p.hasExecuted conversation index n := rfl
  rw [hsame]
  cases p.hasExecuted conversation index n
  · simp only [if_false, Bool.false_eq_true, Turn.alone_bind, Turn.alone_modify,
      alone_applyChanges h.changes, alone_present_node h, List.nil_append]
  · simp only [if_true, alone_present_node h, List.nil_append]

/-- What is said on entering a conversation. -/
def enteringSignals (entering : Bool) (conversation : Text) : List Signal :=
  if entering then [.notice (.conversationEntered conversation)] else []

/-! ### The ways settling can go -/

/-- Settling from `p` says `os`, leaves `q` and shows `d`. It goes wrong when the conversation does
not exist, it ends when no node from the current index on passes, and else it shows the first node
that does. -/
inductive Settles (p : Player F) (entering : Bool) : List Signal → Player F → Display → Prop where
  | missing (hget : p.story.get? p.conversation = none) :
      Settles p entering
        [.remark (.missingConversation p.conversation),
          .notice (.conversationEnded p.conversation .missing)]
        (p.showing .ended [] (.ended p.conversation)) (.ended p.conversation)
  | finished {nodes : List Node} (hget : p.story.get? p.conversation = some nodes)
      (hfail : ∀ n ∈ nodes.drop p.index, passes p.store n = false) :
      Settles p entering
        (enteringSignals entering p.conversation ++
          ((scanRemarks p.store (nodes.drop p.index)).map .remark ++
            [.notice (.conversationEnded p.conversation .finished)]))
        ({ p with index := p.index + (nodes.drop p.index).length }.showing .ended []
          (.ended p.conversation))
        (.ended p.conversation)
  | shown {nodes : List Node} {k : Nat} {n : Node}
      (hget : p.story.get? p.conversation = some nodes) (hk : nodes[k]? = some n)
      (hle : p.index ≤ k) (hpass : passes p.store n = true)
      (hfail : ∀ j, p.index ≤ j → j < k → ∀ m, nodes[j]? = some m → passes p.store m = false) :
      Settles p entering
        (enteringSignals entering p.conversation ++
          ((scanRemarks p.store (nodes.drop p.index)).map .remark ++
            (p.settlingSignals p.conversation k n ++
              showingSignals ({ p with index := k }.settledAt p.conversation k n).store
                p.conversation k n)))
        (({ p with index := k }.settledAt p.conversation k n).onNode n)
        (displayOf ({ p with index := k }.settledAt p.conversation k n).store n)

theorem Settles.story {entering : Bool} {os : List Signal} {d : Display}
    (h : Settles p entering os q d) : q.story = p.story := by
  cases h with
  | missing | finished => rfl
  | shown =>
    rw [onNode]
    split <;> simp [showing]

theorem Settles.conversation {entering : Bool} {os : List Signal} {d : Display}
    (h : Settles p entering os q d) : q.conversation = p.conversation := by
  cases h with
  | missing | finished => rfl
  | shown =>
    rw [onNode]
    split <;> simp [showing]

theorem readable_of_get? {s : Story} (h : s.Readable) {id : Text} {nodes : List Node}
    (hget : s.get? id = some nodes) : ∀ n ∈ nodes, n.Readable :=
  h (id, nodes) (Table.get?_eq_some_iff.mp hget)

/-- Where the first node from an index on that passes stands among all nodes. -/
theorem first_passing {nodes : List Node} {i : Nat} {s : Store} {n : Node}
    (hfind : (nodes.drop i).find? (passes s) = some n) :
    nodes[i + (nodes.drop i).findIdx (passes s)]? = some n ∧ passes s n = true ∧
      ∀ j, i ≤ j → j < i + (nodes.drop i).findIdx (passes s) →
        ∀ m, nodes[j]? = some m → passes s m = false := by
  refine ⟨?_, List.find?_some hfind, ?_⟩
  · rw [← List.getElem?_drop, ← List.find?_eq_getElem?_findIdx, hfind]
  · intro j hle hj m hm
    obtain ⟨d, rfl⟩ := Nat.exists_eq_add_of_le hle
    rw [← List.getElem?_drop] at hm
    have hd : d < (nodes.drop i).findIdx (passes s) := by omega
    have hnot := List.not_of_lt_findIdx hd
    obtain ⟨hd', rfl⟩ := List.getElem?_eq_some_iff.mp hm
    simpa using hnot

theorem alone_settleAmong_none {nodes : List Node} (h : ∀ n ∈ nodes, n.Readable)
    (hfail : ∀ n ∈ nodes.drop p.index, passes p.store n = false) (conversation : Text) :
    (settleAmong conversation nodes).alone p =
      ((scanRemarks p.store (nodes.drop p.index)).map .remark ++
          [.notice (.conversationEnded p.conversation .finished)],
        { p with index := p.index + (nodes.drop p.index).length }.showing .ended []
          (.ended p.conversation),
        .ok (.ended p.conversation)) := by
  have hdrop : ∀ n ∈ nodes.drop p.index, n.Readable := fun n hn => h n (List.mem_of_mem_drop hn)
  have hscan := scan_of_readable p.store p.index hdrop
  rw [List.findIdx_eq_length.mpr hfail, List.find?_eq_none.mpr (by simpa using hfail)] at hscan
  simp only [settleAmong, Turn.alone_bind, Turn.alone_get, Turn.alone_modify, hscan, alone_remark,
    alone_lift, alone_finish, List.nil_append]

theorem alone_settleAmong_some {nodes : List Node} (h : ∀ n ∈ nodes, n.Readable) {n : Node}
    (hfind : (nodes.drop p.index).find? (passes p.store) = some n) {k : Nat}
    (hk : k = p.index + (nodes.drop p.index).findIdx (passes p.store)) (conversation : Text) :
    (settleAmong conversation nodes).alone p =
      ((scanRemarks p.store (nodes.drop p.index)).map .remark ++
          ((settleOn conversation k n).alone { p with index := k }).1,
        ((settleOn conversation k n).alone { p with index := k }).2) := by
  have hdrop : ∀ n ∈ nodes.drop p.index, n.Readable := fun n hn => h n (List.mem_of_mem_drop hn)
  have hscan := scan_of_readable p.store p.index hdrop
  rw [hfind, ← hk] at hscan
  simp only [settleAmong, Turn.alone_bind, Turn.alone_get, Turn.alone_modify, hscan, alone_remark,
    alone_lift, List.nil_append]

theorem alone_settle_of_get? {nodes : List Node} (hget : p.story.get? p.conversation = some nodes)
    (entering : Bool) :
    (settle entering).alone p =
      (enteringSignals entering p.conversation ++ ((settleAmong p.conversation nodes).alone p).1,
        ((settleAmong p.conversation nodes).alone p).2) := by
  rw [settle, Turn.alone_bind, Turn.alone_get]
  simp only [hget]
  cases entering
  · rfl
  · rfl

/-- **Settling in a readable story does not fail**, and goes in one of three ways. -/
theorem exists_settles (h : p.story.Readable) (entering : Bool) :
    ∃ os q d, (settle entering).alone p = (os, q, .ok d) ∧ Settles p entering os q d := by
  rcases hget : p.story.get? p.conversation with _ | nodes
  · refine ⟨_, _, _, ?_, .missing hget⟩
    rw [settle, Turn.alone_bind, Turn.alone_get]
    simp only [hget, Turn.alone_bind, alone_remark, alone_finish]
    rfl
  · have hread := readable_of_get? h hget
    rcases hfind : (nodes.drop p.index).find? (passes p.store) with _ | n
    · have hfail : ∀ n ∈ nodes.drop p.index, passes p.store n = false := by
        simpa using hfind
      refine ⟨_, _, _, ?_, .finished hget hfail⟩
      rw [alone_settle_of_get? hget, alone_settleAmong_none hread hfail]
    · obtain ⟨hk, hpass, hfirst⟩ := first_passing hfind
      have hn : n.Readable := hread n (List.mem_of_getElem? hk)
      refine ⟨_, _, _, ?_, .shown hget hk (Nat.le_add_right _ _) hpass hfirst⟩
      rw [alone_settle_of_get? hget, alone_settleAmong_some hread hfind rfl, alone_settleOn hn]
      rfl

end Player

end Parley
