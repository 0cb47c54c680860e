import Parley.Proofs.Playback.Runs
import Parley.Proofs.Script.Check

/-!
# Playing a story that was checked

A check looks at the text of a story once; playing meets that text in an order that depends on the
variables and on what the host does, as often as it likes. Here the two are tied together: from a
start for which the check finds no error, no call of any run goes wrong.

Two facts carry the runs. All that a run meets are nodes and choices of the story, so they are
sound; and the current conversation exists, since it is the start or the target of a choice that was
taken.

## Main definitions

* `Signal.IsFine`
* `Player.OnTrack` — the invariant
* `Player.Smooth` — a call that goes as its author meant it

## Main results

* `Player.Step.onTrack`, `Player.OnTrack.smooth`
* `Player.smooth_of_check` — no call of a run goes wrong
-/

namespace Parley

/-- What is said in the play of a sound story: no conversation is missing, no expression that was
met is malformed, and changes are applied to the last. -/
def Signal.IsFine : Signal → Prop
  | .notice (.conversationEnded _ why) => why = .finished
  | .notice (.variablesChanged es applied) => applied = es.length
  | .remark (.malformedAtom _) | .remark (.malformedChange _) => False
  | .remark (.missingConversation _) => False
  | _ => True

/-- It is announced that all changes of a list were applied, unless there are none. -/
def Announces (os : List Signal) (es : List Text) : Prop :=
  es ≠ [] → .notice (.variablesChanged es es.length) ∈ os

/-! ### Sound expressions are applied without remarks -/

theorem Change.signals_of_isValid {es : List Text} (h : ∀ e ∈ es, isValid e = .ok true) :
    signals es = if es = [] then [] else [.notice (.variablesChanged es es.length)] := by
  have hchange : ∀ e ∈ es, isChange e = true := fun e he => isValid_eq_ok_true_iff.mp (h e he)
  rw [signals, remarks_of_isChange hchange, accepted_eq_length hchange]
  simp

theorem Change.isFine_of_mem_signals {es : List Text} (h : ∀ e ∈ es, isValid e = .ok true)
    {o : Signal} (ho : o ∈ signals es) : o.IsFine := by
  rw [signals_of_isValid h] at ho
  split at ho
  · cases ho
  · obtain rfl := List.mem_singleton.mp ho
    rfl

theorem Change.announces_signals {es : List Text} (h : ∀ e ∈ es, isValid e = .ok true) :
    Announces (signals es) es := by
  intro hne
  rw [signals_of_isValid h, if_neg hne]
  exact List.mem_singleton_self _

theorem Announces.mono {os os' : List Signal} {es : List Text} (h : Announces os es)
    (hsub : ∀ o ∈ os, o ∈ os') : Announces os' es := fun hne => hsub _ (h hne)

namespace Player

variable {F : Type} {p q : Player F} {story : Story} {start : Text}

theorem scanRemarks_of_sound (s : Store) {ns : List Node} (h : ∀ n ∈ ns, n.Sound story) :
    scanRemarks s ns = [] := by
  induction ns with
  | nil => rfl
  | cons n ns ih =>
    rw [List.forall_mem_cons] at h
    have hn := Condition.remarks_of_isValid s h.1.condition
    rw [scanRemarks]
    split
    · rw [hn, ih h.2, List.nil_append]
    · exact hn

theorem viewsRemarks_of_sound (s : Store) {cs : List Choice} (h : ∀ c ∈ cs, c.Sound story) :
    viewsRemarks s cs = [] := by
  induction cs with
  | nil => rfl
  | cons c cs ih =>
    rw [List.forall_mem_cons] at h
    have hc := Condition.remarks_of_isValid s h.1.condition
    rw [viewsRemarks]
    split
    · exact hc
    · rw [hc, ih h.2, List.nil_append]

theorem isFine_of_mem_enteringSignals {entering : Bool} {id : Text} {o : Signal}
    (h : o ∈ enteringSignals entering id) : o.IsFine := by
  rw [enteringSignals] at h
  split at h
  · obtain rfl := List.mem_singleton.mp h
    trivial
  · cases h

theorem isFine_of_mem_showingSignals {s : Store} {id : Text} {k : Nat} {n : Node}
    (hn : n.Sound story) {o : Signal} (h : o ∈ showingSignals s id k n) : o.IsFine := by
  rw [showingSignals] at h
  split at h
  · rw [viewsRemarks_of_sound s hn.options] at h
    obtain rfl := List.mem_singleton.mp h
    trivial
  · obtain rfl := List.mem_singleton.mp h
    trivial

theorem sound_of_get? (h : story.Sound start) {id : Text} {nodes : List Node}
    (hget : story.get? id = some nodes) : ∀ n ∈ nodes, n.Sound story :=
  h.nodes (id, nodes) (Table.get?_eq_some_iff.mp hget)

theorem scanRemarks_of_get? (h : story.Sound start) {id : Text} {nodes : List Node}
    (hget : story.get? id = some nodes) (s : Store) (i : Nat) :
    scanRemarks s (nodes.drop i) = [] :=
  scanRemarks_of_sound s fun n hn => sound_of_get? h hget n (List.mem_of_mem_drop hn)

/-! ### The invariant -/

/-- The player is at an existing conversation of a sound story, and its screen agrees. -/
structure OnTrack (story : Story) (start : Text) (p : Player F) : Prop where
  sound : story.Sound start
  story_eq : p.story = story
  coherent : p.Coherent
  conversation : story.contains p.conversation = true

theorem OnTrack.sound_of_choiceAt (h : OnTrack story start p) {index : Int} {c : Choice}
    (hrefusal : p.refusal? index = none) (hchoice : p.choiceAt index.toNat = .ok c) :
    c.Sound story := by
  -- the choice is one of the current node, which apart from its mark is a node of the story
  obtain ⟨n, c', hnode, hc, hchoice'⟩ := h.coherent.exists_choiceAt hrefusal
  obtain rfl : c = c' := Except.ok.inj (hchoice.symm.trans hchoice')
  obtain ⟨nodes, m, hget, hm, hoptions⟩ := mem_of_currentNode? hnode
  exact (sound_of_get? h.sound (h.story_eq ▸ hget) m hm).options c (hoptions ▸ hc)

theorem OnTrack.forward (h : OnTrack story start p) :
    p.forward.story.Sound start ∧ p.forward.story.contains p.forward.conversation = true := by
  rw [forward_story, h.story_eq]
  refine ⟨h.sound, ?_⟩
  rw [Player.forward]
  split <;> exact h.conversation

theorem OnTrack.jump (h : OnTrack story start p) {c : Choice} (hc : c.Sound story) :
    (p.jump c).story.Sound start ∧
      (p.jump c).story.contains (p.jump c).conversation = true := by
  have hstory : (p.jump c).story = story := h.story_eq
  rw [hstory]
  refine ⟨h.sound, ?_⟩
  rcases htarget : c.target with _ | t
  · simpa [Player.jump, htarget] using h.conversation
  · simpa [Player.jump, htarget] using hc.target t htarget

variable [Tempo F] {entering : Bool} {os : List Signal} {d : Display}

/-! ### Settling in a sound story -/

theorem Settles.isFine (h : Settles p entering os q d) (hsound : p.story.Sound start)
    (hid : p.story.contains p.conversation = true) : ∀ o ∈ os, o.IsFine := by
  cases h with
  | missing hget =>
    -- this is the one way of settling that a sound story rules out
    rw [Table.contains, hget] at hid
    cases hid
  | finished hget hfail =>
    rw [scanRemarks_of_get? hsound hget, List.map_nil, List.nil_append]
    intro o ho
    rcases List.mem_append.mp ho with ho | ho
    · exact isFine_of_mem_enteringSignals ho
    · obtain rfl := List.mem_singleton.mp ho
      rfl
  | @shown nodes k n hget hk hle hpass hfail =>
    have hn : n.Sound p.story := sound_of_get? hsound hget n (List.mem_of_getElem? hk)
    rw [scanRemarks_of_get? hsound hget, List.map_nil, List.nil_append]
    intro o ho
    rcases List.mem_append.mp ho with ho | ho
    · exact isFine_of_mem_enteringSignals ho
    · rcases List.mem_append.mp ho with ho | ho
      · rw [settlingSignals] at ho
        split at ho
        · cases ho
        · exact Change.isFine_of_mem_signals hn.changes ho
      · exact isFine_of_mem_showingSignals hn ho

theorem not_mem_enteringSignals {id : Text} {i : Int} {text : Text} {target : Option Text} :
    .notice (.choiceSelected i text target) ∉ enteringSignals entering id := by
  rw [enteringSignals]
  split <;> simp

/-- Settling takes no choice. -/
theorem Settles.not_mem_choiceSelected (h : Settles p entering os q d) {i : Int} {text : Text}
    {target : Option Text} : .notice (.choiceSelected i text target) ∉ os := by
  have hsignals (es : List Text) :
      .notice (.choiceSelected i text target) ∉ Change.signals es := by
    rw [Change.signals]
    split <;> simp
  cases h with
  | missing => simp
  | finished => simp [not_mem_enteringSignals]
  | @shown nodes k n hget hk hle hpass hfail =>
    have hsettling : .notice (.choiceSelected i text target) ∉
        p.settlingSignals p.conversation k n := by
      rw [settlingSignals]
      split
      · simp
      · exact hsignals n.changes
    have hshowing (s : Store) : .notice (.choiceSelected i text target) ∉
        showingSignals s p.conversation k n := by
      rw [showingSignals]
      split <;> simp
    simp [not_mem_enteringSignals, hsettling, hshowing]

/-- A node that was played anew had its changes applied. -/
theorem Settles.played (h : Settles p entering os q d) (hsound : p.story.Sound start)
    {place : Text × Nat} (hplace : place ∈ q.played) (hnew : place ∉ p.played) :
    ∃ n, p.story.node? place.1 place.2 = some n ∧ Announces os n.changes := by
  cases h with
  | missing | finished => exact absurd hplace hnew
  | @shown nodes k n hget hk hle hpass hfail =>
    have hn : n.Sound p.story := sound_of_get? hsound hget n (List.mem_of_getElem? hk)
    have hplayed : place ∈ ({ p with index := k }.settledAt p.conversation k n).played := by
      rw [onNode] at hplace
      split at hplace <;> exact hplace
    rw [settledAt] at hplayed
    split at hplayed
    · exact absurd hplayed hnew
    · next hexecuted =>
      obtain rfl : place = (p.conversation, k) := by
        rcases List.mem_append.mp hplayed with hold | hplace
        · exact absurd hold hnew
        · exact List.mem_singleton.mp hplace
      refine ⟨n, ?_, (Change.announces_signals hn.changes).mono fun o ho => ?_⟩
      · simp [Story.node?, hget, hk]
      · have hsettling : p.settlingSignals p.conversation k n = Change.signals n.changes :=
          if_neg hexecuted
        rw [hsettling]
        exact List.mem_append_right _ (List.mem_append_right _ (List.mem_append_left _ ho))

/-! ### Calls of a run -/

/-- A call that goes as the author meant it. It has an answer, except a tick that takes numbers too
large; everything it says is fine; and if it takes a choice or plays a node for the first time, it
announces that all their changes were applied. -/
structure Smooth (p : Player F) (m : Move F) : Prop where
  answered : ∀ e, (m.turn.alone p).2.2 = .error e → (∃ dt, m = .tick dt) ∧ e = .tooLarge
  fine : ∀ o ∈ (m.turn.alone p).1, o.IsFine
  choice : ∀ i text target, .notice (.choiceSelected i text target) ∈ (m.turn.alone p).1 →
    ∃ c, p.choiceAt i.toNat = .ok c ∧ Announces (m.turn.alone p).1 c.changes
  node : ∀ place ∈ (p.after m).played, place ∉ p.played →
    ∃ n, p.story.node? place.1 place.2 = some n ∧ Announces (m.turn.alone p).1 n.changes

/-- A step stays on track. -/
theorem Step.onTrack {m : Move F} {r : Except PlayFault Answer} (hstep : Step p m os q r)
    (h : OnTrack story start p) : OnTrack story start q := by
  refine ⟨h.sound, hstep.story.trans h.story_eq, hstep.coherent h.coherent, ?_⟩
  cases hstep with
  | idle | rejected | skipped | ticked | overrun | written => exact h.conversation
  | next hphase hsettles =>
    rw [hsettles.conversation, ← h.story_eq, ← forward_story]
    exact h.forward.2
  | taken hrefusal hchoice hsettles =>
    rw [hsettles.conversation, ← h.story_eq]
    exact (h.jump (h.sound_of_choiceAt hrefusal hchoice)).2

theorem Step.answered {m : Move F} {r : Except PlayFault Answer} (hstep : Step p m os q r)
    {e : PlayFault} (he : r = .error e) : (∃ dt, m = .tick dt) ∧ e = .tooLarge := by
  cases hstep with
  | idle | next | rejected | taken | skipped | ticked | written => cases he
  | @overrun dt htick =>
    cases he
    exact ⟨⟨dt, rfl⟩, rfl⟩

theorem Step.fine {m : Move F} {r : Except PlayFault Answer} (hstep : Step p m os q r)
    (h : OnTrack story start p) : ∀ o ∈ os, o.IsFine := by
  cases hstep with
  | idle | skipped | ticked | overrun | written => simp
  | rejected => simp [Signal.IsFine]
  | next hphase hsettles => exact hsettles.isFine h.forward.1 h.forward.2
  | taken hrefusal hchoice hsettles =>
    have hc := h.sound_of_choiceAt hrefusal hchoice
    intro o ho
    rcases List.mem_append.mp ho with ho | ho
    · exact Change.isFine_of_mem_signals hc.changes ho
    · rcases List.mem_cons.mp ho with rfl | ho
      · trivial
      · exact hsettles.isFine (h.jump hc).1 (h.jump hc).2 o ho

theorem Step.choice {m : Move F} {r : Except PlayFault Answer} (hstep : Step p m os q r)
    (h : OnTrack story start p) {i : Int} {text : Text} {target : Option Text}
    (hmem : .notice (.choiceSelected i text target) ∈ os) :
    ∃ c, p.choiceAt i.toNat = .ok c ∧ Announces os c.changes := by
  cases hstep with
  | idle | rejected | skipped | ticked | overrun | written => simp at hmem
  | next hphase hsettles => exact absurd hmem hsettles.not_mem_choiceSelected
  | @taken index c os q d hrefusal hchoice hsettles =>
    have hc := h.sound_of_choiceAt hrefusal hchoice
    have hindex : i = index := by
      rcases List.mem_append.mp hmem with hchanges | hmem
      · rw [Change.signals_of_isValid hc.changes] at hchanges
        split at hchanges <;> simp at hchanges
      · rcases List.mem_cons.mp hmem with heq | hsettling
        · cases heq
          rfl
        · exact absurd hsettling hsettles.not_mem_choiceSelected
    rw [hindex]
    exact ⟨c, hchoice, (Change.announces_signals hc.changes).mono fun o ho =>
      List.mem_append_left _ ho⟩

theorem Step.node {m : Move F} {r : Except PlayFault Answer} (hstep : Step p m os q r)
    (h : OnTrack story start p) {place : Text × Nat} (hplace : place ∈ q.played)
    (hnew : place ∉ p.played) :
    ∃ n, p.story.node? place.1 place.2 = some n ∧ Announces os n.changes := by
  cases hstep with
  | idle | rejected | skipped | ticked | overrun | written => exact absurd hplace hnew
  | next hphase hsettles =>
    have hplayed : p.forward.played = p.played := by
      rw [Player.forward]
      split <;> rfl
    rw [← forward_story]
    exact hsettles.played h.forward.1 hplace (hplayed ▸ hnew)
  | taken hrefusal hchoice hsettles =>
    have hc := h.sound_of_choiceAt hrefusal hchoice
    obtain ⟨n, hn, hannounces⟩ := hsettles.played (h.jump hc).1 hplace hnew
    exact ⟨n, hn, hannounces.mono fun o ho =>
      List.mem_append_right _ (List.mem_cons_of_mem _ ho)⟩

theorem OnTrack.exists_step (h : OnTrack story start p) (m : Move F) :
    ∃ os q r, m.turn.alone p = (os, q, r) ∧ Step p m os q r := by
  refine Player.exists_step ?_ h.coherent m
  rw [h.story_eq]
  exact h.sound.readable

theorem OnTrack.smooth (h : OnTrack story start p) (m : Move F) : Smooth p m := by
  obtain ⟨os, q, r, halone, hstep⟩ := h.exists_step m
  refine ⟨?_, ?_, ?_, ?_⟩
  · intro e he
    rw [halone] at he
    exact hstep.answered he
  · rw [halone]
    exact hstep.fine h
  · intro i text target hmem
    rw [halone] at hmem ⊢
    exact hstep.choice h hmem
  · intro place hplace hnew
    rw [after, halone] at hplace
    rw [halone]
    exact hstep.node h hplace hnew

theorem OnTrack.after (h : OnTrack story start p) (m : Move F) :
    OnTrack story start (p.after m) := by
  obtain ⟨os, q, r, halone, hstep⟩ := h.exists_step m
  rw [Player.after, halone]
  exact hstep.onTrack h

theorem onTrack_start (h : story.Sound start) (store : Store) (speed : F) :
    OnTrack story start (Player.start story start store speed) :=
  ⟨h, rfl, coherent_start story start store speed, h.start⟩

/-- **A story that was checked plays without a fault.** If the check from a start finds no error,
every call of every run from there is smooth: whatever the host does in whatever order, and whatever
store it begins with. -/
theorem smooth_of_check {issues : List Issue} (hcheck : story.check (some start) = .ok issues)
    (hclean : ∀ i ∈ issues, i.severity ≠ .error) (store : Store) (speed : F) (ms : List (Move F))
    (m : Move F) : Smooth ((Player.start story start store speed).afterAll ms) m := by
  have hsound : story.Sound start := Story.passes_check_iff.mp ⟨issues, hcheck, hclean⟩
  have htrack := afterAll_induction (P := OnTrack story start) (fun p m h => h.after m)
    (onTrack_start hsound store speed) ms
  exact htrack.smooth m

theorem smooth_of_check_gate :
    gate.check (some "gate".toList) =
        .ok [.emptyConversation "cellar".toList, .unreachable "cellar".toList] ∧
      Smooth ((Player.start gate "gate".toList .empty (Amount.whole 20)).afterAll
        [.advance, .advance, .select 0, .select 1, .advance]) (.select 0) := by
  have hcheck : gate.check (some "gate".toList) =
      .ok [.emptyConversation "cellar".toList, .unreachable "cellar".toList] := by decide
  exact ⟨hcheck, smooth_of_check hcheck (by decide) _ _ _ _⟩

end Player

end Parley
