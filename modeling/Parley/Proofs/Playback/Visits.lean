import Parley.Proofs.Playback.Announcements

/-!
# The order of announcements

Whoever listens to a player hears visits of conversations, joined by selections. A visit begins with
its conversation being entered, goes on with lines, and comes to rest at choices or at the end; it
may also fail at once, for a conversation that does not exist. Changes of variables are announced
right before what they belong to, a node or a selection. Only ignored selections may be announced
anywhere, and they are left out here.

`Lines`, `Visit` and `Lead` are the grammar. Nothing in them speaks of a player, so they say all
that a listener may rely on. `InStep` ties them to a player: it says what of the grammar was
produced so far in each phase, and that is what every move keeps.

## Main definitions

* `Lines`, `Visit`, `Lead` — lines, visits, and what leads to a visit
* `Player.InStep` — the announcements agree with the phase of the player

## Main results

* `Player.Settles.inStep` — settling produces a visit, or more of one
* `Player.Step.inStep`
* `Player.exists_visit_of_record_start` — what is announced in a run
-/

namespace Parley

/-! ### The grammar -/

/-- How a visit stands: lines may follow, choices are on screen, or the conversation is over. -/
inductive Standing where
  | talking
  | choosing (views : List ChoiceView)
  | over

/-- Nothing, or that variables have changed. -/
inductive Changed : List Notice → Prop where
  | nothing : Changed []
  | announced {es : List Text} {applied : Nat} : Changed [.variablesChanged es applied]

/-- Lines of one conversation in the order of their indices, all of them before `next`. -/
inductive Lines (id : Text) : Nat → List Notice → Prop where
  | none : Lines id 0 []
  | line {next index : Nat} {ns cs : List Notice} {speaker text : Text} (lines : Lines id next ns)
      (changed : Changed cs) (hle : next ≤ index) :
      Lines id (index + 1) (ns ++ (cs ++ [.lineShown speaker text id index]))

/-- A visit of one conversation. -/
inductive Visit (id : Text) : Standing → List Notice → Prop where
  | missing : Visit id .over [.conversationEnded id .missing]
  | lines {next : Nat} {ns : List Notice} (lines : Lines id next ns) :
      Visit id .talking (.conversationEntered id :: ns)
  | choices {next index : Nat} {ns cs : List Notice} {views : List ChoiceView}
      (lines : Lines id next ns) (changed : Changed cs) (hle : next ≤ index) :
      Visit id (.choosing views)
        (.conversationEntered id :: (ns ++ (cs ++ [.choicesShown views id index])))
  | finished {next : Nat} {ns : List Notice} (lines : Lines id next ns) :
      Visit id .over (.conversationEntered id :: (ns ++ [.conversationEnded id .finished]))

/-- What leads to a visit of a conversation: nothing at the start, and else a visit that came to
rest at choices, and the selection of an unlocked one. Its target is visited next, or the same
conversation again when it has none. -/
inductive Lead (start : Text) : Text → List Notice → Prop where
  | nothing : Lead start start []
  | selection {id text : Text} {ns vs cs : List Notice} {views : List ChoiceView} {i : Nat}
      {target : Option Text} (lead : Lead start id ns) (visit : Visit id (.choosing views) vs)
      (changed : Changed cs) (unlocked : views[i]? = some ⟨text, true⟩) :
      Lead start (target.getD id) (ns ++ (vs ++ (cs ++ [.choiceSelected i text target])))

/-- Whether a notice announces an ignored selection. -/
def Notice.isRejection : Notice → Bool
  | choiceRejected .. => true
  | _ => false

theorem Change.changed_notices (es : List Text) : Changed (notices es) := by
  rw [notices]
  split
  · exact .nothing
  · exact .announced

namespace Player

variable {F : Type} {p q : Player F} {start : Text} {ns before : List Notice}

/-! ### Announcements and the phase -/

/-- The announcements up to now agree with the phase of the player. -/
inductive InStep (start : Text) (p : Player F) : List Notice → Prop where
  | fresh (phase : p.phase = .atLine) (positioned : p.positioned = false)
      (conversation : p.conversation = start) : InStep start p []
  | atLine {before ls : List Notice} {next : Nat} {nodes : List Node} (phase : p.phase = .atLine)
      (positioned : p.positioned = true) (found : p.story.get? p.conversation = some nodes)
      (lead : Lead start p.conversation before) (lines : Lines p.conversation next ls)
      (hle : next ≤ p.index + 1) :
      InStep start p (before ++ .conversationEntered p.conversation :: ls)
  | atChoice {before vs : List Notice} (phase : p.phase = .atChoice)
      (lead : Lead start p.conversation before)
      (visit : Visit p.conversation (.choosing p.choices) vs) : InStep start p (before ++ vs)
  | ended {before vs : List Notice} (phase : p.phase = .ended)
      (lead : Lead start p.conversation before) (visit : Visit p.conversation .over vs) :
      InStep start p (before ++ vs)

/-- Neither the store nor how much of the text is revealed matters. -/
theorem InStep.of_scenery (h : InStep start p ns) (store : Store) (reveal : Reveal F) :
    InStep start { p with store, reveal } ns := by
  cases h with
  | fresh phase positioned conversation => exact .fresh phase positioned conversation
  | atLine phase positioned found lead lines hle =>
    exact .atLine phase positioned found lead lines hle
  | atChoice phase lead visit => exact .atChoice phase lead visit
  | ended phase lead visit => exact .ended phase lead visit

/-- What was announced is a visit and what led to it, or nothing. -/
theorem InStep.exists_visit (h : InStep start p ns) :
    ns = [] ∨
      ∃ id standing before vs, ns = before ++ vs ∧ Lead start id before ∧ Visit id standing vs := by
  cases h with
  | fresh => exact .inl rfl
  | atLine phase positioned found lead lines hle =>
    exact .inr ⟨_, _, _, _, rfl, lead, .lines lines⟩
  | atChoice phase lead visit => exact .inr ⟨_, _, _, _, rfl, lead, visit⟩
  | ended phase lead visit => exact .inr ⟨_, _, _, _, rfl, lead, visit⟩

/-- A choice on screen reads like the choice that is taken there. -/
theorem Coherent.text_eq (h : p.Coherent) (hphase : p.phase = .atChoice) {i : Nat} {v : ChoiceView}
    {c : Choice} (hview : p.choices[i]? = some v) (hchoice : p.choiceAt i = .ok c) :
    v.text = c.text := by
  cases h with
  | fresh phase | atLine phase | ended phase => exact absurd (hphase.symm.trans phase) (by decide)
  | @atChoice n phase node executed offers choices shows =>
    have htext : (n.options.map Choice.text)[i]? = some v.text := by
      rw [← choices, List.getElem?_map, hview, Option.map_some]
    obtain ⟨c', hc', htext⟩ := Option.map_eq_some_iff.mp (List.getElem?_map.symm.trans htext)
    obtain rfl : c' = c := Except.ok.inj ((choiceAt_of_getElem? node hc').symm.trans hchoice)
    exact htext.symm

variable [Tempo F] {entering : Bool} {os : List Signal} {d : Display}

/-! ### Settling produces a visit -/

/-- The player that shows a node is in step when the announcements end in that node. -/
theorem inStep_onNode {nodes : List Node} {index : Nat} {n : Node} {ls cs : List Notice}
    {next : Nat} (hpositioned : p.positioned = true) (hindex : p.index = index)
    (found : p.story.get? p.conversation = some nodes) (lead : Lead start p.conversation before)
    (lines : Lines p.conversation next ls) (changed : Changed cs) (hle : next ≤ index) :
    InStep start (p.onNode n)
      (before ++ .conversationEntered p.conversation ::
        (ls ++ (cs ++ [showingNotice p.store p.conversation index n]))) := by
  rw [onNode, showingNotice]
  cases n.offersChoices
  · refine .atLine rfl hpositioned found lead (.line lines changed hle) ?_
    show index + 1 ≤ p.index + 1
    rw [hindex]
  · exact .atChoice rfl lead (.choices lines changed hle)

/-- Settling in an existing conversation goes on with a visit: what it announces follows the lines
that were shown before, if none of them comes later than where it looks. -/
theorem Settles.inStep_of_lines (h : Settles p entering os q d) {nodes : List Node}
    (hget : p.story.get? p.conversation = some nodes) :
    ∃ rest,
      noticesIn os = (if entering then [.conversationEntered p.conversation] else []) ++ rest ∧
      ∀ start before next ls, Lead start p.conversation before →
        Lines p.conversation next ls → next ≤ p.index →
        InStep start q (before ++ .conversationEntered p.conversation :: (ls ++ rest)) := by
  cases h with
  | missing hmissing => rw [hget] at hmissing; cases hmissing
  | finished hget hfail =>
    refine ⟨[.conversationEnded p.conversation .finished], by simp, ?_⟩
    intro start before next ls lead lines hle
    exact .ended rfl lead (.finished lines)
  | @shown nodes k n hget hk hle hpass hfail =>
    have hchanged : Changed (if p.hasExecuted p.conversation k n then []
        else Change.notices n.changes) := by
      split
      · exact .nothing
      · exact Change.changed_notices n.changes
    refine ⟨(if p.hasExecuted p.conversation k n then [] else Change.notices n.changes) ++
      [showingNotice ({ p with index := k }.settledAt p.conversation k n).store p.conversation k n],
      by simp, ?_⟩
    intro start before next ls lead lines hnext
    have hshown := inStep_onNode (p := { p with index := k }.settledAt p.conversation k n)
      (n := n) (settledAt_positioned _ _ _ _) (settledAt_index _ _ _ _) (by simpa using hget)
      (by simpa using lead) (by simpa using lines) hchanged (hnext.trans hle)
    simpa using hshown

/-- **Entering a conversation produces a visit of it.** -/
theorem Settles.inStep (h : Settles p true os q d) (lead : Lead start p.conversation before) :
    InStep start q (before ++ noticesIn os) := by
  rcases hget : p.story.get? p.conversation with _ | nodes
  · cases h with
    | missing => exact .ended rfl lead .missing
    | finished hget' | shown hget' => rw [hget] at hget'; cases hget'
  · obtain ⟨rest, hrest, hstep⟩ := h.inStep_of_lines hget
    rw [hrest]
    exact hstep start before 0 [] lead .none (Nat.zero_le _)

theorem filter_changeNotices (es : List Text) :
    (Change.notices es).filter (!·.isRejection) = Change.notices es := by
  rw [Change.notices]
  split <;> rfl

theorem isRejection_showingNotice (s : Store) (conversation : Text) (index : Nat) (n : Node) :
    (showingNotice s conversation index n).isRejection = false := by
  rw [showingNotice]
  split <;> rfl

/-- Settling rejects nothing. -/
theorem Settles.filter_notices (h : Settles p entering os q d) :
    (noticesIn os).filter (!·.isRejection) = noticesIn os := by
  cases h with
  | missing => rfl
  | finished => cases entering <;> simp [Notice.isRejection]
  | @shown nodes k n =>
    have hentered : Notice.isRejection (.conversationEntered p.conversation) = false := rfl
    cases entering <;> cases hexecuted : p.hasExecuted p.conversation k n <;>
      simp [hexecuted, hentered, filter_changeNotices, isRejection_showingNotice]

/-! ### Moves and runs -/

/-- **A step keeps the announcements in step**, ignored selections left out. -/
theorem Step.inStep {m : Move F} {r : Except PlayFault Answer} (hstep : Step p m os q r)
    (hp : p.Coherent) (h : InStep start p ns) :
    InStep start q (ns ++ (noticesIn os).filter (!·.isRejection)) := by
  cases hstep with
  | idle | overrun | rejected =>
    simpa [Notice.isRejection] using h
  | skipped => simpa [skipReveal] using h.of_scenery p.store p.reveal.skip
  | ticked => simpa using h.of_scenery p.store _
  | written => simpa using h.of_scenery _ p.reveal
  | next hphase hsettles =>
    rw [hsettles.filter_notices]
    cases h with
    | atChoice phase | ended phase => exact absurd (hphase.symm.trans phase) (by decide)
    | fresh phase positioned conversation =>
      have hforward : p.forward = p := by
        rw [forward, positioned, if_neg Bool.false_ne_true]
      rw [hforward, positioned] at hsettles
      refine hsettles.inStep ?_
      rw [conversation]
      exact .nothing
    | @atLine before ls next nodes phase positioned found lead lines hle =>
      have hforward : p.forward = { p with index := p.index + 1 } := by
        rw [forward, if_pos positioned]
      rw [hforward, positioned] at hsettles
      obtain ⟨rest, hrest, hvisit⟩ := hsettles.inStep_of_lines found
      rw [hrest, List.append_assoc]
      exact hvisit start before next ls lead lines hle
  | @taken index c os q d hrefusal hchoice hsettles =>
    obtain ⟨hphase, hle, v, hview, hunlocked⟩ := refusal?_eq_none_iff.mp hrefusal
    cases h with
    | fresh phase | atLine phase | ended phase => exact absurd (hphase.symm.trans phase) (by decide)
    | @atChoice before vs phase lead visit =>
      have hentry : p.choices[index.toNat]? = some ⟨c.text, true⟩ := by
        rw [hview, ← hp.text_eq hphase hview hchoice, ← hunlocked]
      have hlead : Lead start (p.jump c).conversation _ :=
        .selection lead visit (Change.changed_notices c.changes) hentry
      have hvisit := hsettles.inStep hlead
      rw [Int.toNat_of_nonneg hle] at hvisit
      rw [noticesIn_append, noticesIn_signals, noticesIn_cons_notice, List.filter_append,
        filter_changeNotices, List.filter_cons, hsettles.filter_notices]
      simpa [Notice.isRejection] using hvisit

/-- **Announcements come in visits, joined by selections.** Whatever the host does in whatever
order, from the start of a readable story: what is announced, ignored selections left out, is
nothing, or a visit and what led to it. -/
theorem exists_visit_of_record_start {story : Story} (hread : story.Readable) (conversation : Text)
    (store : Store) (speed : F) (ms : List (Move F)) :
    let ns := (record noticesOf (Player.start story conversation store speed) ms).filter
      (!·.isRejection)
    ns = [] ∨
      ∃ id standing before vs,
        ns = before ++ vs ∧ Lead conversation id before ∧ Visit id standing vs := by
  refine InStep.exists_visit (p := (Player.start story conversation store speed).afterAll ms) ?_
  refine record_start_induction (g := fun _ ns => ns)
    (P := fun p ns => InStep conversation p (ns.filter (!·.isRejection))) hread
    (.fresh rfl rfl rfl) ?_ ms
  intro p q m os r ns hp hstep hinStep
  rw [List.filter_append]
  exact hstep.inStep hp hinStep

/-- Two rounds at the gate. In the first one paying is refused, which is left out. -/
def twoRounds : List Notice :=
  (record noticesOf (Player.start gate "gate".toList .empty (Amount.whole 20))
    [.advance, .advance, .select 0, .select 1, .advance, .select 0, .advance]).filter
    (!·.isRejection)

/-- What is announced in the first round, where a coin is found. -/
def firstRound : List Notice :=
  .conversationEntered "gate".toList ::
    ([.variablesChanged ["coins += 1".toList] 1,
        .lineShown "Guard".toList "Halt.".toList "gate".toList 0] ++
      [.choicesShown [⟨"Pay".toList, false⟩, ⟨"Wait".toList, true⟩] "gate".toList 1])

/-- What is announced in the second round, where nothing is found any more. -/
def secondRound : List Notice :=
  .conversationEntered "gate".toList ::
    ([.lineShown "Guard".toList "Halt.".toList "gate".toList 0] ++
      [.choicesShown [⟨"Pay".toList, true⟩, ⟨"Wait".toList, true⟩] "gate".toList 1])

/-- What is announced at the court. -/
def welcome : List Notice :=
  .conversationEntered "court".toList ::
    ([.lineShown "Page".toList "Welcome.".toList "court".toList 0] ++
      [.conversationEnded "court".toList .finished])

/-- There are three visits, joined by waiting and by paying. -/
theorem exists_visit_of_record_start_gate :
    gate.Readable ∧
      twoRounds = firstRound ++
        ([.variablesChanged ["coins += 1".toList] 1, .choiceSelected 1 "Wait".toList none] ++
          (secondRound ++
            ([.variablesChanged ["coins -= 2".toList, "open = true".toList] 2,
                .choiceSelected 0 "Pay".toList (some "court".toList)] ++
              welcome))) ∧
      (∃ id standing before vs, twoRounds = before ++ vs ∧ Lead "gate".toList id before ∧
        Visit id standing vs) ∧
      Visit "gate".toList (.choosing [⟨"Pay".toList, false⟩, ⟨"Wait".toList, true⟩]) firstRound ∧
      Visit "gate".toList (.choosing [⟨"Pay".toList, true⟩, ⟨"Wait".toList, true⟩]) secondRound ∧
      Visit "court".toList .over welcome := by
  have hread : gate.Readable := by decide
  have hrecord : twoRounds ≠ [] := by decide
  exact ⟨hread, by decide,
    (exists_visit_of_record_start hread _ _ _ _).resolve_left hrecord,
    .choices (.line .none .announced le_rfl) .nothing le_rfl,
    .choices (.line .none .nothing le_rfl) .nothing le_rfl,
    .finished (.line .none .nothing le_rfl)⟩

end Player

end Parley
