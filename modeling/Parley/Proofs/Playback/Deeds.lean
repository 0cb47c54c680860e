import Parley.Proofs.Playback.Announcements

/-!
# Deeds, and the store they account for

Whoever watches a player sees its host write variables, and hears which places it reaches and which
choices are taken. These are the deeds of a run. Together with the story they account for the store:
a place adds the changes of its node when it is reached for the first time, a choice adds its
changes every time it is taken, and nothing else adds anything.

Which node a place has and which choice is taken is looked up in the story and in the deeds before.
The player is not asked, so a player that kept a record of its own and lost track of it would be
found out here.

## Main definitions

* `Deed`, `Player.deedsOf` — what is seen of a move
* `storeAfter` — the store that deeds account for
* `Player.Accounted` — the deeds account for the store and for which nodes were executed

## Main results

* `Player.Settles.accounted`, `Player.Step.accounted` — settling and a step keep the account
* `Player.store_afterAll_start` — the store after a run, and which nodes were executed in it
-/

namespace Parley

/-- What is seen of a player: its host writes a variable, or it reaches a place or takes the choice
at an index of the node it is at. -/
inductive Deed where
  | setNumber (name : Text) (n : Int)
  | setFlag (name : Text) (b : Bool)
  | clearStore
  | reached (place : Text × Nat)
  | took (index : Nat)
  deriving DecidableEq, Repr

/-! ### What deeds account for -/

/-- The place that a deed reaches, if it does. -/
def Deed.place? : Deed → Option (Text × Nat)
  | reached place => some place
  | _ => none

/-- The places reached, in order. -/
def places (ds : List Deed) : List (Text × Nat) := ds.filterMap Deed.place?

@[simp] theorem places_nil : places [] = [] := rfl

@[simp] theorem places_append (ds ds' : List Deed) : places (ds ++ ds') = places ds ++ places ds' :=
  List.filterMap_append

@[simp] theorem places_reached (place : Text × Nat) : places [.reached place] = [place] := rfl

@[simp] theorem places_took (index : Nat) : places [.took index] = [] := rfl

/-- The changes that come with reaching a place: those of its node, unless the place was reached
before, or the story says that they were made already. -/
def reachedChanges (story : Story) (earlier : List Deed) (place : Text × Nat) : List Text :=
  match story.node? place.1 place.2 with
  | none => []
  | some n => if n.executed || (places earlier).contains place then [] else n.changes

/-- The changes that come with taking a choice, of the node at the place reached last. -/
def tookChanges (story : Story) (earlier : List Deed) (index : Nat) : List Text :=
  let choice? := do
    let place ← (places earlier).getLast?
    let n ← story.node? place.1 place.2
    n.options[index]?
  choice?.elim [] Choice.changes

/-- What a deed makes of the store, after earlier deeds. -/
def Deed.effect (story : Story) (earlier : List Deed) (s : Store) : Deed → Store
  | setNumber name n => s.setNumber name n
  | setFlag name b => s.setFlag name b
  | clearStore => .empty
  | reached place => (Change.applyAll (reachedChanges story earlier place) s).1
  | took index => (Change.applyAll (tookChanges story earlier index) s).1

/-- The store that deeds account for, one after the other. -/
def storeAfter (story : Story) (earlier : List Deed) (s : Store) : List Deed → Store
  | [] => s
  | d :: ds => storeAfter story (earlier ++ [d]) (d.effect story earlier s) ds

theorem storeAfter_concat (story : Story) (earlier : List Deed) (s : Store) (ds : List Deed)
    (d : Deed) :
    storeAfter story earlier s (ds ++ [d]) =
      d.effect story (earlier ++ ds) (storeAfter story earlier s ds) := by
  induction ds generalizing earlier s with
  | nil => rw [List.nil_append, storeAfter, storeAfter, storeAfter, List.append_nil]
  | cons e ds ih => rw [List.cons_append, storeAfter, ih, storeAfter, List.append_assoc]; rfl

/-! ### Which deeds a move does -/

/-- The deed that a notice tells of, if it does. -/
def Notice.deed? : Notice → Option Deed
  | lineShown _ _ conversation index => some (.reached (conversation, index))
  | choicesShown _ conversation index => some (.reached (conversation, index))
  | choiceSelected index _ _ => some (.took index.toNat)
  | _ => none

/-- The deeds that notices tell of. -/
def deedsIn (ns : List Notice) : List Deed := ns.filterMap Notice.deed?

@[simp] theorem deedsIn_nil : deedsIn [] = [] := rfl

@[simp] theorem deedsIn_append (ns ns' : List Notice) :
    deedsIn (ns ++ ns') = deedsIn ns ++ deedsIn ns' := List.filterMap_append

@[simp] theorem deedsIn_entered (conversation : Text) (ns : List Notice) :
    deedsIn (.conversationEntered conversation :: ns) = deedsIn ns := rfl

@[simp] theorem deedsIn_ended (conversation : Text) (why : EndReason) (ns : List Notice) :
    deedsIn (.conversationEnded conversation why :: ns) = deedsIn ns := rfl

@[simp] theorem deedsIn_rejected (index : Int) (why : Refusal) (ns : List Notice) :
    deedsIn (.choiceRejected index why :: ns) = deedsIn ns := rfl

@[simp] theorem deedsIn_selected (index : Int) (text : Text) (target : Option Text)
    (ns : List Notice) :
    deedsIn (.choiceSelected index text target :: ns) = .took index.toNat :: deedsIn ns := rfl

@[simp] theorem deedsIn_changeNotices (es : List Text) : deedsIn (Change.notices es) = [] := by
  rw [Change.notices]
  split <;> rfl

namespace Player

variable {F : Type} {p q : Player F}

@[simp] theorem deedsIn_showingNotice (s : Store) (conversation : Text) (index : Nat) (n : Node) :
    deedsIn [showingNotice s conversation index n] = [.reached (conversation, index)] := by
  rw [showingNotice]
  split <;> rfl

/-- The deed of a host that writes variables. -/
def Move.deed? : Move F → Option Deed
  | setNumber name n => some (.setNumber name n)
  | setFlag name b => some (.setFlag name b)
  | clearStore => some .clearStore
  | _ => none

/-- The deeds that are seen of a move. -/
def deedsOf [Tempo F] (p : Player F) (m : Move F) : List Deed :=
  m.deed?.toList ++ deedsIn (p.noticesOf m)

/-! ### The account of a player -/

/-- The deeds account for the player: for its store, for which nodes are executed, and at choices
also for where it is. -/
structure Accounted (story : Story) (store : Store) (p : Player F) (ds : List Deed) : Prop where
  story_eq : p.story = story
  store_eq : p.store = storeAfter story [] store ds
  executed {conversation : Text} {index : Nat} {n : Node}
    (hnode : story.node? conversation index = some n) :
    p.hasExecuted conversation index n = (n.executed || (places ds).contains (conversation, index))
  place (hphase : p.phase = .atChoice) : (places ds).getLast? = some (p.conversation, p.index)

variable {story : Story} {store : Store} {ds : List Deed}

theorem accounted_start [Tempo F] (story : Story) (conversation : Text) (store : Store)
    (speed : F) : Accounted story store (start story conversation store speed) [] :=
  ⟨rfl, rfl, fun _ => rfl, fun hphase => absurd hphase (by decide : Phase.atLine ≠ .atChoice)⟩

/-- The changes of a choice that is taken are those that its deed accounts for. -/
theorem Accounted.tookChanges_eq (h : Accounted story store p ds) (hphase : p.phase = .atChoice)
    {i : Nat} {c : Choice} (hchoice : p.choiceAt i = .ok c) :
    tookChanges story ds i = c.changes := by
  obtain ⟨n, hnode, hc⟩ := getElem?_options_of_choiceAt hchoice
  rw [h.story_eq] at hnode
  simp [tookChanges, h.place hphase, hnode, hc]

/-- Following a choice keeps the account. -/
theorem Accounted.jump (h : Accounted story store p ds) (hphase : p.phase = .atChoice) {i : Nat}
    {c : Choice} (hchoice : p.choiceAt i = .ok c) :
    Accounted story store (p.jump c) (ds ++ [.took i]) where
  story_eq := h.story_eq
  store_eq := by
    rw [storeAfter_concat, List.nil_append, ← h.store_eq, Deed.effect,
      h.tookChanges_eq hphase hchoice]
    rfl
  executed hnode := by
    rw [places_append, places_took, List.append_nil]
    exact h.executed hnode
  place hline := absurd hline (by decide : Phase.atLine ≠ .atChoice)

/-- What a write of the host does to the store is what its deed accounts for. -/
theorem Accounted.written (hp : Accounted story store p ds) {m : Move F} {s : Store}
    (hwritten : m.written? p.store = some s) :
    Accounted story store { p with store := s } (ds ++ m.deed?.toList) := by
  obtain ⟨deed, hdeed, hplace, heffect⟩ :
      ∃ deed, m.deed? = some deed ∧ places [deed] = [] ∧ deed.effect story ds p.store = s := by
    cases m with
    | setNumber | setFlag | clearStore => exact ⟨_, rfl, rfl, Option.some.inj hwritten⟩
    | advance | select | skip | tick => cases hwritten
  rw [hdeed, Option.toList_some]
  refine ⟨hp.story_eq, ?_, fun hnode => ?_, fun hphase => ?_⟩
  · rw [storeAfter_concat, List.nil_append, ← hp.store_eq, heffect]
  · rw [places_append, hplace, List.append_nil]
    exact hp.executed hnode
  · rw [places_append, hplace, List.append_nil]
    exact hp.place hphase

/-- How much of the text is revealed is of no account. -/
theorem Accounted.revealing (hp : Accounted story store p ds) (reveal : Reveal F) :
    Accounted story store { p with reveal } ds :=
  ⟨hp.story_eq, hp.store_eq, hp.executed, hp.place⟩

/-- Looking for the next node does not change the account. -/
theorem Accounted.forward (hp : Accounted story store p ds) (hphase : p.phase = .atLine) :
    Accounted story store p.forward ds := by
  rw [Player.forward]
  split
  · exact ⟨hp.story_eq, hp.store_eq, hp.executed,
      fun hchoice => absurd (hphase.symm.trans hchoice) (by decide)⟩
  · exact hp

/-! ### Settling and steps -/

/-- Which nodes are executed once the player has settled on one. -/
theorem hasExecuted_settledAt_of_node? {c : Text} {k : Nat} {n : Node}
    (hn : p.story.node? c k = some n) {c' : Text} {k' : Nat} {m : Node}
    (hm : p.story.node? c' k' = some m) :
    (p.settledAt c k n).hasExecuted c' k' m =
      (p.hasExecuted c' k' m || (c', k') == (c, k)) := by
  rw [settledAt]
  by_cases hplace : (c', k') = (c, k)
  · obtain ⟨rfl, rfl⟩ := Prod.mk.inj hplace
    obtain rfl : m = n := Option.some.inj (hm.symm.trans hn)
    split
    · rename_i hexecuted
      rw [show (p.hasExecuted c' k' m) = true from hexecuted]
      exact hexecuted
    · simp [hasExecuted]
  · have hne : ((c', k') == (c, k)) = false := by simpa using hplace
    rw [hne, Bool.or_false]
    split
    · rfl
    · simp [hasExecuted, hplace]

@[simp] theorem settledAt_store (p : Player F) (c : Text) (k : Nat) (n : Node) :
    (p.settledAt c k n).store =
      (Change.applyAll (if p.hasExecuted c k n then [] else n.changes) p.store).1 := by
  rw [settledAt]
  split <;> rfl

variable [Tempo F] {entering : Bool} {os : List Signal} {d : Display}

/-- Ending keeps the account. -/
theorem Accounted.ending (h : Accounted story store p ds) (index : Nat) (d : Display) :
    Accounted story store ({ p with index }.showing .ended [] d) ds where
  story_eq := h.story_eq
  store_eq := h.store_eq
  executed := h.executed
  place hphase := absurd hphase (by decide : Phase.ended ≠ .atChoice)

@[simp] theorem onNode_store (p : Player F) (n : Node) : (p.onNode n).store = p.store := by
  rw [onNode]
  split <;> rfl

@[simp] theorem onNode_story (p : Player F) (n : Node) : (p.onNode n).story = p.story := by
  rw [onNode]
  split <;> rfl

theorem onNode_place (p : Player F) (n : Node) :
    ((p.onNode n).conversation, (p.onNode n).index) = (p.conversation, p.index) := by
  rw [onNode]
  split <;> rfl

theorem hasExecuted_onNode (p : Player F) (n : Node) (c : Text) (k : Nat) (m : Node) :
    (p.onNode n).hasExecuted c k m = p.hasExecuted c k m := by
  rw [onNode]
  split <;> rfl

/-- Showing a node keeps the account. -/
theorem Accounted.onNode (h : Accounted story store p ds) {k : Nat} {n : Node}
    (hnode : p.story.node? p.conversation k = some n) :
    Accounted story store (({ p with index := k }.settledAt p.conversation k n).onNode n)
      (ds ++ [.reached (p.conversation, k)]) where
  story_eq := by simpa using h.story_eq
  store_eq := by
    have hstory := hnode
    rw [h.story_eq] at hstory
    have hchanges : reachedChanges story ds (p.conversation, k) =
        if p.hasExecuted p.conversation k n then [] else n.changes := by
      rw [h.executed hstory, reachedChanges, hstory]
    rw [storeAfter_concat, List.nil_append, Deed.effect, hchanges, ← h.store_eq, onNode_store,
      settledAt_store]
    rfl
  executed {c i m} hm := by
    have hat : p.story.node? c i = some m := h.story_eq ▸ hm
    rw [hasExecuted_onNode, hasExecuted_settledAt_of_node? (p := { p with index := k }) hnode hat]
    show (p.hasExecuted c i m || (c, i) == (p.conversation, k)) = _
    rw [h.executed hm, Bool.or_assoc, places_append, places_reached, List.contains_append,
      List.contains_cons, List.contains_nil, Bool.or_false]
  place _ := by simp [onNode_place]

/-- **Settling keeps the account.** -/
theorem Settles.accounted (h : Settles p entering os q d) (hp : Accounted story store p ds) :
    Accounted story store q (ds ++ deedsIn (noticesIn os)) := by
  cases h with
  | missing => simpa using hp.ending p.index _
  | finished => cases entering <;> simpa using hp.ending _ _
  | @shown nodes k n hget hk =>
    have hnode : p.story.node? p.conversation k = some n := by simp [Story.node?, hget, hk]
    have hdeeds : deedsIn (if p.hasExecuted p.conversation k n then []
        else Change.notices n.changes) = [] := by
      split
      · rfl
      · exact deedsIn_changeNotices n.changes
    cases entering <;> simpa [hdeeds] using hp.onNode hnode

/-- **A step keeps the account.** -/
theorem Step.accounted {m : Move F} {r : Except PlayFault Answer} (h : Step p m os q r)
    (hp : Accounted story store p ds) :
    Accounted story store q (ds ++ (m.deed?.toList ++ deedsIn (noticesIn os))) := by
  cases h with
  | idle | overrun | rejected => simpa [Move.deed?] using hp
  | skipped => simpa [Move.deed?, skipReveal] using hp.revealing p.reveal.skip
  | ticked => simpa [Move.deed?] using hp.revealing _
  | written hwritten => simpa using hp.written hwritten
  | next hphase hsettles => simpa [Move.deed?] using hsettles.accounted (hp.forward hphase)
  | taken hrefusal hchoice hsettles =>
    have hphase := (refusal?_eq_none_iff.mp hrefusal).1
    simpa [Move.deed?] using hsettles.accounted (hp.jump hphase hchoice)

/-! ### Runs -/

theorem accounted_afterAll {story : Story} (hread : story.Readable) (conversation : Text)
    (store : Store) (speed : F) (ms : List (Move F)) :
    Accounted story store ((Player.start story conversation store speed).afterAll ms)
      (record deedsOf (Player.start story conversation store speed) ms) :=
  record_start_induction (g := fun m ns => m.deed?.toList ++ deedsIn ns) hread
    (accounted_start story conversation store speed) (fun _ hstep hp => hstep.accounted hp) ms

/-- **The deeds of a run account for the store and for which nodes are executed.** Whatever the host
does in whatever order, from the start of a readable story: the store is what the writes of the
host, the first time that each place is reached and every choice that is taken make of it, and
nothing else. A node is executed if the story says so or its place was reached, and it stays
executed. -/
theorem store_afterAll_start {story : Story} (hread : story.Readable) (conversation : Text)
    (store : Store) (speed : F) (ms : List (Move F)) :
    let p := Player.start story conversation store speed
    let ds := record deedsOf p ms
    (p.afterAll ms).store = storeAfter story [] store ds ∧
      ∀ c i n, story.node? c i = some n →
        ((p.afterAll ms).hasExecuted c i n = true ↔ n.executed = true ∨ (c, i) ∈ places ds) ∧
        ((p.afterAll ms).hasExecuted c i n = true →
          ∀ ms', (p.afterAll (ms ++ ms')).hasExecuted c i n = true) := by
  intro p ds
  have hexecuted (ms : List (Move F)) {c i n} (hnode : story.node? c i = some n) :
      (p.afterAll ms).hasExecuted c i n = true ↔
        n.executed = true ∨ (c, i) ∈ places (record deedsOf p ms) := by
    rw [(accounted_afterAll hread conversation store speed ms).executed hnode, Bool.or_eq_true,
      List.contains_iff_mem]
  refine ⟨(accounted_afterAll hread conversation store speed ms).store_eq, fun c i n hnode => ?_⟩
  refine ⟨hexecuted ms hnode, fun h ms' => (hexecuted _ hnode).mpr ?_⟩
  rw [record_append, places_append, List.mem_append]
  exact ((hexecuted ms hnode).mp h).imp_right .inl

/-- A round of waiting and then paying, with the host writing variables in between. -/
theorem store_afterAll_start_gate :
    gate.Readable ∧
      let p := Player.start gate "gate".toList .empty (Amount.whole 20)
      let ms := [.advance, .advance, .select 1, .advance, .setFlag "open".toList false, .select 0,
        .clearStore, .advance]
      let ds := record deedsOf p ms
      (p.afterAll ms).store = storeAfter gate [] .empty ds ∧
        ∀ c i n, gate.node? c i = some n →
          ((p.afterAll ms).hasExecuted c i n = true ↔ n.executed = true ∨ (c, i) ∈ places ds) ∧
          ((p.afterAll ms).hasExecuted c i n = true →
            ∀ ms', (p.afterAll (ms ++ ms')).hasExecuted c i n = true) := by
  have h : gate.Readable := by decide
  exact ⟨h, store_afterAll_start h _ _ _ _⟩

/-- The gate is passed with the coin of its first line, found once, and that of one round of
waiting. -/
example :
    (storeAfter gate [] .empty
      (record deedsOf (Player.start gate "gate".toList .empty (Amount.whole 20))
        [.advance, .advance, .select 1, .advance])).number "coins".toList 0 = 2 := by
  decide

end Player

end Parley
