import Parley.Proofs.Alone
import Parley.Proofs.Playback.Announcements

/-!
# Playing a story that cannot be read

In a story with numbers that are too long a turn may fail anywhere, and leave the player where it
failed. Much less holds of such a player than that it is coherent, but it is enough to see what can
go wrong at all: whenever choices are on screen, they are those of the current node. So a choice
that is not refused can be found, and the only failures left are numbers.

The contract of a turn, `playTerms`, is said once: what it may fail with, and that it shows only
what has passed. A turn in the middle of settling has no choices on screen, wherever it fails.

## Main definitions

* `Player.Appear` — how choices appear in a store
* `Player.Grounded` — the invariant of playing any story
* `Player.playTerms` — what a turn may say and fail with

## Main results

* `Player.yields_move` — a move of any story
* `Player.grounded_afterAll_start`, `Player.apt_of_mem_record` — runs of any story
-/

namespace Parley.Player

variable {F α β : Type} {p : Player F} {story : Story}

/-- How choices appear in a store: each is unlocked if its condition holds there. -/
def Appear (s : Store) (cs : List Choice) (views : List ChoiceView) : Prop :=
  List.Forall₂ (fun c v => v.text = c.text ∧ Condition.holds s c.condition = .ok v.unlocked)
    cs views

theorem appear_of_viewsOf {s : Store} {cs : List Choice} {views : List ChoiceView}
    (h : viewsOf s cs = .ok views) : Appear s cs views := by
  induction cs generalizing views with
  | nil => exact Except.ok.inj h ▸ .nil
  | cons c cs ih =>
    rw [viewsOf] at h
    rcases hcondition : Condition.holds s c.condition with e | unlocked
    · simp [hcondition] at h
    · rcases hrest : viewsOf s cs with e | rest
      · simp [hcondition, hrest, Except.map] at h
      · rw [hcondition, hrest] at h
        exact Except.ok.inj h ▸ .cons ⟨rfl, hcondition⟩ (ih hrest)

/-- The choices on screen are those of the current node, as they appear in some store. -/
structure Offering (p : Player F) : Prop where
  phase : p.phase = .atChoice
  positioned : p.positioned = true
  views : ∃ n s, p.story.node? p.conversation p.index = some n ∧ Appear s n.options p.choices

/-- The player plays the story, and has choices of its current node on screen or none at all. -/
structure Grounded (story : Story) (p : Player F) : Prop where
  story_eq : p.story = story
  choices : p.choices = [] ∨ p.Offering

/-- A node passes in some store. -/
def Passable (n : Node) : Prop := ∃ s, Condition.holds s n.condition = .ok true

/-- What is shown is a node of the story that has passed, and choices are shown as they appear in
some store. -/
def Apt (story : Story) : Notice → Prop
  | .lineShown _ _ conversation index =>
    ∃ n, story.node? conversation index = some n ∧ Passable n
  | .choicesShown views conversation index =>
    ∃ n, story.node? conversation index = some n ∧ Passable n ∧ ∃ s, Appear s n.options views
  | _ => True

/-- What a turn may say, and that it fails with overlong numbers only. -/
def playTerms (story : Story) : Terms (Player F) Signal PlayFault where
  allows o := ∀ n, o = .notice n → Apt story n
  fails p e := Grounded story p ∧ ∃ o, e = .overlong o

/-- The player has nothing on screen to choose from. -/
structure Clear (story : Story) (p : Player F) : Prop where
  story_eq : p.story = story
  choices : p.choices = []

theorem Grounded.clear (h : Grounded story p) (hphase : p.phase ≠ .atChoice) : Clear story p :=
  ⟨h.story_eq, h.choices.resolve_right fun hoffering => hphase hoffering.phase⟩

/-- Neither the store nor the text matters. -/
theorem Grounded.of_scenery (h : Grounded story p) (store : Store) (reveal : Reveal F) :
    Grounded story { p with store, reveal } :=
  ⟨h.story_eq, h.choices.imp_right fun h => ⟨h.phase, h.positioned, h.views⟩⟩

/-! ### Choices on screen can be taken -/

/-- **A choice that is not refused can be found**, also in a story that cannot be read. -/
theorem Grounded.exists_choiceAt (h : Grounded story p) {index : Int}
    (hrefusal : p.refusal? index = none) : ∃ c, p.choiceAt index.toNat = .ok c := by
  obtain ⟨hphase, -, v, hview, -⟩ := refusal?_eq_none_iff.mp hrefusal
  have hopen : p.choices ≠ [] := fun hnil => by simp [hnil] at hview
  obtain ⟨-, hpositioned, n, s, hnode, hviews⟩ := h.choices.resolve_left hopen
  have hcurrent : p.currentNode? =
      some { n with executed := p.hasExecuted p.conversation p.index n } := by
    have hshown : (p.isEnded || !p.positioned) = false := by simp [isEnded, hphase, hpositioned]
    rw [currentNode?, hshown, if_neg Bool.false_ne_true, hnode, Option.map_some]
  obtain ⟨hindex, -⟩ := List.getElem?_eq_some_iff.mp hview
  rw [← hviews.length_eq] at hindex
  exact ⟨_, choiceAt_of_getElem? hcurrent (List.getElem?_eq_getElem hindex)⟩

/-! ### One contract for each turn -/

theorem yields_remark (rs : List Remark) (p : Player F) :
    (remark rs).Yields (playTerms story) p fun _ q => q = p := by
  induction rs with
  | nil => exact Turn.yields_pure rfl
  | cons r rs ih =>
    have hapt : ∀ n, Signal.remark r = .notice n → Apt story n := nofun
    exact (Turn.yields_say hapt).still_bind fun _ => ih

theorem yields_announce {n : Notice} (h : Apt story n) (p : Player F) :
    (announce n).Yields (playTerms story) p fun _ q => q = p :=
  Turn.yields_say fun _ hn => Signal.notice.inj hn ▸ h

theorem yields_lift_bind {r : Except Overlong α} {f : α → PlayerTurn F β} {Q : β → Player F → Prop}
    (hp : Grounded story p) (hf : ∀ a, r = .ok a → (f a).Yields (playTerms story) p Q) :
    (lift r >>= f).Yields (playTerms story) p Q := by
  cases r with
  | ok a => exact hf a rfl
  | error e => exact Turn.yields_fail ⟨hp, e, rfl⟩

/-- Changes write the store, and nothing else. -/
theorem yields_applyChanges (es : List Text) (hp : Grounded story p) :
    (applyChanges es).Yields (playTerms story) p fun _ q => ∃ s, q = { p with store := s } := by
  rw [applyChanges]
  split
  · exact Turn.yields_pure ⟨p.store, rfl⟩
  · refine Turn.Yields.get_bind (Turn.Yields.modify_bind ?_)
    have hwritten := hp.of_scenery (Change.applyAll es p.store).1 p.reveal
    refine (yields_remark _ _).still_bind fun _ => ?_
    refine yields_lift_bind hwritten fun applied _ => ?_
    split
    · exact Turn.yields_pure ⟨_, rfl⟩
    · refine (yields_announce (n := .variablesChanged es applied) trivial _).mono (fun _ => id)
        (fun _ _ => id) fun _ q hq => ⟨_, hq⟩

theorem exists_of_scan {s : Store} {ns : List Node} {i k : Nat} {n : Node}
    (h : scan s i ns = (k, .ok (some n))) : ∃ j, k = i + j ∧ ns[j]? = some n ∧ Passable n := by
  induction ns generalizing i with
  | nil => simp [scan] at h
  | cons m ns ih =>
    rw [scan] at h
    rcases hcondition : Condition.holds s m.condition with e | _ | _
    · simp [hcondition] at h
    · rw [hcondition] at h
      obtain ⟨j, rfl, hn, hpass⟩ := ih h
      exact ⟨j + 1, by omega, by rwa [List.getElem?_cons_succ], hpass⟩
    · rw [hcondition] at h
      obtain ⟨rfl, hn⟩ := Prod.mk.inj h
      obtain rfl := Option.some.inj (Except.ok.inj hn)
      exact ⟨0, rfl, rfl, s, hcondition⟩

variable [Tempo F]

theorem yields_finish (why : EndReason) (hstory : p.story = story) :
    (finish why).Yields (playTerms story) p fun _ => Grounded story := by
  rw [finish]
  refine Turn.Yields.modify_bind (Turn.Yields.get_bind ?_)
  refine (yields_announce (n := .conversationEnded _ why) trivial _).still_bind fun _ => ?_
  exact Turn.Yields.modify_bind (Turn.yields_pure ⟨hstory, .inl rfl⟩)

/-- The player is at a node of the story that has passed. -/
structure Arrived (story : Story) (p : Player F) (n : Node) : Prop extends Clear story p where
  node : p.story.node? p.conversation p.index = some n
  passable : Passable n

theorem yields_presentLine {n : Node} (h : Arrived story p n) :
    (presentLine n).Yields (playTerms story) p fun _ => Grounded story := by
  have hapt : Apt story (.lineShown n.speaker n.text p.conversation p.index) :=
    ⟨n, h.story_eq ▸ h.node, h.passable⟩
  rw [presentLine]
  refine Turn.Yields.modify_bind (Turn.Yields.get_bind ?_)
  refine (yields_announce hapt _).still_bind fun _ => ?_
  exact Turn.Yields.modify_bind (Turn.yields_pure ⟨h.story_eq, .inl rfl⟩)

theorem yields_presentChoices {n : Node} (h : Arrived story p n)
    (hpositioned : p.positioned = true) :
    (presentChoices n.options).Yields (playTerms story) p fun _ => Grounded story := by
  rw [presentChoices]
  refine Turn.Yields.modify_bind (Turn.Yields.get_bind ?_)
  refine (yields_remark _ _).still_bind fun _ => ?_
  -- should deciding about the choices fail, none of them is on screen yet
  refine yields_lift_bind ⟨h.story_eq, .inl h.choices⟩ fun views hviews => ?_
  refine Turn.Yields.modify_bind (Turn.Yields.get_bind ?_)
  have hapt : Apt story (.choicesShown views p.conversation p.index) :=
    ⟨n, h.story_eq ▸ h.node, h.passable, _, appear_of_viewsOf hviews⟩
  refine (yields_announce hapt _).still_bind fun _ => ?_
  exact Turn.Yields.modify_bind
    (Turn.yields_pure ⟨h.story_eq, .inr ⟨rfl, hpositioned, n, _, h.node, appear_of_viewsOf hviews⟩⟩)

theorem yields_settleOn {conversation : Text} {index : Nat} {n : Node} (h : Arrived story p n) :
    (settleOn conversation index n).Yields (playTerms story) p fun _ => Grounded story := by
  have hshown {q : Player F} (hq : Arrived story q n) (hpositioned : q.positioned = true) :
      (if n.offersChoices then presentChoices n.options else presentLine n).Yields
        (playTerms story) q fun _ => Grounded story := by
    split
    · exact yields_presentChoices hq hpositioned
    · exact yields_presentLine hq
  rw [settleOn]
  refine Turn.Yields.modify_bind (Turn.Yields.get_bind ?_)
  simp only
  split
  · exact hshown ⟨⟨h.story_eq, h.choices⟩, h.node, h.passable⟩ rfl
  · refine Turn.Yields.modify_bind ?_
    have hgrounded : Grounded story
        { p with positioned := true, played := p.played ++ [(conversation, index)] } :=
      ⟨h.story_eq, .inl h.choices⟩
    refine Turn.Yields.bind (yields_applyChanges n.changes hgrounded) ?_
    rintro _ _ ⟨s, rfl⟩
    exact hshown ⟨⟨h.story_eq, h.choices⟩, h.node, h.passable⟩ rfl

theorem yields_settleAmong {nodes : List Node} (h : Clear story p)
    (hget : p.story.get? p.conversation = some nodes) :
    (settleAmong p.conversation nodes).Yields (playTerms story) p fun _ => Grounded story := by
  rw [settleAmong]
  refine Turn.Yields.get_bind (Turn.Yields.modify_bind ?_)
  refine (yields_remark _ _).still_bind fun _ => ?_
  refine yields_lift_bind ⟨h.story_eq, .inl h.choices⟩ fun found hfound => ?_
  cases found with
  | none => exact yields_finish _ h.story_eq
  | some n =>
    obtain ⟨j, hk, hn, hpass⟩ := exists_of_scan (Prod.ext rfl hfound)
    rw [List.getElem?_drop, ← hk] at hn
    refine yields_settleOn ⟨⟨h.story_eq, h.choices⟩, ?_, hpass⟩
    simp only [Story.node?, hget, hn, Option.bind_some, Option.bind_eq_bind]

theorem yields_settle (entering : Bool) (h : Clear story p) :
    (settle entering).Yields (playTerms story) p fun _ => Grounded story := by
  rw [settle]
  refine Turn.Yields.get_bind ?_
  simp only
  split
  · exact (yields_remark _ p).still_bind fun _ => yields_finish _ h.story_eq
  · next hget =>
    split
    · exact (yields_announce (n := .conversationEntered _) trivial p).still_bind fun _ =>
        yields_settleAmong h hget
    · exact yields_settleAmong h hget

theorem yields_advance (h : Grounded story p) :
    advance.Yields (playTerms story) p fun _ => Grounded story := by
  have hsettled {q : Player F} (hq : Clear story q) :
      (some <$> settle (!p.positioned)).Yields (playTerms story) q fun _ => Grounded story :=
    Turn.Yields.map (yields_settle _ hq)
  rw [advance]
  refine Turn.Yields.get_bind ?_
  split
  · next hphase =>
    have hclear : Clear story p := h.clear (by simp [hphase])
    simp only
    split
    · exact Turn.Yields.modify_bind (hsettled ⟨hclear.story_eq, hclear.choices⟩)
    · exact hsettled hclear
  · exact Turn.yields_pure h

theorem yields_take (i : Nat) (c : Choice) (h : Grounded story p) :
    (take i c).Yields (playTerms story) p fun _ => Grounded story := by
  rw [take]
  refine Turn.Yields.bind (yields_applyChanges c.changes h) ?_
  rintro _ _ ⟨s, rfl⟩
  refine (yields_announce (n := .choiceSelected i c.text c.target) trivial _).still_bind fun _ => ?_
  exact Turn.Yields.modify_bind (yields_settle true ⟨h.story_eq, rfl⟩)

theorem yields_select (index : Int) (h : Grounded story p) :
    (select index).Yields (playTerms story) p fun _ => Grounded story := by
  rw [select]
  refine Turn.Yields.get_bind ?_
  split
  · next why hrefusal =>
    refine (yields_remark _ p).still_bind fun _ => ?_
    exact (yields_announce (n := .choiceRejected index why) trivial p).still_bind fun _ =>
      Turn.yields_pure h
  · next hrefusal =>
    obtain ⟨c, hc⟩ := h.exists_choiceAt hrefusal
    rw [hc]
    exact Turn.Yields.map (yields_take _ c h)

/-- What a move may say and fail with: a tick may take numbers that are too large, and nothing else
fails but with a number that is too long. -/
def moveTerms (story : Story) (m : Move F) : Terms (Player F) Signal PlayFault where
  allows := (playTerms story : Terms (Player F) Signal PlayFault).allows
  fails p e := Grounded story p ∧ ((∃ o, e = .overlong o) ∨ (∃ dt, m = .tick dt) ∧ e = .tooLarge)

/-- **What a move says and fails with in any story**, and that it leaves the player grounded. -/
theorem yields_move (m : Move F) (h : Grounded story p) :
    m.turn.Yields (moveTerms story m) p fun _ => Grounded story := by
  have hplayed {n : PlayerTurn F (Option Display)}
      (hn : n.Yields (playTerms story) p fun _ => Grounded story) :
      (Answer.display <$> n).Yields (moveTerms story m) p fun _ => Grounded story :=
    Turn.Yields.map (hn.mono (fun _ => id) (fun _ _ he => ⟨he.1, .inl he.2⟩) fun _ _ => id)
  cases m with
  | advance => exact hplayed (yields_advance h)
  | select index => exact hplayed (yields_select index h)
  | skip => exact Turn.Yields.modify_bind (Turn.yields_pure (h.of_scenery p.store _))
  | tick dt =>
    rw [Move.turn]
    refine Turn.Yields.get_bind ?_
    split
    · exact Turn.yields_fail ⟨h, .inr ⟨⟨dt, rfl⟩, rfl⟩⟩
    · exact Turn.Yields.modify_bind (Turn.yields_pure (h.of_scenery p.store _))
  | setNumber | setFlag | clearStore =>
    exact Turn.Yields.modify_bind (Turn.yields_pure (h.of_scenery _ p.reveal))

/-! ### Runs -/

theorem grounded_start (story : Story) (conversation : Text) (store : Store) (speed : F) :
    Grounded story (start story conversation store speed) := ⟨rfl, .inl rfl⟩

theorem Grounded.after (h : Grounded story p) (m : Move F) : Grounded story (p.after m) :=
  (yields_move m h).keeps fun _ _ hfails => hfails.1

/-- **After every run of every story** the choices on screen are those of the current node. -/
theorem grounded_afterAll_start (story : Story) (conversation : Text) (store : Store) (speed : F)
    (ms : List (Move F)) :
    Grounded story ((start story conversation store speed).afterAll ms) :=
  afterAll_induction (fun _ m h => h.after m) (grounded_start story conversation store speed) ms

/-- **Whatever is shown in a run** of any story is there and has passed. -/
theorem apt_of_mem_record (story : Story) (conversation : Text) (store : Store) (speed : F)
    (ms : List (Move F)) :
    ∀ n ∈ record noticesOf (start story conversation store speed) ms, Apt story n := by
  have hstart : Grounded story (start story conversation store speed) ∧ ∀ n ∈ [], Apt story n :=
    ⟨grounded_start story conversation store speed, nofun⟩
  refine (record_induction (P := fun p ns => Grounded story p ∧ ∀ n ∈ ns, Apt story n) ?_ hstart).2
  rintro p ns m - ⟨hp, hns⟩
  refine ⟨hp.after m, fun n hn => (List.mem_append.mp hn).elim (hns n) fun hn => ?_⟩
  obtain ⟨o, ho, hnotice⟩ := List.mem_filterMap.mp hn
  refine (yields_move m hp).1 o ho n ?_
  cases o with
  | notice => exact congrArg Signal.notice (Option.some.inj hnotice)
  | remark => cases hnotice

end Parley.Player
