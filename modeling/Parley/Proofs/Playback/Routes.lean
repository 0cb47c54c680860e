import Parley.Proofs.Playback.Deeds
import Parley.Proofs.Playback.Interludes
import Parley.Proofs.Script.Reach

/-!
# The conversations of a run

A check reports the conversations that no chain of choices leads to from the start. In no run does a
player enter one of them. That holds of every story, readable or not, and of whatever is done to the
player in the middle of its moves.

The reason is that a player jumps in one place only, when a choice is taken, and goes where that
choice leads or stays. What has to be kept for that is little, `Within`: the conversation of the
player is one that choices lead to, unless it does not exist. It is a matter of pacts since a choice
is followed only after listeners have heard of it, and the conversation that it was taken in may not
be that of the player any more.

## Main definitions

* `Player.Within` — the player is where choices lead to
* `Player.OnRoute`, `Player.routes` — the pact that only such conversations are entered

## Main results

* `Player.heeds_move` — every move abides by that pact
* `Player.not_unreachable_of_entered` — the report of a check, compared with all runs
-/

namespace Parley.Player

variable {F α : Type} {story : Story} {start : Text} {p q : Player F}

/-- The player plays the story, in a conversation that choices lead to from the start, unless it
does not exist. -/
structure Within (story : Story) (start : Text) (p : Player F) : Prop where
  story_eq : p.story = story
  reaches (hexists : story.contains p.conversation = true) : story.Reaches start p.conversation

/-- What may be announced of conversations that choices lead to: nothing else is entered. -/
def OnRoute (story : Story) (start : Text) : Signal → Prop
  | .notice (.conversationEntered id) => story.Reaches start id
  | _ => True

/-- The pact that a player stays where choices lead to, and enters nothing else. -/
def routes (story : Story) (start : Text) : Pact (Player F) Signal :=
  .keeping Signal.isHeard (Within story start) fun _ => OnRoute story start

/-- A turn that enters only what choices lead to, and keeps the player there, if listeners do. -/
abbrev Heeds (story : Story) (start : Text) (m : PlayerTurn F α) (p : Player F) : Prop :=
  m.Abides (routes story start) p fun _ q => q.Within story start

/-! ### Turns that jump nowhere -/

theorem heeds_announce (n : Notice) (hroute : OnRoute story start (.notice n))
    (hp : p.Within story start) : Heeds story start (announce n) p :=
  Turn.Abides.mono (Turn.abides_say_keeping hroute hp) fun _ _ h => h.1

theorem heeds_remark (rs : List Remark) (hp : p.Within story start) :
    Heeds story start (remark rs) p := by
  induction rs generalizing p with
  | nil => exact hp
  | cons r rs ih =>
    have hroute : OnRoute story start (.remark r) := trivial
    exact Turn.Abides.bind (Turn.abides_say_keeping hroute hp) fun _ _ hq => ih hq.1

theorem heeds_lift (r : Except Overlong α) (hp : p.Within story start) :
    Heeds story start (lift r) p := by
  cases r with
  | ok a => exact hp
  | error e => exact Turn.abides_fail _ hp

theorem heeds_applyChanges (es : List Text) (hp : p.Within story start) :
    Heeds story start (applyChanges es) p := by
  rw [applyChanges]
  split
  · exact hp
  · refine Turn.Abides.get_bind (Turn.Abides.modify_bind ?_)
    refine Turn.Abides.bind (heeds_remark _ ⟨hp.story_eq, hp.reaches⟩) fun _ q hq => ?_
    refine Turn.Abides.bind (heeds_lift _ hq) fun applied q hq => ?_
    split
    · exact hq
    · exact heeds_announce _ trivial hq

variable [Tempo F]

theorem heeds_present (d : Display) (hp : p.Within story start) :
    Heeds story start (present d) p := Turn.Abides.modify_bind ⟨hp.story_eq, hp.reaches⟩

theorem heeds_finish (why : EndReason) (hp : p.Within story start) :
    Heeds story start (finish why) p := by
  rw [finish]
  refine Turn.Abides.modify_bind (Turn.Abides.get_bind ?_)
  exact Turn.Abides.bind (heeds_announce _ trivial ⟨hp.story_eq, hp.reaches⟩) fun _ _ hq =>
    heeds_present _ hq

theorem heeds_presentLine (n : Node) (hp : p.Within story start) :
    Heeds story start (presentLine n) p := by
  rw [presentLine]
  refine Turn.Abides.modify_bind (Turn.Abides.get_bind ?_)
  exact Turn.Abides.bind (heeds_announce _ trivial ⟨hp.story_eq, hp.reaches⟩) fun _ _ hq =>
    heeds_present _ hq

theorem heeds_presentChoices (cs : List Choice) (hp : p.Within story start) :
    Heeds story start (presentChoices cs) p := by
  rw [presentChoices]
  refine Turn.Abides.modify_bind (Turn.Abides.get_bind ?_)
  refine Turn.Abides.bind (heeds_remark _ ⟨hp.story_eq, hp.reaches⟩) fun _ q hq => ?_
  refine Turn.Abides.bind (heeds_lift _ hq) fun views q hq => ?_
  refine Turn.Abides.modify_bind (Turn.Abides.get_bind ?_)
  exact Turn.Abides.bind (heeds_announce _ trivial ⟨hq.story_eq, hq.reaches⟩) fun _ _ hq =>
    heeds_present _ hq

theorem heeds_settleOn (conversation : Text) (index : Nat) (n : Node)
    (hp : p.Within story start) : Heeds story start (settleOn conversation index n) p := by
  have hshown {q : Player F} (hq : q.Within story start) : Heeds story start
      (if n.offersChoices then presentChoices n.options else presentLine n) q := by
    split
    · exact heeds_presentChoices _ hq
    · exact heeds_presentLine _ hq
  rw [settleOn]
  refine Turn.Abides.modify_bind (Turn.Abides.get_bind ?_)
  simp only
  split
  · exact hshown ⟨hp.story_eq, hp.reaches⟩
  · refine Turn.Abides.modify_bind ?_
    exact Turn.Abides.bind (heeds_applyChanges _ ⟨hp.story_eq, hp.reaches⟩) fun _ _ hq => hshown hq

theorem heeds_settleAmong (conversation : Text) (nodes : List Node) (hp : p.Within story start) :
    Heeds story start (settleAmong conversation nodes) p := by
  rw [settleAmong]
  refine Turn.Abides.get_bind (Turn.Abides.modify_bind ?_)
  refine Turn.Abides.bind (heeds_remark _ ⟨hp.story_eq, hp.reaches⟩) fun _ q hq => ?_
  refine Turn.Abides.bind (heeds_lift _ hq) fun found q hq => ?_
  cases found with
  | none => exact heeds_finish _ hq
  | some n => exact heeds_settleOn _ _ n hq

/-! ### Turns that enter a conversation -/

/-- A conversation that is entered exists, so choices lead to it. -/
theorem heeds_settle (entering : Bool) (hp : p.Within story start) :
    Heeds story start (settle entering) p := by
  rw [settle]
  refine Turn.Abides.get_bind ?_
  simp only
  split
  · exact Turn.Abides.bind (heeds_remark _ hp) fun _ _ hq => heeds_finish _ hq
  · rename_i nodes hget
    have hexists : story.contains p.conversation = true := by
      rw [← hp.story_eq, Table.contains, hget, Option.isSome_some]
    split
    · exact Turn.Abides.bind (heeds_announce _ (hp.reaches hexists) hp) fun _ _ hq =>
        heeds_settleAmong _ _ hq
    · exact heeds_settleAmong _ _ hp

theorem heeds_advance (hp : p.Within story start) : Heeds story start advance p := by
  have hsettled {q : Player F} (hq : q.Within story start) :
      Heeds story start (some <$> settle (!p.positioned)) q := Turn.Abides.map (heeds_settle _ hq)
  rw [advance]
  refine Turn.Abides.get_bind ?_
  split
  · simp only
    split
    · exact Turn.Abides.modify_bind (hsettled ⟨hp.story_eq, hp.reaches⟩)
    · exact hsettled hp
  · exact hp

/-- Taking a choice keeps the player where choices lead to if the target of this one is there. The
player may have been moved by the time it follows the choice. -/
theorem heeds_take (i : Nat) (c : Choice)
    (htarget : ∀ t, c.target = some t → story.contains t = true → story.Reaches start t)
    (hp : p.Within story start) : Heeds story start (take i c) p := by
  rw [take]
  refine Turn.Abides.bind (heeds_applyChanges _ hp) fun _ q hq => ?_
  refine Turn.Abides.bind (heeds_announce _ trivial hq) fun _ r hr => ?_
  refine Turn.Abides.modify_bind (heeds_settle _ ⟨hr.story_eq, fun hexists => ?_⟩)
  rcases ht : c.target with _ | t
  · simp only [ht, Option.getD_none] at hexists ⊢
    exact hr.reaches hexists
  · simp only [ht, Option.getD_some] at hexists ⊢
    exact htarget t ht hexists

omit [Tempo F] in
/-- A choice that can be taken leads on from where the player is. -/
theorem Within.reaches_target (hp : p.Within story start) {i : Nat} {c : Choice}
    (hchoice : p.choiceAt i = .ok c) {t : Text} (ht : c.target = some t)
    (hexists : story.contains t = true) : story.Reaches start t := by
  obtain ⟨n, hnode, hc⟩ := getElem?_options_of_choiceAt hchoice
  obtain ⟨nodes, hget, hn⟩ := Option.bind_eq_some_iff.mp hnode
  rw [hp.story_eq] at hget
  have hhere : story.contains p.conversation = true := by
    rw [Table.contains, hget, Option.isSome_some]
  exact (hp.reaches hhere).tail
    ⟨hexists, nodes, hget, n, List.mem_of_getElem? hn, c, List.mem_of_getElem? hc, ht⟩

theorem heeds_select (index : Int) (hp : p.Within story start) :
    Heeds story start (select index) p := by
  rw [select]
  refine Turn.Abides.get_bind ?_
  split
  · refine Turn.Abides.bind (heeds_remark _ hp) fun _ q hq => ?_
    exact Turn.Abides.bind (heeds_announce _ trivial hq) fun _ _ hr => hr
  · split
    · exact Turn.abides_fail _ hp
    · rename_i c hchoice
      exact Turn.Abides.map (heeds_take _ c (fun t => hp.reaches_target hchoice) hp)

/-- **Every move enters only what choices lead to**, and keeps the player there. -/
theorem heeds_move (m : Move F) (hp : p.Within story start) : Heeds story start m.turn p := by
  cases m with
  | advance => exact Turn.Abides.map (heeds_advance hp)
  | select index => exact Turn.Abides.map (heeds_select index hp)
  | skip => exact ⟨hp.story_eq, hp.reaches⟩
  | tick dt =>
    rw [Move.turn]
    refine Turn.Abides.get_bind ?_
    split
    · exact Turn.abides_fail _ hp
    · exact ⟨hp.story_eq, hp.reaches⟩
  | setNumber | setFlag | clearStore => exact ⟨hp.story_eq, hp.reaches⟩

/-! ### All runs -/

/-- In every run of a player, also among listeners that move it, what is entered is what choices
lead to. -/
theorem reaches_of_entered (hp : p.Within story start) {ns : List Notice} {b : Scene F}
    (hrun : Scene.Leads (.acting p []) ns b) {id : Text} (hid : .conversationEntered id ∈ ns) :
    story.Reaches start id := by
  have hupholds : Scene.Upholds (Within story start) (fun _ => OnRoute story start)
      (.acting p []) := ⟨hp, nofun⟩
  obtain ⟨-, hallowed⟩ := hrun.allowed (fun m _ hq => heeds_move m hq) hupholds
  obtain ⟨q, hreaches⟩ := hallowed _ hid
  exact hreaches

/-- **The report of unreachable conversations is exact, and no run enters one of them.** For every
story that has the start: the search of the check comes to an end by itself, and the check has an
answer if the story is readable. What is reported as unreachable are the conversations that no chain
of choices leads to from the start, each once and in the order of the story. Whatever is done to a
player from that start, in any store, also while it announces things, it enters none of them. -/
theorem not_unreachable_of_entered (story : Story) (start : Text)
    (hstart : story.contains start = true) :
    story.Explored [start] [start] (story.reachable start) ∧
      (story.Readable → ∃ is, story.check (some start) = .ok is) ∧
      ∀ is, story.check (some start) = .ok is →
        unreachables is = (story.keys.filter fun id => ¬ story.Reaches start id) ∧
        ∀ (store : Store) (speed : F) (ns : List Notice) (b : Scene F),
          Scene.Leads (.acting (Player.start story start store speed) []) ns b →
            ∀ id, .conversationEntered id ∈ ns → .unreachable id ∉ is := by
  refine ⟨Story.explored_reachable story start,
    fun hread => Story.exists_check_of_readable hread hstart, fun is hcheck => ?_⟩
  have hreport := Story.unreachables_check hstart hcheck
  refine ⟨hreport, fun store speed ns b hrun id hid hunreachable => ?_⟩
  have hwithin : (Player.start story start store speed).Within story start := ⟨rfl, fun _ => .refl⟩
  have hreaches := reaches_of_entered hwithin hrun hid
  have hmem := mem_unreachables.mpr hunreachable
  rw [hreport, List.mem_filter] at hmem
  exact of_decide_eq_true hmem.2 hreaches

/-- At the gate nothing leads to the cellar, so no run goes there. -/
theorem not_unreachable_of_entered_gate :
    gate.contains "gate".toList = true ∧
      gate.Explored ["gate".toList] ["gate".toList] (gate.reachable "gate".toList) ∧
      (gate.Readable → ∃ is, gate.check (some "gate".toList) = .ok is) ∧
      ∀ is, gate.check (some "gate".toList) = .ok is →
        unreachables is = (gate.keys.filter fun id => ¬ gate.Reaches "gate".toList id) ∧
        ∀ (store : Store) (speed : Amount) (ns : List Notice) (b : Scene Amount),
          Scene.Leads (.acting (Player.start gate "gate".toList store speed) []) ns b →
            ∀ id, .conversationEntered id ∈ ns → .unreachable id ∉ is := by
  have hstart : gate.contains "gate".toList = true := by decide
  exact ⟨hstart, not_unreachable_of_entered gate "gate".toList hstart⟩

example : (gate.check (some "gate".toList)).map unreachables = .ok ["cellar".toList] := by decide

end Parley.Player
