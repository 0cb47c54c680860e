import Parley.Proofs.Malformed
import Parley.Proofs.Playback.Governed
import Parley.Proofs.Script.Reports
import Parley.Reveal.Amount

/-!
# Conditions that bar what they guard

A condition is rejected for one malformed atom anywhere in it. Playing is more lenient: a malformed
atom sinks its own alternative, and another may still hold. So a rejected condition bars what it
guards for good only if it is hopeless, with a malformed atom in every alternative. Then no line is
shown and no choice unlocked by it, in any run of any story.

## Main definitions

* `Player.Bars` — a record in which a condition bars what it guards
* `Player.Honest`, `Player.BarsAmong` — the same among listeners that move the player

## Main results

* `Player.holds_of_stray_atom` — a rejected condition that holds
* `Player.bars_of_isValid` — when a rejected condition holds, and that a hopeless one never does
-/

namespace Parley.Player

variable {F : Type} {p : Player F} {story : Story} {t : Text}

/-- A toll whose first alternative is mistyped. -/
def toll : Text := "a == oops || c == 2".toList

/-- A guard who lets pass for the toll. -/
def tollgate : Story :=
  .ofList [("gate".toList, [⟨"Guard".toList, "Pass.".toList, none, some toll, [], false⟩])]

/-- **A rejected condition may hold**: the node is reported, and shown. -/
theorem holds_of_stray_atom :
    Condition.isValid (some toll) = .ok false ∧
      tollgate.check (some "gate".toList) = .ok [.nodeCondition "gate".toList 0 toll] ∧
      Condition.holds (Store.empty.setNumber "c".toList 2) (some toll) = .ok true ∧
      (start tollgate "gate".toList (Store.empty.setNumber "c".toList 2)
        (Amount.whole 20)).noticesOf .advance =
        [.conversationEntered "gate".toList,
          .lineShown "Guard".toList "Pass.".toList "gate".toList 0] := by
  decide

/-- The condition holds in no store. -/
def Never (t : Text) : Prop := ∀ s b, Condition.holds s (some t) = .ok b → b = false

/-- Choices on screen with the condition are locked. -/
def Locks (t : Text) (n : Node) (views : List ChoiceView) : Prop :=
  ∀ (i : Nat) (c : Choice), n.options[i]? = some c → c.condition = some t →
    views[i]? = some ⟨c.text, false⟩

/-- No node with the condition is shown, and no choice with it is unlocked when it is shown. -/
structure Bars (story : Story) (t : Text) (ns : List Notice) : Prop where
  line {speaker text conversation : Text} {index : Nat} {n : Node}
    (hshown : .lineShown speaker text conversation index ∈ ns)
    (hnode : story.node? conversation index = some n) : n.condition ≠ some t
  choices {views : List ChoiceView} {conversation : Text} {index : Nat} {n : Node}
    (hshown : .choicesShown views conversation index ∈ ns)
    (hnode : story.node? conversation index = some n) : n.condition ≠ some t ∧ Locks t n views

theorem Never.condition_ne {n : Node} (h : Never t) (hpass : Passable n) :
    n.condition ≠ some t := by
  intro hcondition
  obtain ⟨s, hs⟩ := hpass
  rw [hcondition] at hs
  cases h s true hs

theorem Never.locks {s : Store} {n : Node} {views : List ChoiceView} (h : Never t)
    (hviews : Appear s n.options views) : Locks t n views := by
  intro i c hc hcondition
  obtain ⟨hi, rfl⟩ := List.getElem?_eq_some_iff.mp hc
  have hlt : i < views.length := hviews.length_eq ▸ hi
  obtain ⟨htext, hunlocked⟩ := hviews.get hi hlt
  rw [List.get_eq_getElem, List.get_eq_getElem] at htext hunlocked
  rw [hcondition] at hunlocked
  rw [List.getElem?_eq_getElem hlt, ← htext, ← h s _ hunlocked]

/-! ### Runs that nobody listens to -/

/-- What is apt shows nothing that the condition guards. -/
theorem Never.bars {ns : List Notice} (h : Never t) (hns : ∀ n ∈ ns, Apt story n) :
    Bars story t ns where
  line hshown hnode := by
    obtain ⟨n, hn, hpass⟩ := hns _ hshown
    obtain rfl := Option.some.inj (hn.symm.trans hnode)
    exact h.condition_ne hpass
  choices hshown hnode := by
    obtain ⟨n, hn, hpass, s, hviews⟩ := hns _ hshown
    obtain rfl := Option.some.inj (hn.symm.trans hnode)
    exact ⟨h.condition_ne hpass, h.locks hviews⟩

/-- A choice that the condition guards is refused. -/
theorem Never.refusal?_ne_none {index : Int} {c : Choice} (h : Never t) (hp : Grounded story p)
    (hchoice : p.choiceAt index.toNat = .ok c) (hcondition : c.condition = some t) :
    p.refusal? index ≠ none := by
  intro hrefusal
  obtain ⟨-, -, v, hview, hunlocked⟩ := refusal?_eq_none_iff.mp hrefusal
  have hopen : p.choices ≠ [] := fun hnil => by simp [hnil] at hview
  obtain ⟨-, -, n, s, hnode, hviews⟩ := hp.choices.resolve_left hopen
  obtain ⟨m, hm, hc⟩ := getElem?_options_of_choiceAt hchoice
  obtain rfl := Option.some.inj (hnode.symm.trans hm)
  have hlocked := h.locks hviews _ c hc hcondition
  obtain rfl := Option.some.inj (hview.symm.trans hlocked)
  cases hunlocked

/-! ### Runs among listeners -/

/-- The player plays the story, and has settled only on nodes that have passed. -/
structure Honest (story : Story) (p : Player F) : Prop where
  story_eq : p.story = story
  played {conversation : Text} {index : Nat} (hplayed : (conversation, index) ∈ p.played) :
    ∃ n, Passes story conversation index n

/-- What is shown belongs to a node that has passed, but the player may have been moved elsewhere
before it is. -/
def Fair (story : Story) : Notice → Prop
  | .lineShown speaker text _ _ =>
    ∃ conversation index n, Passes story conversation index n ∧ n.speaker = speaker ∧ n.text = text
  | .choicesShown views _ _ =>
    ∃ conversation index n, Passes story conversation index n ∧ ∃ s, Appear s n.options views
  | _ => True

theorem governs_honest (story : Story) :
    Governs story (Honest story : Player F → Prop) fun _ => Fair story where
  story_eq hp := hp.story_eq
  scenery hp _ _ _ _ _ _ _ := ⟨hp.story_eq, hp.played⟩
  settles hp conversation index n hn := by
    refine ⟨hp.story_eq, fun hplayed => ?_⟩
    rcases List.mem_append.mp hplayed with hplayed | hplayed
    · exact hp.played hplayed
    · obtain ⟨rfl, rfl⟩ := Prod.mk.inj (List.mem_singleton.mp hplayed)
      exact ⟨n, hn⟩
  follows _ _ _ _ hq := ⟨hq.story_eq, hq.played⟩
  entered _ _ := trivial
  line _ _ _ n hn := ⟨_, _, n, hn, rfl, rfl⟩
  choices _ _ _ n hn s _ hviews := ⟨_, _, n, hn, s, hviews⟩
  other {_ n} hn := by
    cases n with
    | lineShown | choicesShown => simp [Notice.kind] at hn
    | _ => trivial

/-- Whatever is done to the player while it announces things, what is shown is shown of a node
without the condition, and choices with it are locked. A node with the condition is never executed,
unless the story says that it was. -/
structure BarsAmong (story : Story) (t : Text) (ns : List Notice) (p : Player F) : Prop where
  line {speaker text conversation : Text} {index : Nat}
    (hshown : .lineShown speaker text conversation index ∈ ns) :
    ∃ id k n, story.node? id k = some n ∧ n.condition ≠ some t ∧ n.speaker = speaker ∧ n.text = text
  choices {views : List ChoiceView} {conversation : Text} {index : Nat}
    (hshown : .choicesShown views conversation index ∈ ns) :
    ∃ id k n, story.node? id k = some n ∧ n.condition ≠ some t ∧
      views.map ChoiceView.text = n.options.map Choice.text ∧ Locks t n views
  executed {id : Text} {k : Nat} {n : Node} (hnode : story.node? id k = some n)
    (hcondition : n.condition = some t) : p.hasExecuted id k n = n.executed

theorem Appear.map_text {s : Store} {cs : List Choice} {views : List ChoiceView}
    (h : Appear s cs views) : views.map ChoiceView.text = cs.map Choice.text := by
  induction h with
  | nil => rfl
  | cons hview _ ih => rw [List.map_cons, List.map_cons, hview.1, ih]

theorem Never.barsAmong {ns : List Notice} (h : Never t) (hns : ∀ n ∈ ns, Fair story n)
    (hp : Honest story p) : BarsAmong story t ns p where
  line hshown := by
    obtain ⟨id, k, n, hn, hspeaker, htext⟩ := hns _ hshown
    exact ⟨id, k, n, hn.node, h.condition_ne hn.passable, hspeaker, htext⟩
  choices hshown := by
    obtain ⟨id, k, n, hn, s, hviews⟩ := hns _ hshown
    exact ⟨id, k, n, hn.node, h.condition_ne hn.passable, hviews.map_text, h.locks hviews⟩
  executed {id k n} hnode hcondition := by
    have hnot : (id, k) ∉ p.played := fun hplayed => by
      obtain ⟨m, hm⟩ := hp.played hplayed
      obtain rfl := Option.some.inj (hm.node.symm.trans hnode)
      exact h.condition_ne hm.passable hcondition
    simp [hasExecuted, hnot]

/-! ### Rejected conditions -/

theorem never_of_isHopeless (hinvalid : Condition.isValid (some t) = .ok false)
    (h : Condition.isHopeless t = true) : Never t := fun s b hholds => by
  rw [← Condition.value_eq_of_holds hholds]
  exact Condition.value_of_isHopeless s (Condition.isAllBlank_of_isValid hinvalid) h

variable [Tempo F]

/-- **What rejecting a condition comes to.** It is reported of every node and every choice that has
it, and an evaluation that comes to an answer is true exactly by an alternative all of whose atoms
are well formed and hold. If every alternative has a malformed atom the condition never holds: in no
run of any story is a node with it shown or a choice with it unlocked or taken, and whatever is done
to the player while it announces things, none is shown and none is unlocked. -/
theorem bars_of_isValid (hinvalid : Condition.isValid (some t) = .ok false) :
    (∀ (story : Story) (start : Option Text) (id : Text) (k : Nat) (n : Node),
      story.node? id k = some n →
        (n.condition = some t → Story.Reports (.nodeCondition id k t) (story.check start)) ∧
        ∀ (i : Nat) (c : Choice), n.options[i]? = some c → c.condition = some t →
          Story.Reports (.choiceCondition ⟨id, k, i⟩ t) (story.check start)) ∧
    (∀ s b, Condition.holds s (some t) = .ok b →
      (b = true ↔ ∃ g ∈ Condition.groups t, ∀ atom ∈ g,
        ∃ c, Comparison.read atom = .ok (some c) ∧ c.holds s = true)) ∧
    (Condition.isHopeless t = true →
      (∀ s b, Condition.holds s (some t) = .ok b → b = false) ∧
      (Condition.Readable (some t) → ∀ s, Condition.holds s (some t) = .ok false) ∧
      ∀ (story : Story) (conversation : Text) (store : Store) (speed : F),
        let p := start story conversation store speed
        (∀ ms : List (Move F),
          Bars story t (record noticesOf p ms) ∧
          ∀ (index : Int) (c : Choice), (p.afterAll ms).choiceAt index.toNat = .ok c →
            c.condition = some t → (p.afterAll ms).refusal? index ≠ none) ∧
        ∀ (ns : List Notice) (q : Player F) (waiting : List (Player F → Underway F)),
          Scene.Leads (.acting p []) ns (.acting q waiting) → BarsAmong story t ns q) := by
  have hblank := Condition.isAllBlank_of_isValid hinvalid
  refine ⟨fun story start id k n hnode => ⟨fun hcondition => ?_, fun i c hc hcondition => ?_⟩,
    fun s b hholds => ?_, fun hhopeless => ?_⟩
  · exact Story.reports_nodeCondition hnode hcondition hinvalid start
  · exact Story.reports_choiceCondition hnode hc hcondition hinvalid start
  · rw [← Condition.value_eq_of_holds hholds, Condition.value_eq_true_iff hblank]
  · have hnever : Never t := never_of_isHopeless hinvalid hhopeless
    refine ⟨hnever, fun hread s => ?_, fun story conversation store speed => ⟨fun ms => ?_,
      fun ns q waiting hrun => ?_⟩⟩
    · rw [Condition.holds_of_readable s hread, Condition.value_of_isHopeless s hblank hhopeless]
    · refine ⟨hnever.bars (apt_of_mem_record story conversation store speed ms),
        fun index c hc hcondition => ?_⟩
      exact hnever.refusal?_ne_none (grounded_afterAll_start story conversation store speed ms) hc
        hcondition
    · have hstart : Honest story (start story conversation store speed) := ⟨rfl, nofun⟩
      obtain ⟨hupholds, hallowed⟩ := (governs_honest story).of_leads hstart hrun
      exact hnever.barsAmong (fun n hn => (hallowed n hn).choose_spec) hupholds.1

/-- Both alternatives are mistyped. -/
def bribe : Text := "coins => 2 || open = true".toList

/-- Whoever cannot be bribed says nothing. -/
def bribable : Story :=
  .ofList [("gate".toList,
    [⟨"Guard".toList, "Halt.".toList, none, none, [], false⟩,
      ⟨"Guard".toList, "Pass.".toList, none, some bribe, [], false⟩,
      ⟨[], [], some [⟨"Bribe".toList, none, [], some bribe⟩, ⟨"Leave".toList, none, [], none⟩],
        none, [], false⟩])]

theorem bars_of_isValid_bribe :
    Condition.isValid (some bribe) = .ok false ∧ Condition.isHopeless bribe = true ∧
      (∀ s, Condition.holds s (some bribe) = .ok false) ∧
      Bars bribable bribe
        (record noticesOf (start bribable "gate".toList .empty (Amount.whole 20))
          [.setNumber "coins".toList 9, .advance, .advance, .select 0]) := by
  have hinvalid : Condition.isValid (some bribe) = .ok false := by decide
  have hhopeless : Condition.isHopeless bribe = true := by decide
  obtain ⟨-, hfalse, hruns⟩ := (bars_of_isValid (F := Amount) hinvalid).2.2 hhopeless
  exact ⟨hinvalid, hhopeless, hfalse (by decide),
    ((hruns bribable "gate".toList .empty (Amount.whole 20)).1 _).1⟩

example :
    ((start bribable "gate".toList .empty (Amount.whole 20)).afterAll
        [.setNumber "coins".toList 9, .advance, .advance, .select 0]).choices =
      [⟨"Bribe".toList, false⟩, ⟨"Leave".toList, true⟩] := by decide

end Parley.Player
