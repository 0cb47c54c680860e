import Parley.Proofs.Condition.Reads
import Parley.Proofs.Mirror
import Parley.Proofs.Playback.Runs

/-!
# Variables that are not read

A player learns of its store by conditions only. So two players of one story whose stores agree on
what the story reads can never be told apart: they say the same, answer the same, fail in the same
way, and show the same, whatever a host does to both. Their stores go on to agree, since a change
that adds to a variable which is read adds to the same number on both sides.

This needs no readable story. An overlong value fails both players at the same point, and they stay
alike even then.

## Main definitions

* `Player.Alike` — players that differ in variables that are not read, and in nothing else
* `Player.Indistinguishable` — stores that no run of a story can tell apart

## Main results

* `Player.mirrors_move` — alike players make every move in step, and stay alike
* `Player.indistinguishable_of_unread` — what is not read does not show
-/

namespace Parley.Player

variable {F α : Type} {story : Story} {p q : Player F}

/-- Two players of a story that differ in their stores only, and there not in what the story
reads. -/
structure Alike (story : Story) (p q : Player F) : Prop where
  story_eq : p.story = story
  exists_store : ∃ t, q = { p with store := t } ∧ p.store.AgreesOn story.reads t

/-- A turn that alike players take in step. -/
abbrev Mirrored (story : Story) (m : PlayerTurn F α) (p q : Player F) : Prop :=
  Turn.Mirrors (Alike story) m p m q

/-! ### What is decided by the store -/

theorem scan_congr {s t : Store} {ns : List Node} (h : ∀ n ∈ ns, s.AgreesOn n.reads t) (i : Nat) :
    scan s i ns = scan t i ns ∧ scanRemarks s ns = scanRemarks t ns := by
  induction ns generalizing i with
  | nil => exact ⟨rfl, rfl⟩
  | cons n ns ih =>
    rw [List.forall_mem_cons] at h
    obtain ⟨hscan, hremarks⟩ := ih h.2 (i + 1)
    rw [scan, scan, scanRemarks, scanRemarks, Condition.holds_congr h.1.condition,
      Condition.remarks_congr h.1.condition, hscan, hremarks]
    exact ⟨rfl, rfl⟩

theorem views_congr {s t : Store} {cs : List Choice}
    (h : ∀ c ∈ cs, s.AgreesOn (Condition.reads c.condition) t) :
    viewsOf s cs = viewsOf t cs ∧ viewsRemarks s cs = viewsRemarks t cs := by
  induction cs with
  | nil => exact ⟨rfl, rfl⟩
  | cons c cs ih =>
    rw [List.forall_mem_cons] at h
    obtain ⟨hviews, hremarks⟩ := ih h.2
    rw [viewsOf, viewsOf, viewsRemarks, viewsRemarks, Condition.holds_congr h.1,
      Condition.remarks_congr h.1, hviews, hremarks]
    exact ⟨rfl, rfl⟩

/-! ### Turns of alike players -/

theorem mirrors_remark (rs : List Remark) (h : Alike story p q) :
    Mirrored story (remark rs) p q := by
  induction rs generalizing p q with
  | nil => exact Turn.mirrors_pure () h
  | cons r rs ih => exact Turn.Mirrors.bind (Turn.mirrors_say _ h) fun _ _ _ hrel => ih hrel

theorem mirrors_announce (n : Notice) (h : Alike story p q) : Mirrored story (announce n) p q :=
  Turn.mirrors_say _ h

theorem mirrors_lift_bind {β : Type} {r : Except Overlong α} {f f' : α → PlayerTurn F β}
    (h : Alike story p q)
    (hf : ∀ a, r = .ok a → ∀ p q, Alike story p q → Turn.Mirrors (Alike story) (f a) p (f' a) q) :
    Turn.Mirrors (Alike story) (lift r >>= f) p (lift r >>= f') q := by
  cases r with
  | ok a => exact hf a rfl p q h
  | error e => exact Turn.mirrors_fail _ h

theorem mirrors_applyChanges (es : List Text) (h : Alike story p q) :
    Mirrored story (applyChanges es) p q := by
  obtain ⟨hstory, t, rfl, hagrees⟩ := h
  rw [applyChanges]
  split
  · exact Turn.mirrors_pure () ⟨hstory, t, rfl, hagrees⟩
  · obtain ⟨hchanged, hcount⟩ := Change.agreesOn_applyAll hagrees es
    refine Turn.Mirrors.get_bind ?_
    simp only [hcount]
    refine Turn.Mirrors.modify_bind ?_
    refine Turn.Mirrors.bind (mirrors_remark _ ⟨hstory, _, rfl, hchanged⟩) fun _ _ _ h => ?_
    refine mirrors_lift_bind h fun applied _ _ _ h => ?_
    split
    · exact Turn.mirrors_pure () h
    · exact mirrors_announce _ h

variable [Tempo F]

theorem mirrors_present (d : Display) (h : Alike story p q) : Mirrored story (present d) p q := by
  obtain ⟨hstory, t, rfl, hagrees⟩ := h
  exact Turn.Mirrors.modify_bind (Turn.mirrors_pure d ⟨hstory, t, rfl, hagrees⟩)

theorem mirrors_finish (why : EndReason) (h : Alike story p q) :
    Mirrored story (finish why) p q := by
  obtain ⟨hstory, t, rfl, hagrees⟩ := h
  refine Turn.Mirrors.modify_bind (Turn.Mirrors.get_bind ?_)
  exact Turn.Mirrors.bind (mirrors_announce _ ⟨hstory, t, rfl, hagrees⟩) fun _ _ _ h =>
    mirrors_present _ h

theorem mirrors_presentLine (n : Node) (h : Alike story p q) :
    Mirrored story (presentLine n) p q := by
  obtain ⟨hstory, t, rfl, hagrees⟩ := h
  refine Turn.Mirrors.modify_bind (Turn.Mirrors.get_bind ?_)
  exact Turn.Mirrors.bind (mirrors_announce _ ⟨hstory, t, rfl, hagrees⟩) fun _ _ _ h =>
    mirrors_present _ h

/-- Choices are locked and unlocked alike. -/
theorem mirrors_presentChoices {n : Node} (hn : ∀ v ∈ n.reads, v ∈ story.reads)
    (h : Alike story p q) : Mirrored story (presentChoices n.options) p q := by
  obtain ⟨hstory, t, rfl, hagrees⟩ := h
  obtain ⟨hviews, hremarks⟩ := views_congr (hagrees.of_subset hn).options
  refine Turn.Mirrors.modify_bind (Turn.Mirrors.get_bind ?_)
  simp only [hviews, hremarks]
  refine Turn.Mirrors.bind (mirrors_remark _ ⟨hstory, t, rfl, hagrees⟩) fun _ _ _ h => ?_
  refine mirrors_lift_bind h fun views _ p q h => ?_
  obtain ⟨hstory, t, rfl, hagrees⟩ := h
  refine Turn.Mirrors.modify_bind (Turn.Mirrors.get_bind ?_)
  exact Turn.Mirrors.bind (mirrors_announce _ ⟨hstory, t, rfl, hagrees⟩) fun _ _ _ h =>
    mirrors_present _ h

theorem mirrors_settleOn (conversation : Text) (index : Nat) {n : Node}
    (hn : ∀ v ∈ n.reads, v ∈ story.reads) (h : Alike story p q) :
    Mirrored story (settleOn conversation index n) p q := by
  have hshown {p q : Player F} (h : Alike story p q) :
      Mirrored story (if n.offersChoices then presentChoices n.options else presentLine n) p q := by
    split
    · exact mirrors_presentChoices hn h
    · exact mirrors_presentLine n h
  obtain ⟨hstory, t, rfl, hagrees⟩ := h
  refine Turn.Mirrors.modify_bind (Turn.Mirrors.get_bind ?_)
  show Turn.Mirrors _ (if p.hasExecuted conversation index n then _ else _) _
    (if p.hasExecuted conversation index n then _ else _) _
  split
  · exact hshown ⟨hstory, t, rfl, hagrees⟩
  · refine Turn.Mirrors.modify_bind ?_
    exact Turn.Mirrors.bind (mirrors_applyChanges _ ⟨hstory, t, rfl, hagrees⟩) fun _ _ _ h =>
      hshown h

theorem mem_of_scan {s : Store} {i : Nat} {ns : List Node} {n : Node}
    (h : (scan s i ns).2 = .ok (some n)) : n ∈ ns := by
  induction ns generalizing i with
  | nil => cases h
  | cons m ns ih =>
    rw [scan] at h
    split at h
    · cases h
    · cases h
      exact List.mem_cons_self
    · exact List.mem_cons_of_mem _ (ih h)

/-- The same node is settled on. -/
theorem mirrors_settleAmong (conversation : Text) {nodes : List Node}
    (hnodes : ∀ n ∈ nodes, ∀ v ∈ n.reads, v ∈ story.reads) (h : Alike story p q) :
    Mirrored story (settleAmong conversation nodes) p q := by
  obtain ⟨hstory, t, rfl, hagrees⟩ := h
  have hdrop : ∀ n ∈ nodes.drop p.index, p.store.AgreesOn n.reads t := fun n hn =>
    hagrees.of_subset (hnodes n (List.mem_of_mem_drop hn))
  obtain ⟨hscan, hremarks⟩ := scan_congr hdrop p.index
  refine Turn.Mirrors.get_bind ?_
  simp only [hscan, hremarks]
  refine Turn.Mirrors.modify_bind ?_
  refine Turn.Mirrors.bind (mirrors_remark _ ⟨hstory, t, rfl, hagrees⟩) fun _ _ _ h => ?_
  refine mirrors_lift_bind h fun found hfound _ _ h => ?_
  cases found with
  | none => exact mirrors_finish _ h
  | some n => exact mirrors_settleOn _ _ (hnodes n (List.mem_of_mem_drop (mem_of_scan hfound))) h

theorem mirrors_settle (entering : Bool) (h : Alike story p q) :
    Mirrored story (settle entering) p q := by
  obtain ⟨rfl, t, rfl, hagrees⟩ := h
  have hsame : Alike p.story p { p with store := t } := ⟨rfl, t, rfl, hagrees⟩
  refine Turn.Mirrors.get_bind ?_
  rcases hget : p.story.get? p.conversation with _ | nodes
  · simp only [hget]
    exact Turn.Mirrors.bind (mirrors_remark _ hsame) fun _ _ _ h => mirrors_finish _ h
  · simp only [hget]
    have hnodes : ∀ n ∈ nodes, ∀ v ∈ n.reads, v ∈ p.story.reads := fun n hn v hv =>
      Story.mem_reads_of_get? hget hn hv
    split
    · exact Turn.Mirrors.bind (mirrors_announce _ hsame) fun _ _ _ h =>
        mirrors_settleAmong _ hnodes h
    · exact mirrors_settleAmong _ hnodes hsame

theorem mirrors_advance (h : Alike story p q) : Mirrored story advance p q := by
  obtain ⟨hstory, t, rfl, hagrees⟩ := h
  rw [advance]
  refine Turn.Mirrors.get_bind ?_
  simp only
  split
  · split
    · refine Turn.Mirrors.modify_bind (Turn.Mirrors.map some ?_)
      exact mirrors_settle _ ⟨hstory, t, rfl, hagrees⟩
    · exact Turn.Mirrors.map some (mirrors_settle _ ⟨hstory, t, rfl, hagrees⟩)
  · exact Turn.mirrors_pure _ ⟨hstory, t, rfl, hagrees⟩

theorem mirrors_take (index : Nat) (c : Choice) (h : Alike story p q) :
    Mirrored story (take index c) p q := by
  refine Turn.Mirrors.bind (mirrors_applyChanges _ h) fun _ _ _ h => ?_
  refine Turn.Mirrors.bind (mirrors_announce _ h) fun _ p q h => ?_
  obtain ⟨hstory, t, rfl, hagrees⟩ := h
  refine Turn.Mirrors.modify_bind ?_
  exact mirrors_settle _ ⟨hstory, t, rfl, hagrees⟩

/-- The same selections are refused, and the same choice is taken. -/
theorem mirrors_select (index : Int) (h : Alike story p q) : Mirrored story (select index) p q := by
  obtain ⟨hstory, t, rfl, hagrees⟩ := h
  have hsame : Alike story p { p with store := t } := ⟨hstory, t, rfl, hagrees⟩
  have hrefusal : refusal? { p with store := t } index = p.refusal? index := rfl
  have hchoice : choiceAt { p with store := t } index.toNat = p.choiceAt index.toNat := rfl
  rw [select]
  refine Turn.Mirrors.get_bind ?_
  rw [hrefusal, hchoice]
  cases p.refusal? index with
  | some why =>
    refine Turn.Mirrors.bind (mirrors_remark _ hsame) fun _ _ _ h => ?_
    exact Turn.Mirrors.bind (mirrors_announce _ h) fun _ _ _ h => Turn.mirrors_pure none h
  | none =>
    cases p.choiceAt index.toNat with
    | error e => exact Turn.mirrors_fail e hsame
    | ok c => exact Turn.Mirrors.map some (mirrors_take _ c hsame)

/-! ### Moves of alike players -/

/-- **Alike players make every move in step.** -/
theorem mirrors_move (m : Move F) (h : Alike story p q) : Mirrored story m.turn p q := by
  cases m with
  | advance => exact Turn.Mirrors.map _ (mirrors_advance h)
  | select index => exact Turn.Mirrors.map _ (mirrors_select index h)
  | skip =>
    obtain ⟨hstory, t, rfl, hagrees⟩ := h
    exact Turn.Mirrors.modify_bind (Turn.mirrors_pure _ ⟨hstory, t, rfl, hagrees⟩)
  | tick dt =>
    obtain ⟨hstory, t, rfl, hagrees⟩ := h
    rw [Move.turn]
    refine Turn.Mirrors.get_bind ?_
    simp only
    cases p.reveal.tick? dt with
    | none => exact Turn.mirrors_fail _ ⟨hstory, t, rfl, hagrees⟩
    | some reveal =>
      exact Turn.Mirrors.modify_bind (Turn.mirrors_pure _ ⟨hstory, t, rfl, hagrees⟩)
  | setNumber name n =>
    obtain ⟨hstory, t, rfl, hagrees⟩ := h
    exact Turn.Mirrors.modify_bind
      (Turn.mirrors_pure _ ⟨hstory, _, rfl, hagrees.setNumber fun _ => rfl⟩)
  | setFlag name b =>
    obtain ⟨hstory, t, rfl, hagrees⟩ := h
    exact Turn.Mirrors.modify_bind (Turn.mirrors_pure _ ⟨hstory, _, rfl, hagrees.setFlag name b⟩)
  | clearStore =>
    obtain ⟨hstory, t, rfl, hagrees⟩ := h
    exact Turn.Mirrors.modify_bind (Turn.mirrors_pure _ ⟨hstory, _, rfl, .refl _ _⟩)

theorem Alike.afterAll (h : Alike story p q) (ms : List (Move F)) :
    Alike story (p.afterAll ms) (q.afterAll ms) := by
  induction ms generalizing p q with
  | nil => exact h
  | cons m ms ih => exact ih (mirrors_move m h).alone.2.1

/-! ### Runs that nobody can tell apart -/

/-- A move of two players, compared: both say the same and have the same answer or fault, and
afterwards the players agree in everything but their stores, and these agree on some variables. -/
structure SameMove (vs : List Variable) (p q : Player F) (m : Move F) : Prop where
  said : (m.turn.alone p).1 = (m.turn.alone q).1
  answer : (m.turn.alone p).2.2 = (m.turn.alone q).2.2
  left : q.after m = { p.after m with store := (q.after m).store }
  stores : (p.after m).store.AgreesOn vs (q.after m).store

/-- No run of a story tells two stores apart: begun with either of them, every move of every run is
the same, and so is what both stores hold of what the story reads. -/
def Indistinguishable (F : Type) [Tempo F] (story : Story) (conversation : Text) (s t : Store) :
    Prop :=
  ∀ (speed : F) (ms : List (Move F)) (m : Move F),
    SameMove story.reads ((start story conversation s speed).afterAll ms)
      ((start story conversation t speed).afterAll ms) m

theorem Alike.sameMove (h : Alike story p q) (m : Move F) : SameMove story.reads p q m := by
  obtain ⟨hsaid, hleft, hanswer⟩ := (mirrors_move m h).alone
  obtain ⟨-, t, hq, hagrees⟩ := hleft
  have hstore : (q.after m).store = t := congrArg store hq
  exact ⟨hsaid, hanswer, by rw [hstore]; exact hq, by rw [hstore]; exact hagrees⟩

theorem indistinguishable_of_agreesOn {s t : Store} (h : s.AgreesOn story.reads t)
    (conversation : Text) : Indistinguishable F story conversation s t := by
  intro speed ms m
  have hstart : Alike story (start story conversation s speed)
      (start story conversation t speed) := ⟨rfl, t, rfl, h⟩
  exact (hstart.afterAll ms).sameMove m

/-- **What is not read does not show.** Stores that agree on what a story reads cannot be told apart
by any run of it. In particular an unset variable is as good as one that is set to `0` or `false`,
and a variable that no condition compares may hold anything, even when the other namespace has one
of the same name that is compared. -/
theorem indistinguishable_of_unread (story : Story) (conversation : Text) (s : Store) :
    (∀ t, s.AgreesOn story.reads t → Indistinguishable F story conversation s t) ∧
      (∀ name, s.numbers.get? name = none →
        Indistinguishable F story conversation s (s.setNumber name 0)) ∧
      (∀ name, s.flags.get? name = none →
        Indistinguishable F story conversation s (s.setFlag name false)) ∧
      (∀ name n, .number name ∉ story.reads →
        Indistinguishable F story conversation s (s.setNumber name n)) ∧
      ∀ name b, .flag name ∉ story.reads →
        Indistinguishable F story conversation s (s.setFlag name b) := by
  refine ⟨fun t h => indistinguishable_of_agreesOn h conversation, ?_, ?_, ?_, ?_⟩
  · intro name hunset
    refine indistinguishable_of_agreesOn (Store.agreesOn_setNumber _ s fun _ => ?_) conversation
    rw [Store.number, Table.getD, hunset, Option.getD_none]
  · intro name hunset
    refine indistinguishable_of_agreesOn (Store.agreesOn_setFlag _ s fun _ => ?_) conversation
    rw [Store.flag, Table.getD, hunset, Option.getD_none]
  · intro name n hunread
    exact indistinguishable_of_agreesOn
      (Store.agreesOn_setNumber _ s fun hread => absurd hread hunread) conversation
  · intro name b hunread
    exact indistinguishable_of_agreesOn
      (Store.agreesOn_setFlag _ s fun hread => absurd hread hunread) conversation

/-- At the gate the number of coins is compared, and whether it is open. -/
theorem indistinguishable_of_unread_gate :
    let coins := "coins".toList
    let gateOpen := "open".toList
    let s := Store.empty.setNumber "rain".toList 3
    let t := (s.setNumber gateOpen 7).setFlag coins true
    (s.AgreesOn gate.reads t ∧ Indistinguishable Amount gate "gate".toList s t) ∧
      (s.numbers.get? coins = none ∧
        Indistinguishable Amount gate "gate".toList s (s.setNumber coins 0)) ∧
      (s.flags.get? gateOpen = none ∧
        Indistinguishable Amount gate "gate".toList s (s.setFlag gateOpen false)) ∧
      (.number gateOpen ∉ gate.reads ∧
        Indistinguishable Amount gate "gate".toList s (s.setNumber gateOpen (-1))) ∧
      (.flag coins ∉ gate.reads ∧
        Indistinguishable Amount gate "gate".toList s (s.setFlag coins true)) := by
  intro coins gateOpen s t
  obtain ⟨hagree, hnumber, hflag, hnumbers, hflags⟩ :=
    indistinguishable_of_unread (F := Amount) gate "gate".toList s
  have hst : s.AgreesOn gate.reads t := by decide
  have hcoins : s.numbers.get? coins = none := by decide
  have hopen : s.flags.get? gateOpen = none := by decide
  have hnumberOpen : .number gateOpen ∉ gate.reads := by decide
  have hflagCoins : .flag coins ∉ gate.reads := by decide
  exact ⟨⟨hst, hagree t hst⟩, ⟨hcoins, hnumber coins hcoins⟩, ⟨hopen, hflag gateOpen hopen⟩,
    ⟨hnumberOpen, hnumbers gateOpen (-1) hnumberOpen⟩, ⟨hflagCoins, hflags coins true hflagCoins⟩⟩

end Parley.Player
