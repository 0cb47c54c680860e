import Parley.Proofs.Playback.Deeds

/-!
# Replaying the changes of a run

Whoever has the store that a run began with, and has heard all its announcements, can work out the
store it ended with: the announced changes are applied once more, expression by expression. A list
of changes of which none is well formed is not announced, but then it changed nothing.

A replay is strict. It fails at an announcement of changes that were not applied, or that do not
come out as many as was announced. So that it succeeds says something of every announcement.

## Main definitions

* `Notice.replay?`, `replay?` — the store after announced changes

## Main results

* `Player.Settles.replay?_eq`, `Player.Step.replay?_eq` — settling, and a step
* `Player.replay?_record_start` — a run without writes of its host
-/

namespace Parley

/-! ### Replaying -/

/-- Apply one expression, counting it when it is well formed; `none` when it cannot be read. -/
def Change.replay? (r : Store × Nat) (e : Text) : Option (Store × Nat) :=
  match read e with
  | .error _ => none
  | .ok none => some r
  | .ok (some c) => some (c.apply r.1, r.2 + 1)

/-- The store after a notice. Changes have to come out as many as was announced, and at least one of
them. -/
def Notice.replay? (s : Store) : Notice → Option Store
  | variablesChanged es applied => do
    let r ← es.foldlM Change.replay? (s, 0)
    if r.2 = applied ∧ 0 < applied then some r.1 else none
  | _ => some s

/-- The store after notices, in order. -/
def replay? (s : Store) (ns : List Notice) : Option Store := ns.foldlM Notice.replay? s

@[simp] theorem replay?_nil (s : Store) : replay? s [] = some s := rfl

theorem replay?_append (s : Store) (ns ns' : List Notice) :
    replay? s (ns ++ ns') = (replay? s ns).bind (replay? · ns') := by
  rw [replay?, List.foldlM_append]
  rfl

@[simp] theorem replay?_entered (s : Store) (conversation : Text) (ns : List Notice) :
    replay? s (.conversationEntered conversation :: ns) = replay? s ns := rfl

@[simp] theorem replay?_ended (s : Store) (conversation : Text) (why : EndReason)
    (ns : List Notice) : replay? s (.conversationEnded conversation why :: ns) = replay? s ns := rfl

@[simp] theorem replay?_rejected (s : Store) (index : Int) (why : Refusal) (ns : List Notice) :
    replay? s (.choiceRejected index why :: ns) = replay? s ns := rfl

@[simp] theorem replay?_selected (s : Store) (index : Int) (text : Text) (target : Option Text)
    (ns : List Notice) : replay? s (.choiceSelected index text target :: ns) = replay? s ns := rfl

namespace Change

variable {es : List Text}

/-- Applying changes is applying them one by one. -/
theorem foldlM_replay?_of_readable (h : ∀ e ∈ es, e.hasOverlongValue = false) (s : Store)
    (k : Nat) :
    es.foldlM replay? (s, k) = some ((applyAll es s).1, k + accepted es) := by
  induction es generalizing s k with
  | nil => rfl
  | cons e es ih =>
    rw [List.forall_mem_cons] at h
    obtain ⟨c, hc⟩ := Change.exists_read_eq_ok_iff.mpr h.1
    rw [List.foldlM_cons, replay?, applyAll, hc]
    rcases c with _ | c
    · rw [accepted, List.countP_cons_of_neg (by simp [isChange, hc])]
      exact ih h.2 s k
    · have hcount : accepted (e :: es) = accepted es + 1 :=
        List.countP_cons_of_pos (by simp [isChange, hc])
      rw [hcount, Nat.add_comm (accepted es), ← Nat.add_assoc]
      exact ih h.2 (c.apply s) (k + 1)

/-- Changes of which none is well formed change nothing. -/
theorem applyAll_of_accepted_eq_zero (h : ∀ e ∈ es, e.hasOverlongValue = false)
    (hnone : accepted es = 0) (s : Store) : (applyAll es s).1 = s := by
  induction es with
  | nil => rfl
  | cons e es ih =>
    rw [List.forall_mem_cons] at h
    obtain ⟨c, hc⟩ := Change.exists_read_eq_ok_iff.mpr h.1
    rcases c with _ | c
    · rw [accepted, List.countP_cons_of_neg (by simp [isChange, hc])] at hnone
      rw [applyAll, hc]
      exact ih h.2 hnone
    · rw [accepted, List.countP_cons_of_pos (by simp [isChange, hc])] at hnone
      exact absurd hnone (Nat.succ_ne_zero _)

/-- What is announced of changes is enough to make them again. -/
theorem replay?_notices (h : ∀ e ∈ es, e.hasOverlongValue = false) (s : Store) :
    Parley.replay? s (notices es) = some (applyAll es s).1 := by
  rw [notices]
  split
  · next hnone => rw [applyAll_of_accepted_eq_zero h hnone, replay?_nil]
  · next hsome =>
    have happlied : (accepted es = accepted es ∧ 0 < accepted es) := ⟨rfl, Nat.pos_of_ne_zero hsome⟩
    simp [Parley.replay?, Notice.replay?, foldlM_replay?_of_readable h, happlied.2]

end Change

namespace Player

variable {F : Type} {p q : Player F}

@[simp] theorem replay?_showingNotice (s t : Store) (conversation : Text) (index : Nat) (n : Node) :
    replay? s [showingNotice t conversation index n] = some s := by
  rw [showingNotice]
  split <;> rfl

variable [Tempo F] {entering : Bool} {os : List Signal} {d : Display}

/-- **Settling announces all that it changes.** -/
theorem Settles.replay?_eq (h : Settles p entering os q d) (hread : p.story.Readable) :
    replay? p.store (noticesIn os) = some q.store := by
  have hentering (ns : List Notice) :
      replay? p.store ((if entering then [.conversationEntered p.conversation] else []) ++ ns) =
        replay? p.store ns := by
    cases entering <;> rfl
  cases h with
  | missing => rfl
  | finished =>
    simp [hentering, showing]
  | @shown nodes k n hget hk =>
    have hn := readable_of_get? hread hget n (List.mem_of_getElem? hk)
    have hchanges : ∀ e ∈ if p.hasExecuted p.conversation k n then [] else n.changes,
        e.hasOverlongValue = false := by
      split
      · simp
      · exact hn.changes
    have hnotices : (if p.hasExecuted p.conversation k n then [] else Change.notices n.changes) =
        Change.notices (if p.hasExecuted p.conversation k n then [] else n.changes) := by
      split <;> rfl
    simp only [noticesIn_append, noticesIn_enteringSignals, noticesIn_map_remark, List.nil_append,
      noticesIn_settlingSignals, noticesIn_showingSignals, hentering, hnotices, replay?_append,
      Change.replay?_notices hchanges, Option.bind_some, replay?_showingNotice, onNode_store,
      settledAt_store]
    rfl

/-- **A step that is no write of the host announces all that it changes.** -/
theorem Step.replay?_eq {m : Move F} {r : Except PlayFault Answer} (h : Step p m os q r)
    (hread : p.story.Readable) (hm : m.deed? = none) :
    replay? p.store (noticesIn os) = some q.store := by
  cases h with
  | idle | rejected | skipped | ticked | overrun => rfl
  | written hwritten =>
    cases m with
    | setNumber | setFlag | clearStore => cases hm
    | advance | select | skip | tick => cases hwritten
  | next hphase hsettles =>
    have hstore : p.forward.store = p.store := by
      rw [Player.forward]
      split <;> rfl
    rw [← hstore]
    exact hsettles.replay?_eq (by rwa [forward_story])
  | taken hrefusal hchoice hsettles =>
    have hc := readable_of_choiceAt hread hchoice
    rw [noticesIn_append, noticesIn_signals, noticesIn_cons_notice, replay?_append,
      Change.replay?_notices hc.changes, Option.bind_some, replay?_selected]
    exact hsettles.replay?_eq hread

/-! ### Runs -/

/-- **The store can be worked out from what was announced.** After any run from the start of a
readable story in which the host writes no variables, the changes that were announced, applied to
the store that the run began with, give its store; and each announcement counts the changes that
were well formed, and there is at least one. -/
theorem replay?_record_start {story : Story} (hread : story.Readable) (conversation : Text)
    (store : Store) (speed : F) {ms : List (Move F)} (hms : ∀ m ∈ ms, m.deed? = none) :
    let p := Player.start story conversation store speed
    replay? store (record noticesOf p ms) = some (p.afterAll ms).store := by
  refine record_start_induction_of_mem (g := fun _ ns => ns)
    (P := fun p ns => replay? store ns = some p.store) hread rfl ?_
  intro p q m os r ns hm hstory _ hstep hns
  rw [replay?_append, hns, Option.bind_some]
  exact hstep.replay?_eq (hstory ▸ hread) (hms m hm)

/-- Two rounds at the gate, the second of them paid for. -/
theorem replay?_record_start_gate :
    gate.Readable ∧
      let ms := [.advance, .advance, .select 0, .select 1, .advance, .select 0, .advance]
      let p := Player.start gate "gate".toList .empty (Amount.whole 20)
      (∀ m ∈ ms, m.deed? = none) ∧
        replay? .empty (record noticesOf p ms) = some (p.afterAll ms).store := by
  have hread : gate.Readable := by decide
  refine ⟨hread, ?_⟩
  intro ms p
  have hms : ∀ m ∈ ms, m.deed? = none := by simp [ms, Move.deed?]
  exact ⟨hms, replay?_record_start hread _ _ _ hms⟩

end Player

end Parley
