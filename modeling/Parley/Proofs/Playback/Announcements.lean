import Parley.Proofs.Playback.Runs

/-!
# What is announced in a run

A run leaves a record: what each of its moves announces, one after the other. What is said about
records is proved like what is said about states, by a step and an induction, only that the step now
appends to what there is so far.

Settling says its remarks and its announcements in one list of signals. Here the announcements are
taken out of it, for each part of settling.

## Main definitions

* `Player.record` — what a run leaves, for anything that a single move leaves
* `Player.noticesOf` — what a single move announces

## Main results

* `Player.record_start_induction` — what every step keeps holds of the record of every run
* `Player.record_start_induction_of_mem` — and of a run of certain moves, what their steps keep
-/

namespace Parley

/-! ### Announcements among signals -/

/-- The notice that a signal is, if it is one. -/
def Signal.notice? : Signal → Option Notice
  | notice n => some n
  | remark _ => none

/-- The notices among signals. -/
def noticesIn (os : List Signal) : List Notice := os.filterMap Signal.notice?

@[simp] theorem noticesIn_nil : noticesIn [] = [] := rfl

@[simp] theorem noticesIn_append (os os' : List Signal) :
    noticesIn (os ++ os') = noticesIn os ++ noticesIn os' := List.filterMap_append

@[simp] theorem noticesIn_cons_notice (n : Notice) (os : List Signal) :
    noticesIn (.notice n :: os) = n :: noticesIn os := rfl

@[simp] theorem noticesIn_cons_remark (r : Remark) (os : List Signal) :
    noticesIn (.remark r :: os) = noticesIn os := rfl

@[simp] theorem noticesIn_map_remark (rs : List Remark) : noticesIn (rs.map .remark) = [] := by
  induction rs with
  | nil => rfl
  | cons r rs ih => rw [List.map_cons, noticesIn_cons_remark, ih]

/-- What applying readable changes announces: that it did, if at least one was well formed. -/
def Change.notices (es : List Text) : List Notice :=
  if accepted es = 0 then [] else [.variablesChanged es (accepted es)]

@[simp] theorem noticesIn_signals (es : List Text) :
    noticesIn (Change.signals es) = Change.notices es := by
  rw [Change.signals, noticesIn_append, noticesIn_map_remark, List.nil_append, Change.notices]
  split <;> rfl

namespace Player

variable {F : Type}

/-- The notice that shows a node. -/
def showingNotice (s : Store) (conversation : Text) (index : Nat) (n : Node) : Notice :=
  if n.offersChoices then .choicesShown (viewsIn s n.options) conversation index
  else .lineShown n.speaker n.text conversation index

@[simp] theorem noticesIn_showingSignals (s : Store) (conversation : Text) (index : Nat)
    (n : Node) :
    noticesIn (showingSignals s conversation index n) =
      [showingNotice s conversation index n] := by
  rw [showingSignals, showingNotice]
  split
  · rw [noticesIn_append, noticesIn_map_remark]
    rfl
  · rfl

@[simp] theorem noticesIn_enteringSignals (entering : Bool) (conversation : Text) :
    noticesIn (enteringSignals entering conversation) =
      if entering then [.conversationEntered conversation] else [] := by
  cases entering <;> rfl

@[simp] theorem noticesIn_settlingSignals (p : Player F) (conversation : Text) (index : Nat)
    (n : Node) :
    noticesIn (p.settlingSignals conversation index n) =
      if p.hasExecuted conversation index n then [] else Change.notices n.changes := by
  rw [settlingSignals]
  split
  · rfl
  · exact noticesIn_signals n.changes

/-! ### Records of runs -/

variable [Tempo F] {α : Type}

/-- What a move announces. -/
def noticesOf (p : Player F) (m : Move F) : List Notice := noticesIn (m.turn.alone p).1

/-- What the moves of a run leave, in order. -/
def record (f : Player F → Move F → List α) (p : Player F) : List (Move F) → List α
  | [] => []
  | m :: ms => f p m ++ record f (p.after m) ms

variable {f : Player F → Move F → List α}

theorem record_append (p : Player F) (ms ms' : List (Move F)) :
    record f p (ms ++ ms') = record f p ms ++ record f (p.afterAll ms) ms' := by
  induction ms generalizing p with
  | nil => rfl
  | cons m ms ih => rw [List.cons_append, record, record, ih, List.append_assoc]; rfl

/-- What every move of a run keeps, given what it leaves, holds after the run. -/
theorem record_induction {P : Player F → List α → Prop} {p : Player F} {as : List α}
    {ms : List (Move F)} (hstep : ∀ p as, ∀ m ∈ ms, P p as → P (p.after m) (as ++ f p m))
    (hp : P p as) : P (p.afterAll ms) (as ++ record f p ms) := by
  induction ms generalizing p as with
  | nil =>
    rw [record, List.append_nil]
    exact hp
  | cons m ms ih =>
    rw [record, ← List.append_assoc]
    exact ih (fun p as m' hm' => hstep p as m' (List.mem_cons_of_mem m hm'))
      (hstep p as m List.mem_cons_self hp)

/-- **What every step of a run keeps, given what it announces, holds after the run**, from the start
of a readable story. What is kept on record is made of each move and its announcements. -/
theorem record_start_induction_of_mem {story : Story} (hread : story.Readable)
    {conversation : Text} {store : Store} {speed : F} {g : Move F → List Notice → List α}
    {P : Player F → List α → Prop} {ms : List (Move F)}
    (hstart : P (start story conversation store speed) [])
    (hstep : ∀ {p q : Player F} {m : Move F} {os : List Signal} {r : Except PlayFault Answer}
      {as : List α}, m ∈ ms → p.story = story → p.Coherent → Step p m os q r → P p as →
        P q (as ++ g m (noticesIn os))) :
    P ((start story conversation store speed).afterAll ms)
      (record (fun p m => g m (p.noticesOf m)) (start story conversation store speed) ms) := by
  refine (record_induction (P := fun p as => p.story = story ∧ p.Coherent ∧ P p as) ?_
    ⟨rfl, coherent_start story conversation store speed, hstart⟩).2.2
  rintro p as m hm ⟨hstory, hp, has⟩
  obtain ⟨os, q, r, halone, hmove⟩ := exists_step (hstory ▸ hread) hp m
  rw [after, noticesOf, halone]
  exact ⟨hmove.story.trans hstory, hmove.coherent hp, hstep hm hstory hp hmove has⟩

/-- **What every step keeps, given what it announces, holds after every run** from the start of a
readable story. -/
theorem record_start_induction {story : Story} (hread : story.Readable) {conversation : Text}
    {store : Store} {speed : F} {g : Move F → List Notice → List α} {P : Player F → List α → Prop}
    (hstart : P (start story conversation store speed) [])
    (hstep : ∀ {p q : Player F} {m : Move F} {os : List Signal} {r : Except PlayFault Answer}
      {as : List α}, p.Coherent → Step p m os q r → P p as → P q (as ++ g m (noticesIn os)))
    (ms : List (Move F)) :
    P ((start story conversation store speed).afterAll ms)
      (record (fun p m => g m (p.noticesOf m)) (start story conversation store speed) ms) :=
  record_start_induction_of_mem hread hstart (fun _ _ hp hmove has => hstep hp hmove has)

end Player

end Parley
