import Parley.Proofs.Playback.Announcements
import Parley.Stage.Move

/-!
# What a cue does on a stage

A cue is anything that a host does to a stage: a move of the stage itself, or one of its player
behind its back. Most keys mean different things in different states, and different cues mean the
same. So a cue is first read as a task, which takes the state of the stage, and `Stage.Step` lists
what the tasks do, in full. Whoever reasons about runs that nobody listens to takes steps apart, and
opens no turn again.

Each turn of a stage has an equation for what it says and what it leaves when nobody listens. They
hold for every story; only the steps ask that the moves of the player are steps themselves.

## Main definitions

* `Stage.Cue`, `Stage.Task`, `Stage.task` — cues, and the tasks they come down to
* `Stage.Step` — what a task does
* `Stage.after`, `Stage.afterAll` — the stage after a cue, and after a run of cues

## Main results

* `Stage.effect_turn` — a cue does its task
* `Stage.step_after` — on a stage whose player is coherent that is a step
* `Stage.exists_player_after` — a stage drives its player by moves only
-/

namespace Parley.Stage

variable {F : Type}

/-- Anything that a host does to a stage or to its player. -/
inductive Cue (F : Type) where
  | stage (m : Stage.Move F)
  | player (m : Player.Move F)

/-! ### Turns that nobody listens to -/

/-- A turn of the player does on a stage what it does anyway. -/
theorem alone_playing {α : Type} (m : PlayerTurn F α) (s : Stage F) :
    (playing m).alone s =
      ((m.alone s.player).1.map .player, s.withPlayer (m.alone s.player).2.1,
        (m.alone s.player).2.2) := by
  have hplayer (p : Player F) (t : Stage F) : (t.withPlayer p).player = p := rfl
  have hagain (p q : Player F) (t : Stage F) :
      (t.withPlayer p).withPlayer q = t.withPlayer q := rfl
  rw [playing, Turn.alone_embed hplayer hagain]
  rcases (m.alone s.player).2.2 with e | a <;> rfl

/-- What a turn that nobody listens to says, and the stage it leaves. -/
def effect {α : Type} (m : StageTurn F α) (s : Stage F) : List StageSignal × Stage F :=
  ((m.alone s).1, (m.alone s).2.1)

theorem effect_map {α β : Type} (f : α → β) (m : StageTurn F α) (s : Stage F) :
    effect (f <$> m) s = effect m s := by
  rw [effect, Turn.alone_map, effect]

theorem effect_bind_pure {α β : Type} (m : StageTurn F α) (b : β) (s : Stage F) :
    effect (do let _ ← m; return b) s = effect m s := by
  rw [effect, Turn.alone_bind, effect]
  rcases m.alone s with ⟨os, t, e | a⟩
  · rfl
  · simp

/-- The announcement that the reveal is complete, unless it was made already. -/
def completions (s : Stage F) : List StageSignal :=
  if s.completed then [] else [.stage (.textCompleted s.player.reveal.text)]

theorem alone_announceCompletion (s : Stage F) :
    announceCompletion.alone s = (s.completions, { s with completed := true }, .ok ()) := by
  rw [announceCompletion, Turn.alone_get_bind, completions]
  rcases s with ⟨player, view, keyLimit, completed, enabled⟩
  cases completed <;> rfl

variable [Tempo F] {s t : Stage F} {p q : Player F} {os : List Signal} {e : PlayFault}

/-- Whether a text is on screen, and complete. -/
def isComplete (p : Player F) : Bool := !p.isEnded && p.reveal.isComplete

/-- The stage when its player has arrived at something new. -/
def arrived (s : Stage F) (q : Player F) : Stage F :=
  { s with player := q, view := viewOf q, completed := isComplete q }

/-- What the stage says when its player has arrived: a text with nothing to reveal is complete. -/
def arrivals (q : Player F) : List StageSignal :=
  if isComplete q then [.stage (.textCompleted q.reveal.text)] else []

theorem alone_sync (s : Stage F) :
    sync.alone s = (arrivals s.player, s.arrived s.player, .ok ()) := by
  rw [sync, Turn.alone_modify_bind, Turn.alone_get_bind, arrivals, arrived]
  show (if isComplete s.player then announceCompletion else pure ()).alone _ = _
  cases isComplete s.player
  · rfl
  · exact alone_announceCompletion _

theorem alone_start_of_ok {d : Option Display}
    (h : Player.advance.alone s.player = (os, q, .ok d)) :
    start.alone s = (os.map .player ++ arrivals q, s.arrived q, .ok d) := by
  simp only [start, Turn.alone_bind, alone_playing, h, alone_sync, Turn.alone_pure, List.append_nil]
  rfl

theorem alone_start_of_error (h : Player.advance.alone s.player = (os, q, .error e)) :
    start.alone s = (os.map .player, s.withPlayer q, .error e) := by
  simp only [start, Turn.alone_bind, alone_playing, h]

theorem alone_select_of_some {index : Int} {d : Display}
    (h : (Player.select index).alone s.player = (os, q, .ok (some d))) :
    (select index).alone s = (os.map .player ++ arrivals q, s.arrived q, .ok true) := by
  simp only [select, Turn.alone_bind, alone_playing, h, alone_sync, Turn.alone_pure,
    List.append_nil]
  rfl

theorem alone_select_of_none {index : Int}
    (h : (Player.select index).alone s.player = (os, q, .ok none)) :
    (select index).alone s = (os.map .player, s.withPlayer q, .ok false) := by
  simp only [select, Turn.alone_bind, alone_playing, h, Turn.alone_pure, List.append_nil]

theorem alone_select_of_error {index : Int}
    (h : (Player.select index).alone s.player = (os, q, .error e)) :
    (select index).alone s = (os.map .player, s.withPlayer q, .error e) := by
  simp only [select, Turn.alone_bind, alone_playing, h]

/-- The stage once the whole text is shown. -/
def skipped (s : Stage F) : Stage F :=
  { s with
    player := s.player.skipReveal
    view := { s.view with shown := s.player.reveal.text }
    completed := true }

theorem alone_skipReveal (s : Stage F) :
    skipReveal.alone s = (s.completions, s.skipped, .ok s.player.reveal.text) := by
  simp only [skipReveal, Turn.alone_bind, Turn.alone_modify, Turn.alone_get,
    alone_announceCompletion, Turn.alone_pure, List.nil_append, List.append_nil]
  rfl

/-- The stage after a tick. -/
def ticked (s : Stage F) (reveal : Reveal F) : Stage F :=
  { s with
    player := { s.player with reveal }
    view := { s.view with shown := reveal.shown }
    completed := s.completed || reveal.isComplete }

/-- What the stage says after a tick: what is shown more, and that it is complete. -/
def progress (s : Stage F) (reveal : Reveal F) : List StageSignal :=
  (if s.player.reveal.shown.length < reveal.shown.length then
    [.stage (.textAdvanced reveal.shown.length reveal.shown)] else []) ++
    if reveal.isComplete && !s.completed then [.stage (.textCompleted reveal.text)] else []

/-- Whether time reveals anything. -/
def isRevealing (s : Stage F) : Bool := !(s.player.isEnded || s.player.reveal.isComplete)

theorem alone_process_of_not (h : s.isRevealing = false) (dt : F) :
    (process dt).alone s = ([], s, .ok ()) := by
  rw [isRevealing, Bool.not_eq_false'] at h
  rw [process, Turn.alone_get_bind, if_pos h, Turn.alone_pure]

theorem alone_process_of_none (h : s.isRevealing = true) {dt : F}
    (htick : s.player.reveal.tick? dt = none) :
    (process dt).alone s = ([], s, .error .tooLarge) := by
  rw [isRevealing, Bool.not_eq_true'] at h
  rw [process, Turn.alone_get_bind, h, if_neg Bool.false_ne_true, htick, Turn.alone_fail]

theorem alone_completion (s : Stage F) :
    (Turn.get >>= fun s : Stage F =>
      if s.player.reveal.isComplete then announceCompletion else pure ()).alone s =
      (if s.player.reveal.isComplete && !s.completed then
          [.stage (.textCompleted s.player.reveal.text)] else [],
        { s with completed := s.completed || s.player.reveal.isComplete }, .ok ()) := by
  rw [Turn.alone_get_bind]
  cases s.player.reveal.isComplete
  · simp
  · cases hcompleted : s.completed <;> simp [alone_announceCompletion, completions, hcompleted]

theorem alone_process_of_some (h : s.isRevealing = true) {dt : F} {reveal : Reveal F}
    (htick : s.player.reveal.tick? dt = some reveal) :
    (process dt).alone s = (s.progress reveal, s.ticked reveal, .ok ()) := by
  rw [isRevealing, Bool.not_eq_true'] at h
  rw [process, Turn.alone_get_bind, h, if_neg Bool.false_ne_true, htick, progress, ticked]
  dsimp only
  rw [Turn.alone_modify_bind]
  split
  · rw [Turn.alone_bind, announce, Turn.alone_say]
    dsimp only
    rw [alone_completion]
  · rw [alone_completion, List.nil_append]

theorem alone_update (dt : F) (s : Stage F) :
    (update dt).alone s = if s.enabled then (process dt).alone s else ([], s, .ok ()) := by
  rw [update, Turn.alone_get_bind, Frame.hooks]
  cases s.enabled
  · rfl
  · simp only [if_true, Turn.each, runHook, pure_bind, bind_pure_unit]

/-! ### Cues as tasks -/

/-- What a cue comes down to. -/
inductive Task (F : Type) where
  | rest
  | play (m : Player.Move F)
  | advance
  | select (index : Int)
  | complete
  | tick (dt : F)
  | highlight (places : Int)
  | enable (enabled : Bool)

/-- The task of a key, while the conversation is running. -/
def pressed (s : Stage F) : Action → Task F
  | .skip => if s.player.reveal.isComplete then .rest else .complete
  | .confirm =>
    if s.player.reveal.isComplete then
      if s.player.phase = .atChoice then .select s.view.highlight else .advance
    else .complete
  | .menuUp => if s.player.phase = .atChoice then .highlight (-1) else .rest
  | .menuDown => if s.player.phase = .atChoice then .highlight 1 else .rest
  | .choice i => if (i.val : Int) < s.keyLimit then .select i.val else .rest

/-- The task of a frame. -/
def framed (s : Stage F) (dt : F) : Task F := if s.isRevealing then .tick dt else .rest

/-- The task of a cue. -/
def task (s : Stage F) : Cue F → Task F
  | .player m => .play m
  | .stage .start => .advance
  | .stage (.press none) => .rest
  | .stage (.press (some a)) => if s.player.isEnded then .rest else s.pressed a
  | .stage (.select index) => .select index
  | .stage .skip => .complete
  | .stage (.process dt) => s.framed dt
  | .stage (.update dt) => if s.enabled then s.framed dt else .rest
  | .stage (.enable enabled) => .enable enabled

/-- What a task says, and the stage it leaves. When the player fails, the stage is not brought up to
date with it. -/
def perform (s : Stage F) : Task F → List StageSignal × Stage F
  | .rest => ([], s)
  | .play m => ((m.turn.alone s.player).1.map .player, s.withPlayer (s.player.after m))
  | .advance =>
    match Player.advance.alone s.player with
    | (os, q, .ok _) => (os.map .player ++ arrivals q, s.arrived q)
    | (os, q, .error _) => (os.map .player, s.withPlayer q)
  | .select index =>
    match (Player.select index).alone s.player with
    | (os, q, .ok (some _)) => (os.map .player ++ arrivals q, s.arrived q)
    | (os, q, _) => (os.map .player, s.withPlayer q)
  | .complete => (s.completions, s.skipped)
  | .tick dt =>
    match s.player.reveal.tick? dt with
    | some reveal => (s.progress reveal, s.ticked reveal)
    | none => ([], s)
  | .highlight places => ([], { s with view := s.view.moveHighlight places })
  | .enable enabled => ([], { s with enabled })

/-- What a cue does. -/
def Cue.turn : Cue F → StageTurn F Answer
  | stage m => m.turn
  | player m => playing m.turn

theorem effect_start (s : Stage F) : effect start s = s.perform .advance := by
  rcases h : Player.advance.alone s.player with ⟨os, q, e | d⟩
  · rw [effect, alone_start_of_error h, perform, h]
  · rw [effect, alone_start_of_ok h, perform, h]

theorem effect_select (index : Int) (s : Stage F) :
    effect (select index) s = s.perform (.select index) := by
  rcases h : (Player.select index).alone s.player with ⟨os, q, e | _ | d⟩
  · rw [effect, alone_select_of_error h, perform, h]
  · rw [effect, alone_select_of_none h, perform, h]
  · rw [effect, alone_select_of_some h, perform, h]

theorem effect_process (dt : F) (s : Stage F) :
    effect (process dt) s = s.perform (s.framed dt) := by
  rw [effect, framed]
  cases h : s.isRevealing
  · rw [alone_process_of_not h]
    rfl
  · rw [if_pos rfl, perform]
    rcases htick : s.player.reveal.tick? dt with _ | reveal
    · rw [alone_process_of_none h htick]
    · rw [alone_process_of_some h htick]

theorem effect_skipReveal (s : Stage F) : effect skipReveal s = s.perform .complete := by
  rw [effect, alone_skipReveal]
  rfl

/-- A key that completes a running reveal, and otherwise does something else. -/
theorem effect_orElseReveal (otherwise : StageTurn F Bool) (s : Stage F) :
    effect (orElseReveal otherwise) s =
      if s.player.reveal.isComplete then effect otherwise s else s.perform .complete := by
  rw [effect, orElseReveal, Turn.alone_get_bind]
  split
  · rfl
  · exact (effect_bind_pure skipReveal true s).trans (effect_skipReveal s)

theorem effect_goOn (s : Stage F) :
    effect goOn s =
      s.perform (if s.player.phase = .atChoice then .select s.view.highlight else .advance) := by
  rw [effect, goOn, Turn.alone_get_bind]
  split
  · exact effect_select _ s
  · exact (effect_bind_pure start true s).trans (effect_start s)

theorem effect_highlight (places : Int) (s : Stage F) :
    effect (highlight fun v => v.moveHighlight places) s =
      s.perform (if s.player.phase = .atChoice then .highlight places else .rest) := by
  rw [effect, highlight, Turn.alone_get_bind]
  split <;> rfl

theorem effect_handle (a : Action) (s : Stage F) :
    effect (handle a) s = s.perform (if s.player.isEnded then .rest else s.pressed a) := by
  rw [effect, handle, Turn.alone_get_bind]
  cases s.player.isEnded
  · rw [if_neg Bool.false_ne_true, if_neg Bool.false_ne_true]
    cases a with
    | skip =>
      refine (effect_orElseReveal _ s).trans ?_
      rw [pressed]
      split <;> rfl
    | confirm =>
      refine (effect_orElseReveal _ s).trans ?_
      rw [pressed]
      split
      · exact effect_goOn s
      · rfl
    | menuUp => exact effect_highlight _ s
    | menuDown => exact effect_highlight _ s
    | choice i =>
      rw [pressed]
      dsimp only
      split
      · exact effect_select _ s
      · rfl
  · rfl

/-- **A cue does its task.** -/
theorem effect_turn (c : Cue F) (s : Stage F) : effect c.turn s = s.perform (s.task c) := by
  cases c with
  | player m =>
    rw [effect, Cue.turn, alone_playing]
    rfl
  | stage m =>
    cases m with
    | start => exact (effect_map _ _ s).trans (effect_start s)
    | press key =>
      cases key with
      | none => rfl
      | some a => exact (effect_map _ _ s).trans (effect_handle a s)
    | select index => exact (effect_map _ _ s).trans (effect_select index s)
    | skip => exact (effect_map _ _ s).trans (effect_skipReveal s)
    | process dt => exact (effect_bind_pure _ _ s).trans (effect_process dt s)
    | update dt =>
      refine (effect_bind_pure _ _ s).trans ?_
      rw [effect, alone_update, task]
      split
      · exact effect_process dt s
      · rfl
    | enable enabled => rfl

/-! ### Steps -/

/-- What a task does on a stage whose player makes steps. -/
inductive Step (s : Stage F) : Task F → List StageSignal → Stage F → Prop where
  | rest : Step s .rest [] s
  | played {m : Player.Move F} {os : List Signal} {q : Player F} {r : Except PlayFault Answer}
      (hmove : Player.Step s.player m os q r) :
      Step s (.play m) (os.map .player) (s.withPlayer q)
  | advanced {os : List Signal} {q : Player F} {r : Except PlayFault Answer}
      (hmove : Player.Step s.player .advance os q r) :
      Step s .advance (os.map .player ++ arrivals q) (s.arrived q)
  | rejected {index : Int} {why : Refusal} (hrefusal : s.player.refusal? index = some why) :
      Step s (.select index)
        [.player (.remark (.ignoredChoice index why)),
          .player (.notice (.choiceRejected index why))] s
  | taken {index : Int} {os : List Signal} {q : Player F} {d : Display}
      (hmove : Player.Step s.player (.select index) os q (.ok (.display (some d)))) :
      Step s (.select index) (os.map .player ++ arrivals q) (s.arrived q)
  | completed : Step s .complete s.completions s.skipped
  | ticked {dt : F} {reveal : Reveal F} (htick : s.player.reveal.tick? dt = some reveal) :
      Step s (.tick dt) (s.progress reveal) (s.ticked reveal)
  | overrun {dt : F} (htick : s.player.reveal.tick? dt = none) : Step s (.tick dt) [] s
  | highlighted {places : Int} :
      Step s (.highlight places) [] { s with view := s.view.moveHighlight places }
  | enabled {enabled : Bool} : Step s (.enable enabled) [] { s with enabled }

/-- **On a stage whose player is coherent a task is a step.** -/
theorem step_perform (hread : s.player.story.Readable) (hp : s.player.Coherent) (k : Task F) :
    Step s k (s.perform k).1 (s.perform k).2 := by
  have hmoves := Player.exists_step hread hp
  cases k with
  | rest => exact .rest
  | play m =>
    obtain ⟨os, q, r, halone, hmove⟩ := hmoves m
    rw [perform, Player.after, halone]
    exact .played hmove
  | advance =>
    obtain ⟨os, q, r, halone, hmove⟩ := hmoves .advance
    rw [Player.Move.turn, Turn.alone_map] at halone
    rcases h : Player.advance.alone s.player with ⟨os', q', e | d⟩
    · rw [h] at halone
      cases halone
      cases hmove
    · rw [h] at halone
      cases halone
      rw [perform, h]
      exact .advanced hmove
  | select index =>
    obtain ⟨os, q, r, halone, hmove⟩ := hmoves (.select index)
    rw [Player.Move.turn, Turn.alone_map] at halone
    rcases h : (Player.select index).alone s.player with ⟨os', q', e | _ | d⟩
    · rw [h] at halone
      cases halone
      cases hmove
    · rw [h] at halone
      cases halone
      rw [perform, h]
      cases hmove with
      | rejected hrefusal => exact .rejected hrefusal
    · rw [h] at halone
      cases halone
      rw [perform, h]
      exact .taken hmove
  | complete => exact .completed
  | tick dt =>
    rw [perform]
    rcases htick : s.player.reveal.tick? dt with _ | reveal
    · exact .overrun htick
    · exact .ticked htick
  | highlight places => exact .highlighted
  | enable enabled => exact .enabled

/-- Advancing brings the stage up to date with what the player has come to. -/
theorem Step.advances {os : List StageSignal} (h : Step s .advance os t) :
    ∃ os' q r, Player.Step s.player .advance os' q r ∧ os = os'.map .player ++ arrivals q ∧
      t = s.arrived q := by
  cases h with
  | advanced hmove => exact ⟨_, _, _, hmove, rfl, rfl⟩

/-- A step makes a step of the player, or leaves it as it is. -/
theorem Step.player {k : Task F} {os : List StageSignal} (h : Step s k os t) :
    t.player = s.player ∨ ∃ m os' r, Player.Step s.player m os' t.player r := by
  cases h with
  | rest | rejected | overrun | highlighted | enabled => exact .inl rfl
  | played hmove | advanced hmove | taken hmove => exact .inr ⟨_, _, _, hmove⟩
  | completed => exact .inr ⟨_, _, _, .skipped⟩
  | ticked htick => exact .inr ⟨_, _, _, .ticked htick⟩

theorem Step.story {k : Task F} {os : List StageSignal} (h : Step s k os t) :
    t.player.story = s.player.story := by
  rcases h.player with hsame | ⟨m, os', r, hmove⟩
  · rw [hsame]
  · exact hmove.story

theorem Step.coherent {k : Task F} {os : List StageSignal} (h : Step s k os t)
    (hs : s.player.Coherent) : t.player.Coherent := by
  rcases h.player with hsame | ⟨m, os', r, hmove⟩
  · rwa [hsame]
  · exact hmove.coherent hs

/-! ### Runs -/

/-- The stage after a cue that nobody listens to. -/
def after (s : Stage F) (c : Cue F) : Stage F := (c.turn.alone s).2.1

/-- The stage after cues that nobody listens to, in order. -/
def afterAll (s : Stage F) (cs : List (Cue F)) : Stage F := cs.foldl after s

/-- What is said in a run of cues that nobody listens to. -/
def said (s : Stage F) (c : Cue F) : List StageSignal := (c.turn.alone s).1

theorem after_eq (s : Stage F) (c : Cue F) : s.after c = (s.perform (s.task c)).2 :=
  congrArg Prod.snd (effect_turn c s)

theorem said_eq (s : Stage F) (c : Cue F) : s.said c = (s.perform (s.task c)).1 :=
  congrArg Prod.fst (effect_turn c s)

theorem step_after (hread : s.player.story.Readable) (hp : s.player.Coherent) (c : Cue F) :
    Step s (s.task c) (s.said c) (s.after c) := by
  rw [said_eq, after_eq]
  exact step_perform hread hp (s.task c)

/-- **A stage drives its player by moves only**, for every story. -/
theorem exists_player_after (s : Stage F) (c : Cue F) :
    ∃ ms, (s.after c).player = s.player.afterAll ms := by
  rw [after_eq]
  cases s.task c with
  | rest | highlight | enable => exact ⟨[], rfl⟩
  | play m => exact ⟨[m], rfl⟩
  | advance =>
    refine ⟨[.advance], ?_⟩
    rw [perform, Player.afterAll, List.foldl_cons, List.foldl_nil, Player.after, Player.Move.turn,
      Turn.alone_map]
    rcases Player.advance.alone s.player with ⟨os, q, e | d⟩ <;> rfl
  | select index =>
    refine ⟨[.select index], ?_⟩
    rw [perform, Player.afterAll, List.foldl_cons, List.foldl_nil, Player.after, Player.Move.turn,
      Turn.alone_map]
    rcases (Player.select index).alone s.player with ⟨os, q, e | _ | d⟩ <;> rfl
  | complete => exact ⟨[.skip], rfl⟩
  | tick dt =>
    rw [perform]
    split
    · next reveal htick =>
      refine ⟨[.tick dt], ?_⟩
      simp only [Player.afterAll, List.foldl_cons, List.foldl_nil, Player.after, Player.Move.turn,
        Turn.alone_get_bind, htick]
      rfl
    · exact ⟨[], rfl⟩

/-- What every move of the player keeps holds after every run of the stage. -/
theorem afterAll_player_induction {P : Player F → Prop}
    (hmove : ∀ (p : Player F) (m : Player.Move F), P p → P (p.after m)) (hs : P s.player)
    (cs : List (Cue F)) : P (s.afterAll cs).player := by
  induction cs generalizing s with
  | nil => exact hs
  | cons c cs ih =>
    refine ih ?_
    obtain ⟨ms, hms⟩ := exists_player_after s c
    rw [hms]
    exact Player.afterAll_induction hmove hs ms

end Parley.Stage
