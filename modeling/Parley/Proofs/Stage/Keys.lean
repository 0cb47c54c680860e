import Parley.Proofs.Stage.Reveals

/-!
# Keys that have no use, and keys that complete a reveal

Whether a key has a use depends on the state of the stage, and there are many ways for it to have
none: the conversation is over, nothing is being revealed, no choices are open, the choice has no
key, or it is refused by the player. In all of them the stage is left exactly as it was, and at most
the refusal is announced. That holds of any stage, and is read off the turns themselves.

While a text is being revealed, confirming and skipping complete it and do nothing else. Keys have
no use once the conversation is over, so this needs that nothing is being revealed then; that is an
invariant of a stage that drives its player alone.

## Main definitions

* `Stage.IsUnused` — a turn has no effect if it had no use
* `Stage.Gentle` — tasks of a stage that drives its player alone
* `Stage.Poised` — the invariant

## Main results

* `Stage.isUnused_handle`
* `Stage.alone_handle_of_revealing`
* `Stage.afterAll_gentle_induction`
* `Stage.press_after_cues`
-/

namespace Parley

variable {F : Type} [Tempo F]

/-- A selection whose answer is nothing was refused: the player is as it was, and all that was
announced is the refusal. -/
theorem Player.of_alone_select_none {p q : Player F} {index : Int} {os : List Signal}
    (h : (Player.select index).alone p = (os, q, .ok none)) :
    q = p ∧ ∃ why, noticesIn os = [.choiceRejected index why] := by
  rcases hrefusal : p.refusal? index with _ | why
  · rw [select, Turn.alone_get_bind, hrefusal] at h
    dsimp only at h
    rcases hchoice : p.choiceAt index.toNat with e | c
    · rw [hchoice] at h
      cases h
    · -- a choice that is taken is answered with what it shows
      rw [hchoice, Turn.alone_map] at h
      have hanswer := congrArg (fun r => r.2.2) h
      rcases htake : ((take index.toNat c).alone p).2.2 with e | d
      · rw [htake] at hanswer
        cases hanswer
      · rw [htake] at hanswer
        cases hanswer
  · rw [alone_select_of_refusal hrefusal] at h
    cases h
    exact ⟨rfl, why, rfl⟩

namespace Stage

variable {s t : Stage F} {story : Story} {os : List StageSignal} {k : Task F}

/-! ### Keys that have no use -/

/-- What is announced of a key that has no use: nothing, or that a selection is refused. -/
def Declines (ns : List Notice) : Prop := ns = [] ∨ ∃ index why, ns = [.choiceRejected index why]

/-- If the turn finds no use for what it was given, it leaves the stage as it was, and announces at
most a refusal. -/
def IsUnused (m : StageTurn F Bool) (s : Stage F) : Prop :=
  ∀ os t, m.alone s = (os, t, .ok false) → t = s ∧ Declines (heardIn os)

omit [Tempo F] in
theorem isUnused_pure (b : Bool) (s : Stage F) : IsUnused (pure b) s := by
  intro os t h
  cases h
  exact ⟨rfl, .inl rfl⟩

omit [Tempo F] in
/-- A turn that always has a use. -/
theorem isUnused_bind_true {α : Type} (m : StageTurn F α) (s : Stage F) :
    IsUnused (do let _ ← m; return true) s := by
  intro os t h
  rw [Turn.alone_bind] at h
  rcases halone : m.alone s with ⟨os', s', e | a⟩
  · rw [halone] at h
    cases h
  · rw [halone] at h
    cases h

theorem isUnused_select (index : Int) (s : Stage F) : IsUnused (select index) s := by
  intro os t h
  rcases hselect : (Player.select index).alone s.player with ⟨os', q, e | _ | d⟩
  · rw [alone_select_of_error hselect] at h
    cases h
  · rw [alone_select_of_none hselect] at h
    cases h
    obtain ⟨rfl, why, hwhy⟩ := Player.of_alone_select_none hselect
    exact ⟨rfl, .inr ⟨index, why, (heardIn_map_player os').trans hwhy⟩⟩
  · rw [alone_select_of_some hselect] at h
    cases h

theorem isUnused_orElseReveal {otherwise : StageTurn F Bool} (h : IsUnused otherwise s) :
    IsUnused (orElseReveal otherwise) s := by
  intro os t hturn
  rw [orElseReveal, Turn.alone_get_bind] at hturn
  split at hturn
  · exact h os t hturn
  · exact isUnused_bind_true skipReveal s os t hturn

theorem isUnused_goOn (s : Stage F) : IsUnused goOn s := by
  intro os t hturn
  rw [goOn, Turn.alone_get_bind] at hturn
  split at hturn
  · exact isUnused_select _ s os t hturn
  · exact isUnused_bind_true start s os t hturn

omit [Tempo F] in
theorem isUnused_highlight (move : View → View) (s : Stage F) : IsUnused (highlight move) s := by
  intro os t hturn
  rw [highlight, Turn.alone_get_bind] at hturn
  split at hturn
  · exact isUnused_bind_true (changeView move) s os t hturn
  · exact isUnused_pure false s os t hturn

/-- **A key that has no use has no effect.** -/
theorem isUnused_handle (a : Action) (s : Stage F) : IsUnused (handle a) s := by
  intro os t hturn
  rw [handle, Turn.alone_get_bind] at hturn
  split at hturn
  · exact isUnused_pure false s os t hturn
  · cases a with
    | skip => exact isUnused_orElseReveal (isUnused_pure false s) os t hturn
    | confirm => exact isUnused_orElseReveal (isUnused_goOn s) os t hturn
    | menuUp | menuDown => exact isUnused_highlight _ s os t hturn
    | choice i =>
      dsimp only at hturn
      split at hturn
      · exact isUnused_select _ s os t hturn
      · exact isUnused_pure false s os t hturn

/-- The same of a key that may have no action at all. -/
theorem of_alone_press_false {key : Option Action}
    (h : (Cue.stage (.press key)).turn.alone s = (os, t, .ok (.flag false))) :
    t = s ∧ Declines (heardIn os) := by
  rcases key with _ | a
  · cases h
    exact ⟨rfl, .inl rfl⟩
  · rw [Cue.turn, Move.turn, Turn.alone_map] at h
    rcases hhandle : (handle a).alone s with ⟨os', t', e | b⟩
    · rw [hhandle] at h
      cases h
    · rw [hhandle] at h
      cases h
      exact isUnused_handle a s _ _ hhandle

/-! ### Keys that complete a reveal -/

theorem alone_orElseReveal_of_revealing (h : s.player.reveal.isComplete = false)
    (otherwise : StageTurn F Bool) :
    (orElseReveal otherwise).alone s = (s.completions, s.skipped, .ok true) := by
  rw [orElseReveal, Turn.alone_get_bind, h, if_neg Bool.false_ne_true, Turn.alone_bind,
    alone_skipReveal]
  exact congrArg (·, _) (List.append_nil _)

/-- **While a text is being revealed, confirming and skipping complete it**, and do nothing else. -/
theorem alone_handle_of_revealing (hended : s.player.isEnded = false)
    (h : s.player.reveal.isComplete = false) {a : Action} (ha : a = .confirm ∨ a = .skip) :
    (handle a).alone s = (s.completions, s.skipped, .ok true) := by
  rw [handle, Turn.alone_get_bind, hended, if_neg Bool.false_ne_true]
  rcases ha with rfl | rfl
  · exact alone_orElseReveal_of_revealing h goOn
  · exact alone_orElseReveal_of_revealing h (pure false)

/-! ### A stage that drives its player alone -/

/-- Tasks of a stage that drives its player alone: others only write variables, and time passes only
while a text is being revealed. -/
def Gentle (s : Stage F) : Task F → Prop
  | .play m => m.deed? ≠ none
  | .tick _ => s.isRevealing = true
  | _ => True

theorem gentle_framed (s : Stage F) (dt : F) : s.Gentle (s.framed dt) := by
  rw [framed]
  split
  · assumption
  · trivial

theorem gentle_task {c : Cue F} (hc : c.KeepsOff) (s : Stage F) : s.Gentle (s.task c) := by
  cases c with
  | player m => exact hc
  | stage m =>
    cases m with
    | start | select | skip | enable => trivial
    | process dt => exact gentle_framed s dt
    | update dt =>
      rw [task]
      split
      · exact gentle_framed s dt
      · trivial
    | press key =>
      rcases key with _ | a
      · trivial
      · rw [task]
        split
        · trivial
        · cases a with
          | skip | menuUp | menuDown | choice =>
            rw [pressed]
            split <;> trivial
          | confirm =>
            rw [pressed]
            split
            · split <;> trivial
            · trivial

/-- A move that others make of the player writes its store. -/
theorem rewritten_of_deed? {p q : Player F} {m : Player.Move F} {os : List Signal}
    {r : Except PlayFault Answer} (h : Player.Step p m os q r) (hm : m.deed? ≠ none) :
    p.Rewritten q := by
  cases h with
  | written => exact ⟨_, rfl⟩
  | idle | next | rejected | taken | skipped | ticked | overrun => exact absurd rfl hm

/-- What gentle steps keep holds after cues that keep off. -/
theorem afterAll_gentle_induction {I : Stage F → Prop} (hread : story.Readable)
    (hplayer : ∀ s, I s → s.player.story = story ∧ s.player.Coherent)
    (hstep : ∀ s k os t, I s → Step s k os t → s.Gentle k → I t) (hs : I s) {cs : List (Cue F)}
    (hcs : ∀ c ∈ cs, c.KeepsOff) : I (s.afterAll cs) := by
  induction cs generalizing s with
  | nil => exact hs
  | cons c cs ih =>
    rw [List.forall_mem_cons] at hcs
    obtain ⟨rfl, hcoherent⟩ := hplayer s hs
    exact ih (hstep _ _ _ _ hs (step_after hread hcoherent c) (gentle_task hcs.1 s)) hcs.2

/-- What holds of a stage at any time: its player is coherent, and when the conversation is over no
text is being revealed. -/
structure Poised (story : Story) (s : Stage F) : Prop where
  story_eq : s.player.story = story
  coherent : s.player.Coherent
  ended : s.player.isEnded = true → s.player.reveal.At 0

omit [Tempo F] in
/-- The text at the end is empty. -/
theorem text_of_isEnded {p : Player F} (hp : p.Coherent) (h : p.isEnded = true) :
    p.reveal.text = [] := by
  have hphase : p.phase = .ended := by simpa [Player.isEnded] using h
  cases hp with
  | fresh phase | atLine phase | atChoice phase => cases phase.symm.trans hphase
  | ended phase node choices shows => exact shows.text

theorem Poised.step (limit : Nat) [Tempo.Exact F limit] (hs : s.Poised story)
    (h : Step s k os t) (hk : s.Gentle k) : t.Poised story := by
  refine ⟨h.story.trans hs.story_eq, h.coherent hs.coherent, fun hended => ?_⟩
  cases h with
  | rest | rejected | overrun | highlighted | enabled => exact hs.ended hended
  | played hmove =>
    obtain ⟨store, rfl⟩ := rewritten_of_deed? hmove hk
    exact hs.ended hended
  | advanced hmove =>
    cases hmove with
    | idle => exact hs.ended hended
    | next _ hsettles =>
      exact hsettles.shows.2 ▸ Reveal.at_start limit _ _
    | written hwritten => cases hwritten
  | taken hmove =>
    cases hmove with
    | taken _ _ hsettles => exact hsettles.shows.2 ▸ Reveal.at_start limit _ _
  | completed =>
    have htext := text_of_isEnded hs.coherent hended
    have hlength : s.player.reveal.text.length ≤ limit := htext ▸ Nat.zero_le limit
    have hat := Reveal.at_skip hlength
    rwa [htext] at hat
  | ticked htick =>
    -- a tick belongs to a text that is being revealed, so the conversation is not over
    rw [Gentle, isRevealing] at hk
    have hrunning : s.player.isEnded = true := hended
    rw [hrunning] at hk
    cases hk

theorem Poised.isEnded_of_revealing (hs : s.Poised story)
    (h : s.player.reveal.isComplete = false) : s.player.isEnded = false := by
  by_contra hended
  have hended := Bool.eq_true_of_not_eq_false hended
  have hat := (hs.ended hended).isComplete_iff
  rw [text_of_isEnded hs.coherent hended, h] at hat
  cases hat.mpr rfl

/-- **A key that has no use has no effect, and a reveal absorbs confirming and skipping.** A stage
is set up around a player at the start of a readable story, before any passive audience, on a host
in whatever state. It is started, keys are pressed, choices selected, texts skipped and frames
passed, and variables written in between. Then a key is pressed. If there was no use for it, the
stage is as it was, and at most the refusal of a selection was announced. If a text was being
revealed and the key confirms or skips, there was a use for it: the whole text is shown, which is
announced unless it was before, and everything else is as it was. -/
theorem press_after_cues {M χ η : Type} [DecidableEq χ] [DecidableEq η] (limit : Nat)
    [Tempo.Exact F limit] (hread : story.Readable) {conversation : Text} {store : Store} {speed : F}
    {view : View} {keyLimit : Int} {h : Host (House F M) χ NoticeKind Notice η}
    (hstage : h.world.stage = around (Player.start story conversation store speed) view keyLimit)
    (wires : Wiring χ) {react : η → Nat → Reaction F M χ η Unit} (hpassive : IsPassive react)
    (supply : Nat) {cs : List (Cue F)} (hcs : ∀ c ∈ cs, c.KeepsOff) (key : Option Action) :
    (∀ r ∈ performance wires react supply h (cs ++ [.stage (.press key)]), r.1 ≠ .exhausted) →
      let house := hostAfter wires react supply h cs
      let r := Host.run (audience react) supply (staging wires (.stage (.press key))) house
      let s := house.world.stage
      let t := r.2.world.stage
      let heard := heardIn (r.2.world.said.map Prod.snd)
      (r.1 = .returned (.flag false) →
        t = s ∧ (heard = [] ∨ ∃ index why, heard = [.choiceRejected index why])) ∧
      (s.player.reveal.isComplete = false → key = some .confirm ∨ key = some .skip →
        r.1 = .returned (.flag true) ∧
          t = { s with
            player := { s.player with reveal := s.player.reveal.skip }
            view := { s.view with shown := s.player.reveal.text }
            completed := true } ∧
          heard = (if s.completed then [] else [.textCompleted s.player.reveal.text]) ∧
          (s.player.reveal.text.length ≤ limit → t.player.reveal.isComplete = true)) := by
  intro hends house r s t heard
  rw [performance_append, List.forall_mem_append] at hends
  obtain ⟨hbefore, hpress⟩ := hends
  have hpress : r.1 ≠ .exhausted := hpress _ List.mem_cons_self
  obtain ⟨houtcome, hleft, hsaid⟩ := run_eq_alone wires hpassive supply house _ hpress
  have houtcome : r.1 = .ofExcept ((Cue.stage (.press key)).turn.alone s).2.2 := houtcome
  have hleft : t = ((Cue.stage (.press key)).turn.alone s).2.1 := hleft
  have hheard : heard = heardIn ((Cue.stage (.press key)).turn.alone s).1 := by
    rw [← Turn.map_snd_told, ← hsaid]
  rw [houtcome, hleft, hheard]
  refine ⟨fun hfalse => ?_, fun hrevealing hkey => ?_⟩
  · rcases halone : (Cue.stage (.press key)).turn.alone s with ⟨os, t', e | b⟩
    · rw [halone] at hfalse
      cases hfalse
    · rw [halone] at hfalse
      cases hfalse
      exact of_alone_press_false halone
  · have hpoised : s.Poised story := by
      have hopening : h.world.stage.Poised story := by
        rw [hstage]
        exact ⟨rfl, Player.coherent_start story conversation store speed, nofun⟩
      rw [show s = h.world.stage.afterAll cs from
        stage_hostAfter wires hpassive supply h cs hbefore]
      exact afterAll_gentle_induction hread (fun _ hs => ⟨hs.story_eq, hs.coherent⟩)
        (fun _ _ _ _ hs => hs.step limit) hopening hcs
    have hended := hpoised.isEnded_of_revealing hrevealing
    obtain ⟨a, rfl, ha⟩ : ∃ a, key = some a ∧ (a = .confirm ∨ a = .skip) := by
      rcases hkey with rfl | rfl
      · exact ⟨_, rfl, .inl rfl⟩
      · exact ⟨_, rfl, .inr rfl⟩
    rw [Cue.turn, Move.turn, Turn.alone_map, alone_handle_of_revealing hended hrevealing ha]
    refine ⟨rfl, rfl, ?_, fun hlength => ?_⟩
    · rw [completions]
      cases s.completed <;> rfl
    · exact (Reveal.at_skip hlength).isComplete_iff.mpr rfl

/-- The gate before the critic. -/
def reviewedGate : Host (House Rat Nat) Unit NoticeKind Notice Nat :=
  reviewedHost (around (Player.start Player.gate "gate".toList .empty (20 : Rat)) .blank 9)

/-- A key pressed at the gate, before the critic and after some cues. -/
def pressedAtGate (cs : List (Cue Rat)) (key : Action) :
    Outcome PlayFault Answer × Host (House Rat Nat) Unit NoticeKind Notice Nat :=
  Host.run (audience critic) 8 (staging ⟨some (), some ()⟩ (.stage (.press (some key))))
    (hostAfter ⟨some (), some ()⟩ critic 8 reviewedGate cs)

/-- The first line absorbs confirming once; two keys later the choices are open, and the one that
cannot be paid for is refused. -/
theorem press_after_cues_gate :
    let cs : List (Cue Rat) := [.stage .start, .stage (.update (1 / 10))]
    let ds := cs ++ [.stage (.press (some .confirm)), .stage (.press (some .confirm))]
    Player.gate.Readable ∧ IsPassive critic ∧ (∀ c ∈ ds, c.KeepsOff) ∧
      (∀ r ∈ performance ⟨some (), some ()⟩ critic 8 reviewedGate
        (ds ++ [.stage (.press (some (.choice 0)))]), r.1 ≠ .exhausted) ∧
      ((pressedAtGate cs .confirm).1 = .returned (.flag true) ∧
        (pressedAtGate cs .confirm).2.world.stage.player.reveal.isComplete = true) ∧
      (pressedAtGate ds (.choice 0)).1 = .returned (.flag false) ∧
        (pressedAtGate ds (.choice 0)).2.world.stage =
          (hostAfter ⟨some (), some ()⟩ critic 8 reviewedGate ds).world.stage := by
  intro cs ds
  have hread : Player.gate.Readable := by decide
  have hstage : reviewedGate.world.stage =
      around (Player.start Player.gate "gate".toList .empty (20 : Rat)) .blank 9 := rfl
  have hds : ∀ c ∈ ds, c.KeepsOff := by simp [ds, cs, Cue.KeepsOff]
  have hcs : ∀ c ∈ cs, c.KeepsOff := by simp [cs, Cue.KeepsOff]
  have hconfirm : ∀ r ∈ performance ⟨some (), some ()⟩ critic 8 reviewedGate
      (cs ++ [.stage (.press (some .confirm))]), r.1 ≠ .exhausted := by decide +kernel
  have hchoice : ∀ r ∈ performance ⟨some (), some ()⟩ critic 8 reviewedGate
      (ds ++ [.stage (.press (some (.choice 0)))]), r.1 ≠ .exhausted := by decide +kernel
  have hrevealing : (hostAfter ⟨some (), some ()⟩ critic 8 reviewedGate
      cs).world.stage.player.reveal.isComplete = false := by decide +kernel
  have hlength : (hostAfter ⟨some (), some ()⟩ critic 8 reviewedGate
      cs).world.stage.player.reveal.text.length ≤ 32 := by decide +kernel
  have hrefused : (pressedAtGate ds (.choice 0)).1 = .returned (.flag false) := by decide +kernel
  have habsorbed := press_after_cues 32 hread hstage _ isPassive_critic 8 hcs _ hconfirm
  have hunused := press_after_cues 32 hread hstage _ isPassive_critic 8 hds _ hchoice
  dsimp only [pressedAtGate] at habsorbed hunused hrefused ⊢
  obtain ⟨houtcome, -, -, hcomplete⟩ := habsorbed.2 hrevealing (.inl rfl)
  exact ⟨hread, isPassive_critic, hds, hchoice, ⟨houtcome, hcomplete hlength⟩, hrefused,
    (hunused.1 hrefused).1⟩

end Stage

end Parley
