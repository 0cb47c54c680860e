import Parley.Proofs.Playback.Deeds
import Parley.Proofs.Playback.Texts
import Parley.Proofs.Reveal.Laws
import Parley.Proofs.Stage.Audience

/-!
# The view is faithful

A renderer draws the view and never looks at the player. The stage writes the view in several
places, each time a part of it, while the player changes underneath. `View.Mirrors` says that every
field of the view is what the player says it should be, and that holds after each cue from the first
start on. It does not ask that the player is coherent: whatever the player has come to, when the
stage is brought up to date with it the view is faithful. What coherence adds is that there is
something on screen, whose speaker and text these are.

The host and the audience must not move the player behind the back of the stage. Both may write
variables, since no field of the view shows one; the audience does so in the middle of a cue, so the
turns of the stage are gone through with a pact that leaves the store to others. The pact also says
when completion may be announced, which a view does not show.

## Main definitions

* `View.InPlace` — the highlight is on a choice, if there are any
* `View.Mirrors` — a view agrees with a player
* `Stage.Cue.KeepsOff` — cues that leave the player to the stage
* `Stage.performing` — the pact with an audience that writes variables

## Main results

* `Stage.presents_cue` — every cue keeps the view faithful
* `Stage.presented_performance_start` — what performances leave, and what they announce
* `Stage.mirrors_performance_start` — the view agrees with the player after every cue
-/

namespace Parley

/-! ### The highlight -/

/-- The highlight is on one of the choices, and on the first place if there are none. -/
def View.InPlace (v : View) : Prop :=
  (v.choices = [] ∧ v.highlight = 0) ∨ (0 ≤ v.highlight ∧ v.highlight < v.choices.length)

theorem View.inPlace_of_highlight_eq_zero {v : View} (h : v.highlight = 0) : v.InPlace := by
  rcases hchoices : v.choices with _ | ⟨c, cs⟩
  · exact .inl ⟨hchoices, h⟩
  · refine .inr ⟨h.ge, ?_⟩
    rw [h, hchoices, List.length_cons]
    exact Int.natCast_pos.mpr cs.length.succ_pos

/-- The highlight wraps around at both ends. -/
theorem View.InPlace.moveHighlight {v : View} (h : v.InPlace) (places : Int) :
    (v.moveHighlight places).InPlace := by
  rw [View.moveHighlight]
  split
  · exact h
  · next hne =>
    have hlength : 0 < v.choices.length := by simpa [List.length_pos_iff] using hne
    exact .inr ⟨Int.emod_nonneg _ (by omega), Int.emod_lt_of_pos _ (by omega)⟩

/-! ### A view of a player -/

/-- Whoever speaks a line speaks, and nobody does at choices or at the end. -/
theorem Display.speaker_cases (d : Display) :
    (∃ t, d = .line d.speaker t) ∨
      ((∃ views, d = .choices views) ∨ ∃ id, d = .ended id) ∧ d.speaker = [] := by
  cases d with
  | line speaker t => exact .inl ⟨t, rfl⟩
  | choices views => exact .inr ⟨.inl ⟨views, rfl⟩, rfl⟩
  | ended id => exact .inr ⟨.inr ⟨id, rfl⟩, rfl⟩

variable {F : Type} [Tempo F]

/-- **The view agrees with the player.** -/
structure View.Mirrors (v : View) (p : Player F) : Prop where
  phase : v.phase = p.phase
  conversation : v.conversation = some p.conversation
  speaker : v.speaker = (p.display.map Display.speaker).getD []
  text : v.text = p.reveal.text
  shown : v.shown = p.reveal.shown
  choices : v.choices = p.choices
  highlight : v.InPlace

section Mirrors

variable {v : View} {p q : Player F}

/-- Whatever the player is like, the view is faithful when it has been brought up to date. -/
theorem View.mirrors_viewOf (p : Player F) : (Stage.viewOf p).Mirrors p :=
  ⟨rfl, rfl, rfl, rfl, rfl, rfl, View.inPlace_of_highlight_eq_zero rfl⟩

/-- The store of the player does not concern the view. -/
theorem View.Mirrors.rewritten (h : v.Mirrors p) (hq : p.Rewritten q) : v.Mirrors q := by
  obtain ⟨store, rfl⟩ := hq
  exact ⟨h.phase, h.conversation, h.speaker, h.text, h.shown, h.choices, h.highlight⟩

theorem View.Mirrors.revealed (h : v.Mirrors p) {reveal : Reveal F}
    (htext : reveal.text = p.reveal.text) :
    { v with shown := reveal.shown }.Mirrors { p with reveal } :=
  ⟨h.phase, h.conversation, h.speaker, h.text.trans htext.symm, rfl, h.choices, h.highlight⟩

theorem View.Mirrors.moveHighlight (h : v.Mirrors p) (places : Int) :
    (v.moveHighlight places).Mirrors p := by
  have hplace := h.highlight.moveHighlight places
  rw [View.moveHighlight] at hplace ⊢
  split
  · exact h
  · next hne =>
    rw [if_neg hne] at hplace
    exact ⟨h.phase, h.conversation, h.speaker, h.text, h.shown, h.choices, hplace⟩

end Mirrors

namespace Stage

variable {s t : Stage F} {story : Story} {α : Type}

/-! ### Turns before an audience that writes variables -/

/-- What holds of a stage from its first start on, when only the stage moves its player. -/
structure Running (story : Story) (s : Stage F) : Prop where
  landed : s.player.Landed story
  mirrors : s.view.Mirrors s.player

theorem Running.rewritten (h : s.Running story) (ht : s.Rewritten t) : t.Running story := by
  obtain ⟨p, hp, rfl⟩ := ht
  exact ⟨h.landed.rewritten hp, h.mirrors.rewritten hp⟩

/-- The pact of a stage with an audience that writes variables. Completion is announced of the text
on screen, and only when it is complete. Where a cue fails the stage is running too. -/
def performing (story : Story) : Pact (Stage F) StageSignal where
  allows s
    | .stage (.textCompleted t) => s.player.reveal.isComplete = true ∧ s.player.reveal.text = t
    | _ => True
  leaves s _ t := s.Rewritten t
  fails := Running story

/-- A turn that leaves the stage running. -/
abbrev Presents (story : Story) (m : StageTurn F α) (s : Stage F) : Prop :=
  m.Abides (performing story) s fun _ t => t.Running story

theorem presents_announce {n : Notice} (hn : (performing story).allows s (.stage n))
    (hs : s.Running story) : Presents story (announce n) s :=
  Turn.Abides.mono (Turn.abides_say hn) fun _ _ ht => hs.rewritten ht

theorem presents_announceCompletion (hcomplete : s.player.reveal.isComplete = true)
    (hs : s.Running story) : Presents story announceCompletion s := by
  rw [announceCompletion]
  refine Turn.Abides.get_bind ?_
  split
  · exact hs
  · have hallows : (performing story).allows { s with completed := true }
        (.stage (.textCompleted s.player.reveal.text)) := ⟨hcomplete, rfl⟩
    exact Turn.Abides.modify_bind (presents_announce hallows ⟨hs.landed, hs.mirrors⟩)

/-- A turn of the player leaves the rest of the stage as it is. -/
theorem abides_playing {m : PlayerTurn F α} {R : α → Player F → Prop}
    (hm : Player.Withstands m s.player R) :
    (playing m).Abides (performing story) s fun a t => ∃ q, R a q ∧ t = s.withPlayer q := by
  refine Turn.Abides.embed (J := fun t => ∃ q, t = s.withPlayer q) (fun _ _ => rfl) ?_
    (fun _ _ _ _ => trivial) ?_ (fun _ _ => False.elim) ?_ hm ⟨s.player, rfl⟩
  · rintro q t ⟨p, rfl⟩
    exact ⟨q, rfl⟩
  · rintro t o u ⟨p, rfl⟩ ⟨q, hq, rfl⟩
    exact ⟨⟨q, rfl⟩, hq⟩
  · rintro a t ⟨q, rfl⟩ hq
    exact ⟨q, hq, rfl⟩

/-- Whatever the view was, it is faithful when the stage has been brought up to date. -/
theorem presents_sync (hs : s.player.Landed story) : Presents story sync s := by
  rw [sync]
  refine Turn.Abides.modify_bind (Turn.Abides.get_bind ?_)
  have hsynced : Running story { s with view := viewOf s.player, completed := false } :=
    ⟨hs, View.mirrors_viewOf s.player⟩
  split
  · next h =>
    rw [Bool.and_eq_true] at h
    exact presents_announceCompletion h.2 hsynced
  · exact hsynced

/-- The stage runs once it was started, even if it did not before. -/
theorem presents_start (hread : story.Readable) (hstory : s.player.story = story)
    (hcoherent : s.player.Coherent) : Presents story start s := by
  refine Turn.Abides.bind (abides_playing (Player.withstands_advance hread hstory hcoherent)) ?_
  rintro d t ⟨q, hq, rfl⟩
  exact Turn.Abides.bind (presents_sync hq) fun _ _ ht => ht

section Running

variable (hs : s.Running story)

include hs

theorem Running.presents_start (hread : story.Readable) : Presents story start s :=
  Stage.presents_start hread hs.landed.story_eq hs.landed.coherent

theorem presents_select (hread : story.Readable) (index : Int) :
    Presents story (select index) s := by
  have hselect := Player.withstands_select hread hs.landed.story_eq hs.landed.coherent index
  refine Turn.Abides.bind (abides_playing hselect) ?_
  rintro d t ⟨q, ⟨rfl, hq⟩ | ⟨hd, hq⟩, rfl⟩
  · exact hs.rewritten ⟨q, hq, rfl⟩
  · obtain ⟨d, rfl⟩ := Option.isSome_iff_exists.mp hd
    exact Turn.Abides.bind (presents_sync hq) fun _ _ ht => ht

theorem presents_goOn (hread : story.Readable) : Presents story goOn s := by
  rw [goOn]
  refine Turn.Abides.get_bind ?_
  split
  · exact presents_select hs hread _
  · exact Turn.Abides.bind (hs.presents_start hread) fun _ _ ht => ht

theorem presents_highlight (places : Int) :
    Presents story (highlight fun v => v.moveHighlight places) s := by
  rw [highlight]
  refine Turn.Abides.get_bind ?_
  split
  · exact Turn.Abides.modify_bind ⟨hs.landed, hs.mirrors.moveHighlight places⟩
  · exact hs

/-- How much is revealed may change, as long as the view shows it. -/
theorem Running.revealed {reveal : Reveal F} (htext : reveal.text = s.player.reveal.text) :
    Running story { s with
      player := { s.player with reveal }
      view := { s.view with shown := reveal.shown } } := by
  obtain ⟨d, hd⟩ := hs.landed.shows
  exact ⟨⟨hs.landed.story_eq, hs.landed.coherent.of_scenery _ htext, d, hd.display,
    htext.trans hd.text⟩, hs.mirrors.revealed htext⟩

theorem presents_process (dt : F) : Presents story (process dt) s := by
  have hcompletion (t : Stage F) (ht : t.Running story) : Presents story (do
      let s ← Turn.get
      if (s : Stage F).player.reveal.isComplete then announceCompletion else pure ()) t := by
    refine Turn.Abides.get_bind ?_
    split
    · next hcomplete => exact presents_announceCompletion hcomplete ht
    · exact ht
  rw [process]
  refine Turn.Abides.get_bind ?_
  split
  · exact hs
  · split
    · exact Turn.abides_fail _ hs
    · next reveal htick =>
      have hticked := hs.revealed (Reveal.tick?_text_speed htick).1
      refine Turn.Abides.modify_bind ?_
      split
      · exact Turn.Abides.bind (presents_announce trivial hticked) fun _ t ht => hcompletion t ht
      · exact hcompletion _ hticked

variable {limit : Nat} [Tempo.Exact F limit] (hfits : story.FitsIn limit)

include hfits

theorem presents_skipReveal : Presents story skipReveal s := by
  have hlength : s.player.reveal.text.length ≤ limit :=
    hs.landed.coherent.length_text_le (hs.landed.story_eq ▸ hfits)
  have hskipped := hs.revealed (Reveal.skip_text s.player.reveal)
  rw [Reveal.shown_skip hlength] at hskipped
  have hcomplete : s.player.reveal.skip.isComplete = true :=
    (Reveal.at_skip hlength).isComplete_iff.mpr rfl
  rw [skipReveal]
  refine Turn.Abides.modify_bind (Turn.Abides.get_bind ?_)
  exact Turn.Abides.bind (presents_announceCompletion hcomplete hskipped) fun _ _ ht => ht

theorem presents_orElseReveal {otherwise : StageTurn F Bool}
    (hother : Presents story otherwise s) : Presents story (orElseReveal otherwise) s := by
  rw [orElseReveal]
  refine Turn.Abides.get_bind ?_
  split
  · exact hother
  · exact Turn.Abides.bind (presents_skipReveal hs hfits) fun _ _ ht => ht

theorem presents_handle (hread : story.Readable) (a : Action) :
    Presents story (handle a) s := by
  rw [handle]
  refine Turn.Abides.get_bind ?_
  split
  · exact hs
  · cases a with
    | skip => exact presents_orElseReveal hs hfits hs
    | confirm => exact presents_orElseReveal hs hfits (presents_goOn hs hread)
    | menuUp | menuDown => exact presents_highlight hs _
    | choice i =>
      dsimp only
      split
      · exact presents_select hs hread _
      · exact hs

end Running

/-! ### Cues -/

omit [Tempo F] in
/-- A cue that leaves the player to the stage. Its variables may be written. -/
def Cue.KeepsOff : Cue F → Prop
  | stage _ => True
  | player m => m.deed? ≠ none

/-- Writing the variables of the player is no more than an audience does. -/
theorem withstands_of_deed? {m : Player.Move F} (hm : m.deed? ≠ none) (p : Player F) :
    Player.Withstands m.turn p fun _ q => p.Rewritten q := by
  cases m with
  | setNumber | setFlag | clearStore => exact ⟨_, rfl⟩
  | advance | select | skip | tick => exact absurd rfl hm

/-- **Every cue keeps the view faithful**, when the texts are short enough to be skipped exactly and
nobody but the stage moves the player. -/
theorem presents_cue {limit : Nat} [Tempo.Exact F limit] (hread : story.Readable)
    (hfits : story.FitsIn limit) (hs : s.Running story) {c : Cue F} (hc : c.KeepsOff) :
    Presents story c.turn s := by
  cases c with
  | player m =>
    refine (abides_playing (withstands_of_deed? hc s.player)).mono ?_
    rintro a t ⟨q, hq, rfl⟩
    exact hs.rewritten ⟨q, hq, rfl⟩
  | stage m =>
    cases m with
    | start => exact Turn.Abides.map (hs.presents_start hread)
    | press key =>
      rcases key with _ | a
      · exact hs
      · exact Turn.Abides.map (presents_handle hs hfits hread a)
    | select index => exact Turn.Abides.map (presents_select hs hread index)
    | skip => exact Turn.Abides.map (presents_skipReveal hs hfits)
    | process dt => exact Turn.Abides.bind (presents_process hs dt) fun _ _ ht => ht
    | update dt =>
      refine Turn.Abides.bind (R := fun _ t => t.Running story) ?_ fun _ _ ht => ht
      rw [Stage.update]
      refine Turn.Abides.get_bind ?_
      rw [Frame.hooks]
      split
      · simp only [Turn.each, runHook, pure_bind, bind_pure_unit]
        exact presents_process hs dt
      · exact hs
    | enable => exact Turn.Abides.modify_bind ⟨hs.landed, hs.mirrors⟩

/-! ### Performances -/

section Performances

variable {M χ η : Type} [DecidableEq χ] [DecidableEq η] {wires : Wiring χ}
  {react : η → Nat → Reaction F M χ η Unit} {supply : Nat}
  {h : Host (House F M) χ NoticeKind Notice η}

/-- What a cue that keeps to the pact leaves, before any audience, and what it says. -/
def Presented (story : Story) (w : House F M) : Prop :=
  w.stage.Running story ∧ ∀ x ∈ w.said, (performing story).allows x.1 x.2

theorem presented_run {c : Cue F} (hc : Presents story c.turn h.world.stage)
    (hends : (Host.run (audience react) supply (staging wires c) h).1 ≠ .exhausted) :
    Presented story (Host.run (audience react) supply (staging wires c) h).2.world := by
  obtain ⟨xs, result, hplay, hsaid, -⟩ :=
    playedOut_run Rewritten Rewritten.refl keep_audience wires supply h c hends
  obtain ⟨hallowed, hcloses⟩ := Play.Abides.of_ends hplay hc
  refine ⟨?_, hsaid ▸ hallowed⟩
  rcases result with e | a
  · exact hcloses
  · exact hcloses

theorem presented_performance {limit : Nat} [Tempo.Exact F limit] (hread : story.Readable)
    (hfits : story.FitsIn limit) (hs : h.world.stage.Running story) {cs : List (Cue F)}
    (hcs : ∀ c ∈ cs, c.KeepsOff)
    (hends : ∀ r ∈ performance wires react supply h cs, r.1 ≠ .exhausted) :
    ∀ r ∈ performance wires react supply h cs, Presented story r.2 := by
  induction cs generalizing h with
  | nil =>
    rw [performance]
    exact List.forall_mem_nil _
  | cons c cs ih =>
    rw [List.forall_mem_cons] at hcs
    rw [performance, List.forall_mem_cons] at hends ⊢
    have hpresented := presented_run (presents_cue hread hfits hs hcs.1) hends.1
    exact ⟨hpresented, ih hpresented.1 hcs.2 hends.2⟩

/-- The first start puts something on screen, whatever view there was. -/
theorem presented_performance_start {limit : Nat} [Tempo.Exact F limit] (hread : story.Readable)
    (hfits : story.FitsIn limit) (hstory : h.world.stage.player.story = story)
    (hcoherent : h.world.stage.player.Coherent) {cs : List (Cue F)} (hcs : ∀ c ∈ cs, c.KeepsOff)
    (hends : ∀ r ∈ performance wires react supply h (.stage .start :: cs), r.1 ≠ .exhausted) :
    ∀ r ∈ performance wires react supply h (.stage .start :: cs), Presented story r.2 := by
  have hstarted : Presents story (Cue.stage .start : Cue F).turn h.world.stage :=
    Turn.Abides.map (presents_start hread hstory hcoherent)
  rw [performance, List.forall_mem_cons] at hends ⊢
  have hpresented := presented_run hstarted hends.1
  exact ⟨hpresented, presented_performance hread hfits hpresented.1 hcs hends.2⟩

end Performances

/-- **The view always agrees with the player.** A stage is set up around a player at the start of a
readable story, with a fresh view, before any audience that writes no more than variables, on a host
in whatever state. From its first start on, whatever keys are pressed, choices selected, texts
skipped and frames passed, with the stage switched off and on and variables written in between:
after each of these the phase, the conversation and the choices are those of the player, the text is
that of what is on screen, the speaker is the one of the line, and nobody at choices and at the end,
what is shown is what is revealed and a beginning of the text, and the highlight is on one of the
choices, or at the first place if there are none. -/
theorem mirrors_performance_start {M χ η : Type} [DecidableEq χ] [DecidableEq η] {limit : Nat}
    [Tempo.Exact F limit] (hread : story.Readable) (hfits : story.FitsIn limit)
    (conversation : Text) (store : Store) (speed : F) (keyLimit : Int) (wires : Wiring χ)
    (react : η → Nat → Reaction F M χ η Unit) (supply : Nat) (memory : M)
    (h : Host (House F M) χ NoticeKind Notice η) {cs : List (Cue F)}
    (hcs : ∀ c ∈ cs, c.KeepsOff) :
    let s := around (Player.start story conversation store speed) .blank keyLimit
    let night := performance wires react supply { h with world := ⟨s, [], memory⟩ }
      (.stage .start :: cs)
    (∀ r ∈ night, r.1 ≠ .exhausted) → ∀ r ∈ night,
      let v := r.2.stage.view
      let p := r.2.stage.player
      (v.phase = p.phase ∧ v.conversation = some p.conversation ∧ v.choices = p.choices) ∧
        (∃ d, p.display = some d ∧ v.text = d.text ∧
          ((∃ t, d = .line v.speaker t) ∨
            ((∃ views, d = .choices views) ∨ ∃ id, d = .ended id) ∧ v.speaker = [])) ∧
        (v.shown = p.reveal.shown ∧ v.shown <+: v.text) ∧ v.InPlace := by
  intro s night hends r hr v p
  obtain ⟨hrunning, -⟩ : Presented story r.2 :=
    presented_performance_start hread hfits rfl
      (Player.coherent_start story conversation store speed) hcs hends r hr
  obtain ⟨⟨-, -, d, hd⟩, hview⟩ := hrunning
  have hspeaker : v.speaker = d.speaker := by
    rw [hview.speaker, hd.display]
    rfl
  refine ⟨⟨hview.phase, hview.conversation, hview.choices⟩,
    ⟨d, hd.display, hview.text.trans hd.text, ?_⟩, ⟨hview.shown, ?_⟩, hview.highlight⟩
  · rw [hspeaker]
    exact d.speaker_cases
  · rw [hview.shown, hview.text]
    exact Reveal.shown_prefix _

/-- Somebody who slips a coin to the player at every event, and loses count now and then. -/
def patron (_ _ : Nat) : Reaction Rat Nat Unit Nat Unit := do
  let calls ← Turn.get
  Turn.modify (· + 1)
  Turn.say (Request.write fun s => s.setNumber "coins".toList (calls + 1))
  if calls % 3 = 2 then Turn.fail .tooLarge else pure ()

/-- The gate, with a patron at the lines, the choices and the progress of the texts. -/
def gateHost (s : Stage Rat) : Host (House Rat Nat) Unit NoticeKind Notice Nat :=
  (Host.quiet ⟨s, [], 0⟩).changeRegistry () fun r =>
    r.subscribeAll [.conversationEntered, .lineShown, .choicesShown, .textAdvanced] ⟨0, 0⟩

/-- Keys, frames and writes at the gate. -/
def gateCues : List (Cue Rat) :=
  [.stage (.press (some .confirm)), .player (.setFlag "armed".toList true),
    .stage (.press (some .confirm)), .stage (.update (1 / 2)), .stage (.press (some .menuDown)),
    .stage .skip, .stage (.enable false), .stage (.update 3), .stage (.press (some .menuUp)),
    .stage (.select 7), .stage (.press (some (.choice 0)))]

/-- The guard speaks at the first three cues, nobody at the choices and when all is over. -/
theorem mirrors_performance_start_gate :
    let s := around (Player.start Player.gate "gate".toList .empty (20 : Rat)) .blank 9
    let night := performance ⟨some (), some ()⟩ patron 8 (gateHost s) (.stage .start :: gateCues)
    Player.gate.Readable ∧ Player.gate.FitsIn 32 ∧ (∀ c ∈ gateCues, c.KeepsOff) ∧
      (∀ r ∈ night, r.1 ≠ .exhausted) ∧
      (∀ r ∈ night,
        let v := r.2.stage.view
        let p := r.2.stage.player
        (v.phase = p.phase ∧ v.conversation = some p.conversation ∧ v.choices = p.choices) ∧
          (∃ d, p.display = some d ∧ v.text = d.text ∧
            ((∃ t, d = .line v.speaker t) ∨
              ((∃ views, d = .choices views) ∨ ∃ id, d = .ended id) ∧ v.speaker = [])) ∧
          (v.shown = p.reveal.shown ∧ v.shown <+: v.text) ∧ v.InPlace) ∧
      (night.map fun r => (r.2.stage.view.speaker, r.2.stage.view.text)) =
        List.replicate 3 ("Guard".toList, "Halt.".toList) ++
          List.replicate 8 ([], "1. Pay\n2. Wait".toList) ++ [([], [])] := by
  intro s night
  have hread : Player.gate.Readable := by decide
  have hfits : Player.gate.FitsIn 32 := by decide
  have hcues : ∀ c ∈ gateCues, c.KeepsOff := by
    simp [gateCues, Cue.KeepsOff, Player.Move.deed?]
  have hends : ∀ r ∈ night, r.1 ≠ .exhausted := by decide +kernel
  exact ⟨hread, hfits, hcues, hends, mirrors_performance_start hread hfits _ _ _ _ _ _ _ _
    (gateHost s) hcues hends, by decide +kernel⟩

/-- At the third cue the patron has paid, so both choices can be taken. -/
example :
    let s := around (Player.start Player.gate "gate".toList .empty (20 : Rat)) .blank 9
    let night := performance ⟨some (), some ()⟩ patron 8 (gateHost s) (.stage .start :: gateCues)
    (night.map fun r => r.2.stage.view.choices.map ChoiceView.unlocked)[3]? =
      some [true, true] := by decide +kernel

end Stage

end Parley
