import Parley.Proofs.Playback.Closing
import Parley.Proofs.Stage.Sights
import Parley.Reveal.Amount

/-!
# After the end

When the conversation is over, nothing changes any more, whatever is called on the stage or on its
player. Each call looks after that in its own way. Keys and frames ask whether the conversation is
over; advancing and selecting leave it to the player, which answers with the end and refuses; being
brought up to date once more gives the same view.

One call does not look. Skipping on the stage announces the completion of the text on screen, unless
it was announced before, and the flag that says so is reset when the end comes on screen. So after
the end a completion of the empty text is announced, which `sync` takes care not to do.

## Main definitions

* `Stage.Cue.IsCall` — calls that do not write variables or drive the reveal
* `Stage.Over` — a stage at the end of a story

## Main results

* `Stage.Over.after` — a call leaves everything as it is
* `Stage.over_afterAll_start`
* `Stage.skip_after_end` — the exception
-/

namespace Parley.Stage

variable {F : Type}

/-- A call of the stage, or one of its player that goes on, selects or skips. -/
def Cue.IsCall : Cue F → Prop
  | stage _ => True
  | player .advance | player (.select _) | player .skip => True
  | player _ => False

variable [Tempo F] {s t : Stage F} {p : Player F}

/-- The stage is at the end, with the player as it was then. How far the empty text was revealed is
of no account. -/
structure Over (p : Player F) (s : Stage F) : Prop where
  player : ∃ reveal, reveal.text = [] ∧ s.player = { p with reveal }
  view : s.view = viewOf p

/-- Nothing is shown of an empty text. -/
theorem shown_of_text_eq_nil {r : Reveal F} (h : r.text = []) : r.shown = [] := by
  have hprefix := r.shown_prefix
  rw [h] at hprefix
  exact List.prefix_nil.mp hprefix

/-- The view of an empty text is the same however far it was revealed. -/
theorem viewOf_reveal {reveal : Reveal F} (hp : p.reveal.text = []) (h : reveal.text = []) :
    viewOf { p with reveal } = viewOf p := by
  rw [viewOf, viewOf, shown_of_text_eq_nil hp, shown_of_text_eq_nil h, hp, h]

/-- What a player answers once the conversation is over. -/
theorem Over.alone_advance (hs : s.Over p) (hended : p.phase = .ended) :
    Player.advance.alone s.player = ([], s.player, .ok p.display) := by
  obtain ⟨reveal, -, hplayer⟩ := hs.player
  have hphase : s.player.phase ≠ .atLine := by
    rw [hplayer]
    simp [hended]
  rw [Player.alone_advance_of_ne hphase, hplayer]

theorem Over.alone_select (hs : s.Over p) (hended : p.phase = .ended) (index : Int) :
    (Player.select index).alone s.player =
      ([.remark (.ignoredChoice index .noChoices), .notice (.choiceRejected index .noChoices)],
        s.player, .ok none) := by
  obtain ⟨reveal, -, hplayer⟩ := hs.player
  have hrefusal : s.player.refusal? index = some .noChoices := by
    rw [Player.refusal?, if_pos]
    rw [hplayer]
    simp [hended]
  exact Player.alone_select_of_refusal hrefusal

theorem Over.isEnded (hs : s.Over p) (hended : p.phase = .ended) : s.player.isEnded = true := by
  obtain ⟨reveal, -, hplayer⟩ := hs.player
  rw [Player.isEnded, hplayer, hended]
  rfl

/-- Being brought up to date once more changes nothing. -/
theorem Over.arrived (hs : s.Over p) (hp : p.reveal.text = []) : (s.arrived s.player).Over p := by
  obtain ⟨reveal, htext, hplayer⟩ := hs.player
  refine ⟨hs.player, ?_⟩
  show viewOf s.player = viewOf p
  rw [hplayer]
  exact viewOf_reveal hp htext

theorem Over.skipped (hs : s.Over p) (hp : p.reveal.text = []) : s.skipped.Over p := by
  obtain ⟨reveal, htext, hplayer⟩ := hs.player
  refine ⟨⟨reveal.skip, htext, ?_⟩, ?_⟩
  · show s.player.skipReveal = _
    rw [hplayer]
    rfl
  · show { s.view with shown := s.player.reveal.text } = viewOf p
    have hshown : s.player.reveal.text = (viewOf p).shown := by
      rw [hplayer]
      exact htext.trans (shown_of_text_eq_nil hp).symm
    rw [hs.view, hshown]

/-! ### One call -/

/-- What may be announced after the end: that a selection is ignored, and when the stage is skipped
that the empty text is complete. -/
def Late (c : Cue F) (n : Notice) : Prop :=
  (∃ index, n = .choiceRejected index .noChoices) ∨ c = .stage .skip ∧ n = .textCompleted []

/-- What holds of a task after the end: the stage stays there, and what is announced is late. -/
def StaysOver (p : Player F) (s : Stage F) (c : Cue F) (k : Task F) : Prop :=
  (s.perform k).2.Over p ∧ ∀ n ∈ heardIn (s.perform k).1, Late c n

omit [Tempo F] in
theorem late_of_refusal (c : Cue F) (index : Int) : ∀ n ∈ heardIn
    ([Signal.remark (.ignoredChoice index .noChoices),
      .notice (.choiceRejected index .noChoices)].map .player), Late c n := by
  intro n hn
  rw [heardIn_map_player, noticesIn_cons_remark, noticesIn_cons_notice, noticesIn_nil,
    List.mem_singleton] at hn
  exact .inl ⟨index, hn⟩

section Tasks

variable (hs : s.Over p) (hended : p.phase = .ended) (hp : p.reveal.text = []) (c : Cue F)

include hs

theorem Over.rest : StaysOver p s c .rest := ⟨hs, List.forall_mem_nil _⟩

include hended

theorem Over.framed (dt : F) : StaysOver p s c (s.framed dt) := by
  rw [Stage.framed, isRevealing, hs.isEnded hended, if_neg (by simp)]
  exact hs.rest c

theorem Over.select (index : Int) : StaysOver p s c (.select index) := by
  rw [StaysOver, perform, hs.alone_select hended index]
  exact ⟨hs, late_of_refusal c index⟩

/-- The moves of the player do not announce anything either. -/
theorem Over.play {m : Player.Move F} (hm : (Cue.player m).IsCall) :
    StaysOver p s c (.play m) := by
  cases m with
  | advance =>
    have hmove : (Player.Move.advance : Player.Move F).turn.alone s.player =
        ([], s.player, .ok (.display p.display)) := by
      rw [Player.Move.turn, Turn.alone_map, hs.alone_advance hended]
      rfl
    rw [StaysOver, perform, Player.after, hmove]
    exact ⟨hs, List.forall_mem_nil _⟩
  | select index =>
    have hmove : (Player.Move.select index : Player.Move F).turn.alone s.player =
        ([.remark (.ignoredChoice index .noChoices), .notice (.choiceRejected index .noChoices)],
          s.player, .ok (.display none)) := by
      rw [Player.Move.turn, Turn.alone_map, hs.alone_select hended]
      rfl
    rw [StaysOver, perform, Player.after, hmove]
    exact ⟨hs, late_of_refusal c index⟩
  | skip =>
    obtain ⟨reveal, htext, hplayer⟩ := hs.player
    refine ⟨⟨⟨reveal.skip, htext, ?_⟩, hs.view⟩, List.forall_mem_nil _⟩
    show s.player.skipReveal = _
    rw [hplayer]
    rfl
  | tick | setNumber | setFlag | clearStore => exact hm.elim

include hp

theorem Over.advance : StaysOver p s c .advance := by
  have hnone : arrivals s.player = [] := by
    rw [arrivals, isComplete, hs.isEnded hended]
    rfl
  rw [StaysOver, perform, hs.alone_advance hended]
  dsimp only
  rw [hnone]
  exact ⟨hs.arrived hp, List.forall_mem_nil _⟩

omit hended

theorem Over.complete : StaysOver p s (.stage .skip) .complete := by
  obtain ⟨reveal, htext, hplayer⟩ := hs.player
  refine ⟨hs.skipped hp, fun n hn => .inr ⟨rfl, ?_⟩⟩
  have hsaid : s.player.reveal.text = [] := by rw [hplayer, htext]
  rw [perform, completions, hsaid] at hn
  split at hn
  · cases hn
  · exact List.mem_singleton.mp hn

end Tasks

/-- **A call after the end leaves everything as it is**, and announces nothing but what is late. -/
theorem Over.after (hs : s.Over p) (hended : p.phase = .ended) (hp : p.reveal.text = [])
    {c : Cue F} (hc : c.IsCall) :
    (s.after c).Over p ∧ ∀ n ∈ heardIn (s.said c), Late c n := by
  rw [after_eq, said_eq]
  cases c with
  | player m => exact hs.play hended _ hc
  | stage m =>
    cases m with
    | start => exact hs.advance hended hp _
    | press key =>
      rcases key with _ | a
      · exact hs.rest _
      · rw [task, hs.isEnded hended, if_pos rfl]
        exact hs.rest _
    | select index => exact hs.select hended _ index
    | skip => exact hs.complete hp
    | process dt => exact hs.framed hended _ dt
    | update dt =>
      rw [task]
      split
      · exact hs.framed hended _ dt
      · exact hs.rest _
    | enable enabled => exact ⟨⟨hs.player, hs.view⟩, List.forall_mem_nil _⟩

/-! ### All calls -/

/-- What is answered after the end: going on is answered with the end, and keys have no use. -/
structure Answers (d : Display) (s : Stage F) : Prop where
  advance : ((Cue.player .advance : Cue F).turn.alone s).2.2 = .ok (.display (some d))
  start : ((Cue.stage .start : Cue F).turn.alone s).2.2 = .ok (.display (some d))
  press (a : Action) : ((Cue.stage (.press (some a)) : Cue F).turn.alone s).2.2 = .ok (.flag false)

theorem Over.answers (hs : s.Over p) (hended : p.phase = .ended) {d : Display}
    (hdisplay : p.display = some d) : s.Answers d where
  advance := by
    rw [Cue.turn, alone_playing, Player.Move.turn, Turn.alone_map, hs.alone_advance hended,
      hdisplay]
    rfl
  start := by
    rw [Cue.turn, Move.turn, Turn.alone_map, alone_start_of_ok (hs.alone_advance hended), hdisplay]
    rfl
  press a := by
    have hhandle : (handle a).alone s = ([], s, .ok false) := by
      rw [handle, Turn.alone_get_bind, if_pos (hs.isEnded hended), Turn.alone_pure]
    rw [Cue.turn, Move.turn, Turn.alone_map, hhandle]
    rfl

theorem Over.afterAll (hs : s.Over p) (hended : p.phase = .ended) (hp : p.reveal.text = [])
    {cs : List (Cue F)} (hcs : ∀ c ∈ cs, c.IsCall) : (s.afterAll cs).Over p := by
  induction cs generalizing s with
  | nil => exact hs
  | cons c cs ih =>
    rw [List.forall_mem_cons] at hcs
    exact ih (hs.after hended hp hcs.1).1 hcs.2

/-- **After the end nothing changes, and next to nothing is announced.** A stage is set up around a
player at the start of any story, and anything at all is done to both, until the conversation is
over and the view shows that. After any further calls the player is as it was, but for how far the
empty text was revealed, and the view is as it was. Going on is answered with the end, and keys have
no use. A further call announces only that a selection is ignored; if it skips on the stage it may
also announce that the empty text is complete. -/
theorem over_afterAll_start (story : Story) (conversation : Text) (store : Store) (speed : F)
    (view : View) (keyLimit : Int) (before : List (Cue F)) :
    let s := (around (Player.start story conversation store speed) view keyLimit).afterAll before
    s.player.phase = .ended → s.view = viewOf s.player →
      ∀ later : List (Cue F), (∀ c ∈ later, c.IsCall) →
        let t := s.afterAll later
        (∃ reveal, t.player = { s.player with reveal }) ∧ t.view = s.view ∧
          t.Answers (.ended s.player.conversation) ∧
          ∀ c : Cue F, c.IsCall → ∀ n ∈ heardIn (t.said c), Late c n := by
  intro s hended hview later hlater t
  have hclosed : s.player.Closed :=
    afterAll_player_induction (P := fun p => p.phase = .ended → p.Closed)
      (fun _ m => Player.closed_after m)
      (Player.closed_start story conversation store speed) before hended
  have hp : s.player.reveal.text = [] := hclosed.shows.text
  have hs : s.Over s.player := ⟨⟨s.player.reveal, hp, rfl⟩, hview⟩
  have ht : t.Over s.player := hs.afterAll hended hp hlater
  obtain ⟨reveal, -, hplayer⟩ := ht.player
  exact ⟨⟨reveal, hplayer⟩, ht.view.trans hview.symm, ht.answers hended hclosed.shows.display,
    fun c hc => (ht.after hended hp hc).2⟩

/-- Through the gate to the end of the story, and then on. -/
theorem over_afterAll_start_gate :
    let s := (around (Player.start Player.gate "gate".toList .empty (Amount.whole 20)) .blank
      9).afterAll
        [.player .advance, .player (.setNumber "coins".toList 2), .player .advance,
          .stage (.select 0), .player .advance, .stage .start]
    let later : List (Cue Amount) :=
      [.stage .start, .stage (.select 1), .player .skip, .stage (.update (.real 0.5))]
    s.player.phase = .ended ∧ s.view = viewOf s.player ∧ (∀ c ∈ later, c.IsCall) ∧
      let t := s.afterAll later
      (∃ reveal, t.player = { s.player with reveal }) ∧ t.view = s.view ∧
        t.Answers (.ended s.player.conversation) ∧
        ∀ c : Cue Amount, c.IsCall → ∀ n ∈ heardIn (t.said c), Late c n := by
  intro s later
  have hended : s.player.phase = .ended := by decide +kernel
  have hview : s.view = viewOf s.player := rfl
  have hlater : ∀ c ∈ later, c.IsCall := by simp [later, Cue.IsCall]
  exact ⟨hended, hview, hlater,
    over_afterAll_start Player.gate _ _ _ _ _ _ hended hview later hlater⟩

/-- A story that is over at once. -/
def hush : Story := .ofList [("hush".toList, [])]

/-- **Skipping on the stage after the end announces a completion.** The first start ends the story,
and the view shows that; skipping then announces that the empty text is complete. -/
theorem skip_after_end :
    let s := (around (Player.start hush "hush".toList .empty (Amount.whole 20)) .blank 9).after
      (.stage .start)
    s.player.phase = .ended ∧ s.view = viewOf s.player ∧
      s.said (.stage .skip) = [.stage (.textCompleted [])] := by
  intro s
  have hended : s.player.phase = .ended := by decide +kernel
  have hsaid : s.said (.stage .skip) = [.stage (.textCompleted [])] := by decide +kernel
  exact ⟨hended, rfl, hsaid⟩

end Parley.Stage
