import Parley.Proofs.Stage.Keys

/-!
# Ways of choosing

A choice on screen can be taken in four ways: by moving the highlight down to it and confirming, by
moving it up, by selecting it directly, and by its own key if it has one. They all come to the same.
The highlight wraps around, so going down and going up get anywhere, and on the way nothing is said
and nothing but the highlight changes; a confirmation and the key of a choice are then selections of
it, by another name; and a selection does not look at the highlight.

The list of choices in the view, which the highlight wraps around, must be that of the player, in
which the choice is looked up. That is an invariant from the first start on.

## Main definitions

* `Stage.Way` — the ways of choosing
* `Stage.Offering` — the invariant
* `Stage.ComesTo` — cues that come down to a single one

## Main results

* `Stage.Offering.step`
* `Stage.comesTo_wrapping` — moving the highlight and confirming
* `Stage.Way.comesTo` — every way is a selection
* `Stage.ways_agree`
-/

namespace Parley

theorem View.moveHighlight_of_ne_nil {v : View} (h : v.choices ≠ []) (places : Int) :
    v.moveHighlight places =
      { v with highlight := (v.highlight + places) % (v.choices.length : Int) } := by
  rw [moveHighlight, if_neg (by simpa using h)]
  rfl

theorem View.choices_moveHighlight (v : View) (places : Int) :
    (v.moveHighlight places).choices = v.choices := by
  rw [moveHighlight]
  split <;> rfl

namespace Stage

variable {F : Type} {s t : Stage F} {i : Nat} {v : ChoiceView}

/-- The cue of a key. -/
def Cue.key (a : Action) : Cue F := .stage (.press (some a))

/-- The ways of choosing the choice in place `i` of a stage. -/
inductive Way (s : Stage F) (i : Nat) : List (Cue F) → Prop where
  | down :
      Way s i (List.replicate ((i - s.view.highlight) % s.player.choices.length).toNat
        (.key .menuDown) ++ [.key .confirm])
  | up :
      Way s i (List.replicate ((s.view.highlight - i) % s.player.choices.length).toNat
        (.key .menuUp) ++ [.key .confirm])
  | direct : Way s i [.stage (.select i)]
  | byKey (j : Fin 9) (hplace : j.val = i) (hkey : (i : Int) < s.keyLimit) :
      Way s i [.key (.choice j)]

/-- The stage with the highlight in some place. -/
def highlighting (s : Stage F) (place : Int) : Stage F :=
  { s with view := { s.view with highlight := place } }

variable [Tempo F] {story : Story} {k : Task F} {os : List StageSignal} {ds : List (Cue F)}
  {c : Cue F}

/-! ### The choices of the view -/

/-- From its first start on, a stage has the choices of its player in the view, and the highlight
among them. -/
structure Offering (story : Story) (s : Stage F) : Prop where
  story_eq : s.player.story = story
  coherent : s.player.Coherent
  choices : s.view.choices = s.player.choices
  highlight : s.view.InPlace

theorem offering_arrived {q : Player F} (hstory : q.story = story) (hq : q.Coherent) :
    (s.arrived q).Offering story :=
  ⟨hstory, hq, rfl, View.inPlace_of_highlight_eq_zero rfl⟩

theorem Offering.step (hs : s.Offering story) (h : Step s k os t) (hk : s.Gentle k) :
    t.Offering story := by
  have hstory := h.story.trans hs.story_eq
  have hcoherent := h.coherent hs.coherent
  cases h with
  | rest | rejected | overrun => exact hs
  | played hmove =>
    obtain ⟨store, rfl⟩ := rewritten_of_deed? hmove hk
    exact ⟨hstory, hcoherent, hs.choices, hs.highlight⟩
  | advanced | taken => exact offering_arrived hstory hcoherent
  | completed | ticked | enabled => exact ⟨hstory, hcoherent, hs.choices, hs.highlight⟩
  | highlighted =>
    exact ⟨hstory, hcoherent, (View.choices_moveHighlight ..).trans hs.choices,
      hs.highlight.moveHighlight _⟩

/-- The first start brings the view up to date, whatever it was. -/
theorem offering_start (hread : story.Readable) (hstory : s.player.story = story)
    (hs : s.player.Coherent) : (s.after (.stage .start)).Offering story := by
  have hstep := step_after (hstory ▸ hread) hs (.stage .start)
  have hstory' := hstep.story.trans hstory
  have hcoherent' := hstep.coherent hs
  obtain ⟨os, q, r, -, -, hafter⟩ := hstep.advances
  rw [hafter] at hstory' hcoherent' ⊢
  exact offering_arrived hstory' hcoherent'

/-! ### Cues that come down to one -/

/-- Cues that come down to the cue `c` on the stage `t`: the last of them comes out like it, what is
said is what it says, and the stage is left as it leaves it. -/
structure ComesTo (s : Stage F) (ds : List (Cue F)) (t : Stage F) (c : Cue F) : Prop where
  outcome : (s.unattended ds).getLast?.map Prod.fst = some (.ofExcept (c.turn.alone t).2.2)
  said : (s.unattended ds).flatMap (fun r => r.2.2.map Prod.snd) = t.said c
  after : s.afterAll ds = t.after c

theorem comesTo_of_alone_eq {c' : Cue F} (h : c'.turn.alone s = c.turn.alone s) :
    s.ComesTo [c'] s c where
  outcome := by
    rw [← h]
    rfl
  said := by
    rw [unattended, unattended, List.flatMap_singleton, Turn.map_snd_told]
    exact congrArg Prod.fst h
  after := congrArg (fun r => r.2.1) h

/-- A cue in front that says nothing. -/
theorem ComesTo.cons {c' : Cue F} (hsilent : s.said c' = [])
    (h : (s.after c').ComesTo ds t c) : s.ComesTo (c' :: ds) t c where
  outcome := by
    obtain ⟨r, hlast, hr⟩ := Option.map_eq_some_iff.mp h.outcome
    rw [unattended, List.getLast?_cons, hlast]
    exact congrArg some hr
  said := by
    have hnothing : (c'.turn.told s).map Prod.snd = [] := (Turn.map_snd_told _ s).trans hsilent
    rw [unattended, List.flatMap_cons, hnothing, List.nil_append]
    exact h.said
  after := h.after

/-! ### Keys at choices -/

/-- A key that does what a selection does is the selection. -/
theorem alone_key_of_select {a : Action} {index : Int}
    (h : (handle a).alone s = (select index).alone s) :
    (Cue.key a).turn.alone s = (Cue.stage (.select index)).turn.alone s := by
  rw [Cue.key, Cue.turn, Cue.turn, Move.turn, Move.turn, Turn.alone_map, Turn.alone_map, h]

/-- The key `a` moves the highlight by some places when choices are open. -/
def IsMenuKey (F : Type) [Tempo F] (a : Action) (places : Int) : Prop :=
  ∀ s : Stage F, s.player.phase = .atChoice → (Cue.key a).turn.alone s =
    ([], { s with view := s.view.moveHighlight places }, .ok (.flag true))

section AtChoice

variable (hphase : s.player.phase = .atChoice)

include hphase

omit [Tempo F] in
theorem isEnded_of_atChoice : s.player.isEnded = false := by
  rw [Player.isEnded, hphase]
  rfl

/-- Confirming selects the highlighted choice. -/
theorem alone_confirm (hcomplete : s.player.reveal.isComplete = true) :
    (Cue.key .confirm).turn.alone s = (Cue.stage (.select s.view.highlight)).turn.alone s := by
  refine alone_key_of_select ?_
  rw [handle, Turn.alone_get_bind, isEnded_of_atChoice hphase, if_neg Bool.false_ne_true]
  show (orElseReveal goOn).alone s = _
  rw [orElseReveal, Turn.alone_get_bind, hcomplete, if_pos rfl, goOn, Turn.alone_get_bind,
    if_pos hphase]

/-- The key of a choice selects it. -/
theorem alone_choice {j : Fin 9} (hkey : (j.val : Int) < s.keyLimit) :
    (Cue.key (.choice j)).turn.alone s = (Cue.stage (.select j.val)).turn.alone s := by
  refine alone_key_of_select ?_
  rw [handle, Turn.alone_get_bind, isEnded_of_atChoice hphase, if_neg Bool.false_ne_true]
  show (if (j.val : Int) < s.keyLimit then select j.val else return false).alone s = _
  rw [if_pos hkey]

end AtChoice

/-- A key that moves the highlight, if it does so while the conversation is running. -/
theorem isMenuKey_of_handle {a : Action} {places : Int}
    (h : ∀ s : Stage F, s.player.isEnded = false →
      (handle a).alone s = (highlight fun v => v.moveHighlight places).alone s) :
    IsMenuKey F a places := by
  intro s hphase
  rw [Cue.key, Cue.turn, Move.turn, Turn.alone_map, h s (isEnded_of_atChoice hphase), highlight,
    Turn.alone_get_bind, if_pos hphase]
  rfl

theorem isMenuKey_menuDown : IsMenuKey F .menuDown 1 := by
  refine isMenuKey_of_handle fun s hended => ?_
  rw [handle, Turn.alone_get_bind, hended, if_neg Bool.false_ne_true]
  rfl

theorem isMenuKey_menuUp : IsMenuKey F .menuUp (-1) := by
  refine isMenuKey_of_handle fun s hended => ?_
  rw [handle, Turn.alone_get_bind, hended, if_neg Bool.false_ne_true]
  rfl

/-- **Moving the highlight and confirming** is selecting the choice that the highlight comes to,
around the list of choices as often as it takes. -/
theorem comesTo_wrapping {a : Action} {places : Int} (ha : IsMenuKey F a places)
    (hphase : s.player.phase = .atChoice) (hcomplete : s.player.reveal.isComplete = true)
    (hne : s.view.choices ≠ []) (hplace : s.view.InPlace) (times : Nat) {place : Int}
    (hgoal : (s.view.highlight + times * places) % s.view.choices.length = place) :
    s.ComesTo (List.replicate times (.key a) ++ [.key .confirm]) (s.highlighting place)
      (.stage (.select place)) := by
  induction times generalizing s with
  | zero =>
    obtain ⟨h0, h1⟩ := hplace.resolve_left fun h => hne h.1
    rw [Nat.cast_zero, zero_mul, add_zero, Int.emod_eq_of_lt h0 h1] at hgoal
    obtain rfl := hgoal
    exact comesTo_of_alone_eq (alone_confirm hphase hcomplete)
  | succ times ih =>
    have hmoved := ha s hphase
    have hafter : s.after (.key a) =
        s.highlighting ((s.view.highlight + places) % s.view.choices.length) := by
      rw [after, hmoved, View.moveHighlight_of_ne_nil hne]
      rfl
    refine ComesTo.cons (congrArg Prod.fst hmoved) ?_
    rw [hafter]
    have hinPlace := hplace.moveHighlight places
    rw [View.moveHighlight_of_ne_nil hne] at hinPlace
    refine ih (s := s.highlighting _) hphase hcomplete hne hinPlace ?_
    rw [← hgoal, highlighting, Int.emod_add_emod]
    push_cast
    ring_nf

/-- **Every way of choosing comes down to selecting the choice**, with the highlight somewhere. -/
theorem Way.comesTo (hway : s.Way i ds) (hs : s.Offering story)
    (hphase : s.player.phase = .atChoice) (hcomplete : s.player.reveal.isComplete = true)
    (hi : i < s.player.choices.length) :
    ∃ place, s.ComesTo ds (s.highlighting place) (.stage (.select i)) := by
  have hne : s.view.choices ≠ [] := by
    rw [hs.choices]
    exact List.ne_nil_of_length_pos (Nat.zero_lt_of_lt hi)
  have hlength : s.view.choices.length = s.player.choices.length := congrArg List.length hs.choices
  have hplace : (i : Int) % s.player.choices.length = i :=
    Int.emod_eq_of_lt (Int.natCast_nonneg i) (Int.ofNat_lt.mpr hi)
  have htimes (distance : Int) : ((distance % s.player.choices.length).toNat : Int) =
      distance % s.player.choices.length := Int.toNat_of_nonneg (Int.emod_nonneg _ (by omega))
  cases hway with
  | down =>
    refine ⟨i, comesTo_wrapping isMenuKey_menuDown hphase hcomplete hne hs.highlight _ ?_⟩
    rw [htimes, hlength, mul_one, Int.add_emod_emod, add_sub_cancel, hplace]
  | up =>
    refine ⟨i, comesTo_wrapping isMenuKey_menuUp hphase hcomplete hne hs.highlight _ ?_⟩
    rw [htimes, hlength, mul_neg_one, ← sub_eq_add_neg, Int.sub_emod, Int.emod_emod,
      ← Int.sub_emod, sub_sub_cancel, hplace]
  | direct => exact ⟨s.view.highlight, comesTo_of_alone_eq rfl⟩
  | byKey j hj hkey =>
    subst hj
    exact ⟨s.view.highlight, comesTo_of_alone_eq (alone_choice hphase hkey)⟩

/-! ### Selections do not look at the highlight -/

/-- What a selection of a choice on screen is, with the highlight anywhere: it is answered with
whether the choice is unlocked; if it is, the highlight makes no difference, and if not, the stage
stays as it is. -/
structure Selects (s : Stage F) (i : Nat) (unlocked : Bool) (place : Int) : Prop where
  outcome : ((Cue.stage (.select i)).turn.alone (s.highlighting place)).2.2 = .ok (.flag unlocked)
  said : (s.highlighting place).said (.stage (.select i)) = s.said (.stage (.select i))
  after : (s.highlighting place).after (.stage (.select i)) =
    if unlocked then s.after (.stage (.select i)) else s.highlighting place

theorem selects_of_locked (hphase : s.player.phase = .atChoice)
    (hview : s.player.choices[i]? = some v) (hlocked : v.unlocked = false) (place : Int) :
    s.Selects i false place := by
  have hrefusal : s.player.refusal? i = some .locked := by
    rw [Player.refusal?, if_neg (not_not_intro hphase), if_neg (by omega), Int.toNat_natCast, hview]
    simp [hlocked]
  have hrefused (t : Stage F) (ht : t.player = s.player) :
      (Cue.stage (.select i)).turn.alone t =
        ([.player (.remark (.ignoredChoice i .locked)),
          .player (.notice (.choiceRejected i .locked))], t, .ok (.flag false)) := by
    have halone := alone_select_of_none (s := t) (ht ▸ Player.alone_select_of_refusal hrefusal)
    rw [Cue.turn, Move.turn, Turn.alone_map, halone]
    rfl
  have hhere := hrefused s rfl
  have hthere := hrefused (s.highlighting place) rfl
  refine ⟨congrArg (fun r => r.2.2) hthere, ?_, congrArg (fun r => r.2.1) hthere⟩
  rw [said, said, hhere, hthere]

theorem selects_of_unlocked (hread : story.Readable) (hs : s.Offering story)
    (hphase : s.player.phase = .atChoice) (hview : s.player.choices[i]? = some v)
    (hunlocked : v.unlocked = true) (place : Int) : s.Selects i true place := by
  have hrefusal : s.player.refusal? i = none :=
    Player.refusal?_eq_none_iff.mpr ⟨hphase, Int.natCast_nonneg i, v, hview, hunlocked⟩
  obtain ⟨os, q, d, htaken⟩ :
      ∃ os q d, (Player.select i).alone s.player = (os, q, .ok (some d)) := by
    obtain ⟨os, q, r, halone, hstep⟩ :=
      Player.exists_step (hs.story_eq ▸ hread) hs.coherent (.select i)
    rw [Player.Move.turn, Turn.alone_map] at halone
    rcases hselect : (Player.select i).alone s.player with ⟨os', q', e | _ | d⟩
    · rw [hselect] at halone
      cases halone
      cases hstep
    · rw [hselect] at halone
      cases halone
      cases hstep with
      | rejected hrefusal' => cases hrefusal.symm.trans hrefusal'
    · exact ⟨os', q', d, rfl⟩
  have htakes (t : Stage F) (ht : t.player = s.player) :
      (Cue.stage (.select i)).turn.alone t =
        (os.map .player ++ arrivals q, t.arrived q, .ok (.flag true)) := by
    rw [Cue.turn, Move.turn, Turn.alone_map, alone_select_of_some (s := t) (ht ▸ htaken)]
    rfl
  have hhere := htakes s rfl
  have hthere := htakes (s.highlighting place) rfl
  refine ⟨congrArg (fun r => r.2.2) hthere, ?_, ?_⟩
  · rw [said, said, hhere, hthere]
  · rw [after, after, hhere, hthere]
    rfl

theorem selects (hread : story.Readable) (hs : s.Offering story)
    (hphase : s.player.phase = .atChoice) (hview : s.player.choices[i]? = some v) (place : Int) :
    s.Selects i v.unlocked place := by
  cases hunlocked : v.unlocked
  · exact selects_of_locked hphase hview hunlocked place
  · exact selects_of_unlocked hread hs hphase hview hunlocked place

/-! ### All ways -/

/-- How the last of some cues came out, in a performance. -/
def lastOutcome? {M : Type} (night : List (Outcome PlayFault Answer × House F M)) :
    Option (Outcome PlayFault Answer) := night.getLast?.map Prod.fst

/-- What was said in a performance. -/
def allSaid {M : Type} (night : List (Outcome PlayFault Answer × House F M)) : List StageSignal :=
  night.flatMap fun r => r.2.said.map Prod.snd

/-- **All ways of choosing agree.** A stage is set up around a player at the start of a readable
story, before any passive audience, on a host in whatever state. It is started, and keys are
pressed, choices selected, texts skipped and frames passed, and variables written in between, until
choices are on screen and their text is complete. Then whichever way a choice is chosen: in the end
the answer is whether it is unlocked, the same is said meanwhile, and the stage is left in the same
state, but for the highlight if the choice is locked. -/
theorem ways_agree {M χ η : Type} [DecidableEq χ] [DecidableEq η] (hread : story.Readable)
    {conversation : Text} {store : Store} {speed : F} {view : View} {keyLimit : Int}
    {h : Host (House F M) χ NoticeKind Notice η}
    (hstage : h.world.stage = around (Player.start story conversation store speed) view keyLimit)
    (wires : Wiring χ) {react : η → Nat → Reaction F M χ η Unit} (hpassive : IsPassive react)
    (supply : Nat) {cs : List (Cue F)} (hcs : ∀ c ∈ cs, c.KeepsOff) :
    let house := hostAfter wires react supply h (.stage .start :: cs)
    let s := house.world.stage
    s.player.phase = .atChoice → s.player.reveal.isComplete = true →
      ∀ (i : Nat) (v : ChoiceView), s.player.choices[i]? = some v →
        ∀ ds ds', s.Way i ds → s.Way i ds' →
          (∀ r ∈ performance wires react supply h (.stage .start :: cs ++ ds), r.1 ≠ .exhausted) →
          (∀ r ∈ performance wires react supply h (.stage .start :: cs ++ ds'), r.1 ≠ .exhausted) →
          let night := performance wires react supply house ds
          let night' := performance wires react supply house ds'
          let t := (hostAfter wires react supply house ds).world.stage
          let t' := (hostAfter wires react supply house ds').world.stage
          lastOutcome? night = some (.returned (.flag v.unlocked)) ∧
            lastOutcome? night' = some (.returned (.flag v.unlocked)) ∧
            allSaid night = allSaid night' ∧
            (v.unlocked = true → t = t') ∧
            ∃ place, t' = { t with view := { t.view with highlight := place } } := by
  intro house s hphase hcomplete i v hview ds ds' hway hway' hends hends' night night' t t'
  rw [performance_append, List.forall_mem_append] at hends hends'
  have hs : s.Offering story := by
    rw [show s = h.world.stage.afterAll (.stage .start :: cs) from
      stage_hostAfter wires hpassive supply h _ hends.1]
    have hstarted : (h.world.stage.after (.stage .start)).Offering story := by
      rw [hstage]
      exact offering_start hread rfl (Player.coherent_start story conversation store speed)
    exact afterAll_gentle_induction hread (fun _ hs => ⟨hs.story_eq, hs.coherent⟩)
      (fun _ _ _ _ hs => hs.step) hstarted hcs
  obtain ⟨hi, -⟩ := List.getElem?_eq_some_iff.mp hview
  -- each way is a selection before nobody, with the highlight somewhere
  have hcomes (ds : List (Cue F)) (hway : s.Way i ds)
      (hends : ∀ r ∈ performance wires react supply house ds, r.1 ≠ .exhausted) :
      lastOutcome? (performance wires react supply house ds) =
          some (.returned (.flag v.unlocked)) ∧
        allSaid (performance wires react supply house ds) = s.said (.stage (.select i)) ∧
        ∃ place, (hostAfter wires react supply house ds).world.stage =
          if v.unlocked then s.after (.stage (.select i)) else s.highlighting place := by
    obtain ⟨place, hcomes⟩ := hway.comesTo hs hphase hcomplete hi
    have hselects := selects hread hs hphase hview place
    have hsame := performance_eq_unattended wires hpassive supply house ds hends
    refine ⟨?_, ?_, place, ?_⟩
    · have houtcome := hcomes.outcome
      rw [hselects.outcome, ← hsame, List.getLast?_map, Option.map_map] at houtcome
      exact houtcome
    · have hsaid := hcomes.said
      rw [hselects.said, ← hsame, List.flatMap_map] at hsaid
      exact hsaid
    · rw [stage_hostAfter wires hpassive supply house ds hends, ← hselects.after]
      exact hcomes.after
  obtain ⟨houtcome, hsaid, place, hleft⟩ := hcomes ds hway hends.2
  obtain ⟨houtcome', hsaid', place', hleft'⟩ := hcomes ds' hway' hends'.2
  refine ⟨houtcome, houtcome', hsaid.trans hsaid'.symm, fun hunlocked => ?_, ?_⟩
  · rw [hunlocked] at hleft hleft'
    exact hleft.trans hleft'.symm
  · cases hunlocked : v.unlocked
    · rw [hunlocked] at hleft hleft'
      exact ⟨place', hleft'.trans (congrArg (highlighting · place') hleft).symm⟩
    · rw [hunlocked] at hleft hleft'
      exact ⟨t.view.highlight, hleft'.trans hleft.symm⟩

/-- The choices of the gate on screen, before the critic. -/
def choicesAtGate : Host (House Rat Nat) Unit NoticeKind Notice Nat :=
  hostAfter ⟨some (), some ()⟩ critic 8 reviewedGate
    [.stage .start, .key .confirm, .key .confirm, .stage .skip]

/-- Waiting at the gate, by going up around the list or by the key of the second choice. -/
theorem ways_agree_gate :
    let cs : List (Cue Rat) := [.key .confirm, .key .confirm, .stage .skip]
    let s := choicesAtGate.world.stage
    let up : List (Cue Rat) := List.replicate 1 (.key .menuUp) ++ [.key .confirm]
    let byKey : List (Cue Rat) := [.key (.choice 1)]
    let t := (hostAfter ⟨some (), some ()⟩ critic 8 choicesAtGate up).world.stage
    let t' := (hostAfter ⟨some (), some ()⟩ critic 8 choicesAtGate byKey).world.stage
    Player.gate.Readable ∧ IsPassive critic ∧ (∀ c ∈ cs, c.KeepsOff) ∧
      s.player.phase = .atChoice ∧ s.player.reveal.isComplete = true ∧
      s.player.choices[1]? = some ⟨"Wait".toList, true⟩ ∧ s.Way 1 up ∧ s.Way 1 byKey ∧
      (∀ r ∈ performance ⟨some (), some ()⟩ critic 8 reviewedGate (.stage .start :: cs ++ up),
        r.1 ≠ .exhausted) ∧
      (∀ r ∈ performance ⟨some (), some ()⟩ critic 8 reviewedGate (.stage .start :: cs ++ byKey),
        r.1 ≠ .exhausted) ∧
      t = t' := by
  intro cs s up byKey t t'
  have hread : Player.gate.Readable := by decide
  have hstage : reviewedGate.world.stage =
      around (Player.start Player.gate "gate".toList .empty (20 : Rat)) .blank 9 := rfl
  have hcs : ∀ c ∈ cs, c.KeepsOff := by simp [cs, Cue.key, Cue.KeepsOff]
  have hphase : s.player.phase = .atChoice := by decide +kernel
  have hcomplete : s.player.reveal.isComplete = true := by decide +kernel
  have hview : s.player.choices[1]? = some ⟨"Wait".toList, true⟩ := by decide +kernel
  have hhighlight : s.view.highlight = 0 := by decide +kernel
  have hlength : s.player.choices.length = 2 := by decide +kernel
  have hlimit : ((1 : Nat) : Int) < s.keyLimit := by decide +kernel
  have hup : s.Way 1 up := by
    have hway := Way.up (s := s) (i := 1)
    rw [hhighlight, hlength] at hway
    exact hway
  have hkey : s.Way 1 byKey := .byKey 1 rfl hlimit
  have hends : ∀ r ∈ performance ⟨some (), some ()⟩ critic 8 reviewedGate
      (.stage .start :: cs ++ up), r.1 ≠ .exhausted := by decide +kernel
  have hends' : ∀ r ∈ performance ⟨some (), some ()⟩ critic 8 reviewedGate
      (.stage .start :: cs ++ byKey), r.1 ≠ .exhausted := by decide +kernel
  have hhouse : hostAfter ⟨some (), some ()⟩ critic 8 reviewedGate (.stage .start :: cs) =
      choicesAtGate := rfl
  have hagree := ways_agree hread hstage ⟨some (), some ()⟩ isPassive_critic 8 hcs
  rw [hhouse] at hagree
  obtain ⟨-, -, -, hsame, -⟩ := hagree hphase hcomplete 1 _ hview up byKey hup hkey hends hends'
  exact ⟨hread, isPassive_critic, hcs, hphase, hcomplete, hview, hup, hkey, hends, hends',
    hsame rfl⟩

end Stage

end Parley
