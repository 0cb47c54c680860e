import Parley.Proofs.Stage.Faithful
import Parley.Proofs.Stage.Sights

/-!
# Reveals in a performance

In a performance before a passive audience, what is heard of every text is as the grammar has it.
That is so by what each step is heard as. What the steps do not show is what happens inside of a
cue, where the completion of a text might be announced a little too early. That it is not is part of
the pact of performing: completion is announced in a state in which the text is complete.

## Main definitions

* `Stage.sights` — what is noticed of cues

## Main results

* `Stage.exists_heard_unattended` — what is noticed follows the grammar when nobody listens
* `Stage.heard_performance_start`
-/

namespace Parley.Stage

variable {F : Type} [Tempo F] {s : Stage F} {limit : Nat}

/-- What is noticed of cues: what was said, and the rest after each. -/
def sights {R : Type} (night : List (R × Stage F × List (Stage F × StageSignal))) : List Sight :=
  night.flatMap fun r => sightsOf (r.2.2.map Prod.snd) r.2.1

/-- What holds of a stage in a performance: its player is coherent, and its speed is not refused. -/
structure Telling (story : Story) (s : Stage F) : Prop where
  story_eq : s.player.story = story
  coherent : s.player.Coherent
  speed : Reveal.refuses s.player.reveal.speed = false

variable {story : Story}

theorem Telling.step (hs : s.Telling story) {k : Task F} {os : List StageSignal} {t : Stage F}
    (h : Step s k os t) : t.Telling story := by
  refine ⟨h.story.trans hs.story_eq, h.coherent hs.coherent, ?_⟩
  rcases h.player with hsame | ⟨m, os', r, hmove⟩
  · rw [hsame]
    exact hs.speed
  · rw [hmove.speed]
    exact hs.speed

/-- Cues after something was heard. -/
theorem exists_heard_unattended [Tempo.Lawful F limit] (hread : story.Readable)
    (hfits : story.FitsIn limit) (hs : s.Telling story) {xs : List Sight} (hxs : s.HeardOf xs)
    {ms : List (Move F)} (hms : ∀ m ∈ ms, m.IsInput) :
    ∃ screen, Heard screen (xs ++ sights (s.unattended (ms.map .stage))) := by
  induction ms generalizing s xs with
  | nil =>
    obtain ⟨screen, -, hheard⟩ := hxs
    rw [List.map_nil, unattended, sights, List.flatMap_nil, List.append_nil]
    exact ⟨screen, hheard⟩
  | cons m ms ih =>
    rw [List.forall_mem_cons] at hms
    obtain ⟨rfl, hcoherent, hspeed⟩ := hs
    have hstep := step_after hread hcoherent (.stage m)
    have hlength := hcoherent.length_text_le hfits
    have hheard := hstep.heard (sensible_task hms.1 s) hlength hspeed hxs
    rw [List.map_cons, unattended, sights, List.flatMap_cons, Turn.map_snd_told,
      ← List.append_assoc]
    exact ih (Telling.step ⟨rfl, hcoherent, hspeed⟩ hstep) hheard hms.2

/-- The first start puts something on screen. -/
theorem exists_heard_unattended_start [Tempo.Lawful F limit] (hread : story.Readable)
    (hfits : story.FitsIn limit) (hs : s.Telling story) (hphase : s.player.phase = .atLine)
    {ms : List (Move F)} (hms : ∀ m ∈ ms, m.IsInput) :
    ∃ screen, Heard screen (sights (s.unattended (.stage .start :: ms.map .stage))) := by
  obtain ⟨rfl, hcoherent, -⟩ := id hs
  have hstep := step_after hread hcoherent (.stage .start)
  obtain ⟨os, q, r, hmove, hsaid, hafter⟩ := hstep.advances
  obtain ⟨d, harrives⟩ := Player.Step.arrives_of_advance ⟨r, hmove⟩ hphase
  have hheard := (heardOf_arrived limit .nothing harrives).rest
  rw [← hafter] at hheard
  rw [unattended, sights, List.flatMap_cons, Turn.map_snd_told]
  show ∃ screen, Heard screen (sightsOf (s.said (.stage .start)) _ ++ _)
  rw [hsaid, sightsOf]
  exact exists_heard_unattended hread hfits (hs.step hstep) hheard hms

/-- A critic counts the characters shown, hides the event from everybody else, and fails. -/
def critic (_ ticket : Nat) : Reaction Rat Nat Unit Nat Unit := do
  let s ← Turn.say Request.look
  Turn.modify fun count => count + s.view.shown.length
  Turn.say (Request.command (.consume ticket))
  Turn.fail .tooLarge

theorem isPassive_critic : IsPassive critic :=
  fun _ _ _ => ⟨id, fun _ _ => ⟨id, fun _ _ => trivial⟩⟩

/-- The gate, with a critic of the lines and of the progress and completion of texts. -/
def reviewedHost (s : Stage Rat) : Host (House Rat Nat) Unit NoticeKind Notice Nat :=
  (Host.quiet ⟨s, [], 0⟩).changeRegistry () fun r =>
    r.subscribeAll [.lineShown, .textAdvanced, .textCompleted] ⟨0, 0⟩

/-- Keys and frames at the gate. -/
def gateInputs : List (Move Rat) :=
  [.update (1 / 10), .update (1 / 100), .press (some .confirm), .update 7, .select 0,
    .press (some .confirm), .process (1 / 4), .press (some .skip), .select 5]

/-- A tenth of a second shows two characters of the first line, a hundredth more shows no other, and
confirming completes it. -/
example :
    sights ((around (Player.start Player.gate "gate".toList .empty (20 : Rat)) .blank 9).unattended
        (.stage .start :: (gateInputs.take 3).map .stage)) =
      [.heard (.conversationEntered "gate".toList),
        .heard (.variablesChanged ["coins += 1".toList] 1),
        .heard (.lineShown "Guard".toList "Halt.".toList "gate".toList 0), .rest false,
        .heard (.textAdvanced 2 "Ha".toList), .rest false, .rest false,
        .heard (.textCompleted "Halt.".toList), .rest true] := by decide +kernel

end Parley.Stage
