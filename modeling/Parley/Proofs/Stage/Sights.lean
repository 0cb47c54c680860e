import Parley.Proofs.Playback.Texts
import Parley.Proofs.Reveal.Laws
import Parley.Proofs.Stage.Cues

/-!
# What is heard of a reveal

Whoever listens to a stage hears which text is put on screen, how far it has come, and when it is
complete. `Heard` is the grammar of that: a trace of notices, with a rest after each call in which
one can see whether the text on screen is complete. It knows no stage. Progress is only heard of the
text that was put on screen last, and strictly forward; completion is heard once, ends the progress,
and has been heard at a rest if and only if the text is complete then; and at the end of the story
nothing is heard of a text at all.

`Stage.Displays` ties the grammar to a stage. Completion is reached in three ways, by time, by
skipping and on arrival, and one flag keeps them from announcing it twice; the flag, between calls,
is just whether the text is complete.

## Main definitions

* `Screen`, `Sight`, `Heard` — the grammar
* `Player.Arrives` — what a move of the player puts on screen
* `Stage.Displays`, `Stage.HeardOf` — a stage displays what was heard last

## Main results

* `Stage.sensible_task` — keys and frames skip and tick only what is being revealed
* `Stage.Step.heard` — a step is heard as the grammar has it
-/

namespace Parley

/-! ### The grammar -/

/-- What listeners know of the screen: nothing is on it yet, or a text, how much of it was heard to
be shown, and whether it was heard to be complete, or the story is over. -/
inductive Screen where
  | blank
  | showing (text : Text) (shown : Nat) (completed : Bool)
  | over

/-- What is noticed of a stage: a notice, or at rest after a call whether the text on screen is
complete. -/
inductive Sight where
  | heard (n : Notice)
  | rest (complete : Bool)
  deriving DecidableEq

/-- What a notice puts on screen. -/
def Notice.screen? : Notice → Option Screen
  | lineShown _ text _ _ => some (.showing text 0 false)
  | choicesShown views _ _ => some (.showing (Display.choices views).text 0 false)
  | conversationEnded .. => some .over
  | _ => none

/-- Whether a notice is about something else than the screen. -/
def Notice.isAside : Notice → Bool
  | choiceSelected .. | choiceRejected .. | conversationEntered _ | variablesChanged .. => true
  | _ => false

/-- Whether the text on screen was heard to be complete. -/
def Screen.isCompleted : Screen → Bool
  | showing _ _ completed => completed
  | _ => false

/-- What is noticed, up to a screen. -/
inductive Heard : Screen → List Sight → Prop where
  | nothing : Heard .blank []
  | shown {before after : Screen} {xs : List Sight} {n : Notice} (heard : Heard before xs)
      (screen : n.screen? = some after) : Heard after (xs ++ [.heard n])
  | advanced {t : Text} {k i : Nat} {xs : List Sight} (heard : Heard (.showing t k false) xs)
      (forward : k < i) (within : i ≤ t.length) :
      Heard (.showing t i false) (xs ++ [.heard (.textAdvanced i (List.take i t))])
  | completed {t : Text} {k : Nat} {xs : List Sight} (heard : Heard (.showing t k false) xs) :
      Heard (.showing t k true) (xs ++ [.heard (.textCompleted t)])
  | aside {screen : Screen} {xs : List Sight} {n : Notice} (heard : Heard screen xs)
      (isAside : n.isAside = true) : Heard screen (xs ++ [.heard n])
  | rest {screen : Screen} {xs : List Sight} (heard : Heard screen xs) :
      Heard screen (xs ++ [.rest screen.isCompleted])

theorem Heard.asides {screen : Screen} {xs : List Sight} (h : Heard screen xs) {ns : List Notice}
    (hns : ∀ n ∈ ns, n.isAside = true) : Heard screen (xs ++ ns.map .heard) := by
  induction ns generalizing xs with
  | nil =>
    rw [List.map_nil, List.append_nil]
    exact h
  | cons n ns ih =>
    rw [List.forall_mem_cons] at hns
    rw [List.map_cons, ← List.singleton_append, ← List.append_assoc]
    exact ih (h.aside hns.1) hns.2

/-! ### What a player puts on screen -/

/-- The screen that a display makes. -/
def Display.screen : Display → Screen
  | ended _ => .over
  | d => .showing d.text 0 false

theorem Change.isAside_of_mem_notices {es : List Text} {n : Notice} (h : n ∈ notices es) :
    n.isAside = true := by
  rw [notices] at h
  split at h
  · cases h
  · rw [List.mem_singleton.mp h]
    rfl

namespace Player

variable {F : Type} [Tempo F] {p q : Player F} {os : List Signal} {d : Display}

/-- Notices that put a display on screen: the last one does, the others are asides. -/
def Announcing (d : Display) (ns : List Notice) : Prop :=
  ∃ asides n, ns = asides ++ [n] ∧ (∀ a ∈ asides, a.isAside = true) ∧ n.screen? = some d.screen

theorem Announcing.append {ns asides : List Notice} (h : Announcing d ns)
    (hasides : ∀ a ∈ asides, a.isAside = true) : Announcing d (asides ++ ns) := by
  obtain ⟨asides', n, rfl, hasides', hn⟩ := h
  exact ⟨asides ++ asides', n, (List.append_assoc ..).symm,
    List.forall_mem_append.mpr ⟨hasides, hasides'⟩, hn⟩

omit [Tempo F] in
theorem announcing_showingNotice (s : Store) (conversation : Text) (index : Nat) (n : Node) :
    Announcing (displayOf s n) [showingNotice s conversation index n] := by
  refine ⟨[], _, rfl, nofun, ?_⟩
  rw [showingNotice, displayOf]
  split <;> rfl

/-- Settling announces what it shows, and something else before. -/
theorem Settles.announcing {entering : Bool} (h : Settles p entering os q d) :
    Announcing d (noticesIn os) := by
  have hentering (id : Text) :
      ∀ a ∈ noticesIn (enteringSignals entering id), a.isAside = true := by
    cases entering <;> simp [Notice.isAside]
  cases h with
  | missing => exact ⟨[], _, rfl, nofun, rfl⟩
  | finished =>
    have hended : Announcing (.ended p.conversation)
        [.conversationEnded p.conversation .finished] := ⟨[], _, rfl, nofun, rfl⟩
    simpa using hended.append (hentering p.conversation)
  | @shown nodes k n =>
    have hchanges : ∀ a ∈ noticesIn (p.settlingSignals p.conversation k n), a.isAside = true := by
      rw [noticesIn_settlingSignals]
      split
      · exact nofun
      · exact fun a => Change.isAside_of_mem_notices
    have hshown := announcing_showingNotice
      ({ p with index := k }.settledAt p.conversation k n).store p.conversation k n
    have hall := (hshown.append hchanges).append (hentering p.conversation)
    simpa only [noticesIn_append, noticesIn_map_remark, noticesIn_showingSignals,
      List.nil_append] using hall

/-- The screen says whether the story is over. -/
theorem Settles.screen_eq {entering : Bool} (h : Settles p entering os q d) :
    d.screen = if q.isEnded then .over else .showing d.text 0 false := by
  cases h with
  | missing | finished => rfl
  | shown =>
    rw [onNode, displayOf]
    split <;> rfl

/-- What a move puts on screen: what it announces, how the reveal begins, and whether that is the
end. -/
structure Arrives (p : Player F) (os : List Signal) (q : Player F) (d : Display) : Prop where
  announcing : Announcing d (noticesIn os)
  reveal : q.reveal = p.reveal.start d.text
  screen : d.screen = if q.isEnded then .over else .showing d.text 0 false

theorem Step.arrives_of_advance (h : ∃ r, Step p .advance os q r) (hphase : p.phase = .atLine) :
    ∃ d, Arrives p os q d := by
  obtain ⟨r, h⟩ := h
  cases h with
  | idle hne => exact absurd hphase hne
  | next _ hsettles =>
    refine ⟨_, hsettles.announcing, ?_, hsettles.screen_eq⟩
    rw [hsettles.shows.2, forward]
    split <;> rfl
  | written hwritten => cases hwritten

theorem Step.arrives_of_select {index : Int}
    (h : Step p (.select index) os q (.ok (.display (some d)))) : Arrives p os q d := by
  cases h with
  | @taken index c os q d hrefusal hchoice hsettles =>
    refine ⟨?_, hsettles.shows.2, hsettles.screen_eq⟩
    have hselected : ∀ a ∈ [Notice.choiceSelected index c.text c.target], a.isAside = true := by
      simp [Notice.isAside]
    rw [noticesIn_append, noticesIn_signals]
    exact (hsettles.announcing.append hselected).append fun a => Change.isAside_of_mem_notices

end Player

/-- The notice that a signal is, whoever says it. -/
def StageSignal.notice? : StageSignal → Option Notice
  | player s => s.notice?
  | stage n => some n

namespace Stage

variable {F : Type}

/-! ### Inputs -/

/-- Keys, selections, frames, and the switch: what a host does to a stage once it was started. -/
def Move.IsInput : Move F → Prop
  | start | skip => False
  | _ => True

/-- The notices among what is said on a stage. -/
def heardIn (os : List StageSignal) : List Notice := os.filterMap StageSignal.notice?

@[simp] theorem heardIn_nil : heardIn [] = [] := rfl

@[simp] theorem heardIn_append (os os' : List StageSignal) :
    heardIn (os ++ os') = heardIn os ++ heardIn os' := List.filterMap_append

@[simp] theorem heardIn_map_player (os : List Signal) :
    heardIn (os.map .player) = noticesIn os := by
  rw [heardIn, List.filterMap_map]
  rfl

variable [Tempo F] {s t : Stage F} {q : Player F} {k : Task F} {os : List StageSignal}

/-- What is noticed of a cue: the notices, and the rest after it. -/
def sightsOf (os : List StageSignal) (t : Stage F) : List Sight :=
  (heardIn os).map .heard ++ [.rest (isComplete t.player)]

/-- Tasks that inputs come down to: the player advances from a line only, and what is skipped or
ticked is being revealed. -/
def Sensible (s : Stage F) : Task F → Prop
  | .advance => s.player.phase = .atLine
  | .complete | .tick _ => s.isRevealing = true
  | .play _ => False
  | _ => True

theorem sensible_framed (s : Stage F) (dt : F) : s.Sensible (s.framed dt) := by
  rw [framed]
  split
  · assumption
  · trivial

theorem sensible_task {m : Move F} (hm : m.IsInput) (s : Stage F) :
    s.Sensible (s.task (.stage m)) := by
  cases m with
  | start | skip => exact hm.elim
  | select | enable => trivial
  | process dt => exact sensible_framed s dt
  | update dt =>
    rw [task]
    split
    · exact sensible_framed s dt
    · trivial
  | press key =>
    rcases key with _ | a
    · trivial
    · rw [task]
      split
      · trivial
      · next hended =>
        have hrevealing (h : ¬ s.player.reveal.isComplete = true) : s.isRevealing = true := by
          simp [isRevealing, hended, h]
        cases a with
        | skip =>
          rw [pressed]
          split
          · trivial
          · exact hrevealing ‹_›
        | confirm =>
          rw [pressed]
          split
          · split
            · trivial
            · next hphase =>
              show s.player.phase = .atLine
              rw [Player.isEnded] at hended
              cases h : s.player.phase <;> simp_all
          · exact hrevealing ‹_›
        | menuUp | menuDown | choice =>
          rw [pressed]
          split <;> trivial

/-! ### One step -/

/-- What was heard last is displayed: a text that is on screen, as far as it was heard to be shown
unless it was completed; and the flag of the stage says whether the text is complete. -/
inductive Displays (s : Stage F) : Screen → Prop where
  | showing {shown k : Nat} (running : s.player.isEnded = false) (at_ : s.player.reveal.At k)
      (flag : s.completed = s.player.reveal.isComplete)
      (heard : s.completed = false → shown = k) :
      Displays s (.showing s.player.reveal.text shown s.completed)
  | closed (ended : s.player.isEnded = true) : Displays s .over

/-- The flag is right at rest. -/
theorem Displays.isCompleted {screen : Screen} (h : s.Displays screen) :
    screen.isCompleted = isComplete s.player := by
  cases h with
  | showing running at_ flag =>
    show s.completed = isComplete s.player
    rw [isComplete, running, flag]
    rfl
  | closed ended =>
    rw [isComplete, ended]
    rfl

/-- What was heard, with the stage that displays it. -/
def HeardOf (s : Stage F) (xs : List Sight) : Prop := ∃ screen, s.Displays screen ∧ Heard screen xs

theorem HeardOf.rest {xs : List Sight} (h : s.HeardOf xs) :
    s.HeardOf (xs ++ [.rest (isComplete s.player)]) := by
  obtain ⟨screen, hdisplays, hheard⟩ := h
  rw [← hdisplays.isCompleted]
  exact ⟨screen, hdisplays, hheard.rest⟩

theorem HeardOf.asides {xs : List Sight} (h : s.HeardOf xs) {ns : List Notice}
    (hns : ∀ n ∈ ns, n.isAside = true) : s.HeardOf (xs ++ ns.map .heard) := by
  obtain ⟨screen, hdisplays, hheard⟩ := h
  exact ⟨screen, hdisplays, hheard.asides hns⟩

/-- Only the player and the flag matter. -/
theorem HeardOf.congr {xs : List Sight} (h : s.HeardOf xs) (hplayer : t.player = s.player)
    (hcompleted : t.completed = s.completed) : t.HeardOf xs := by
  obtain ⟨screen, hdisplays, hheard⟩ := h
  refine ⟨screen, ?_, hheard⟩
  cases hdisplays with
  | showing running at_ flag heard =>
    rw [← hplayer, ← hcompleted] at *
    exact .showing running at_ flag heard
  | closed ended => exact .closed (hplayer ▸ ended)

/-- While a text is revealed, what was heard of it is what is shown. -/
theorem HeardOf.of_isRevealing {xs : List Sight} (h : s.HeardOf xs)
    (hrevealing : s.isRevealing = true) :
    ∃ k, s.player.isEnded = false ∧ s.player.reveal.At k ∧ s.completed = false ∧
      Heard (.showing s.player.reveal.text k false) xs := by
  rw [isRevealing, Bool.not_eq_true', Bool.or_eq_false_iff] at hrevealing
  obtain ⟨screen, hdisplays, hheard⟩ := h
  cases hdisplays with
  | @showing shown k running at_ flag heard =>
    have hcompleted : s.completed = false := flag.trans hrevealing.2
    rw [hcompleted, heard hcompleted] at hheard
    exact ⟨k, running, at_, hcompleted, hheard⟩
  | closed ended => exact absurd (ended.symm.trans hrevealing.1) (by decide)

/-- The stage when its player has put something on screen. -/
theorem heardOf_arrived (limit : Nat) [Tempo.Exact F limit] {screen : Screen} {xs : List Sight}
    (h : Heard screen xs) {os : List Signal} {d : Display}
    (harrives : Player.Arrives s.player os q d) :
    (s.arrived q).HeardOf (xs ++ (heardIn (os.map .player ++ arrivals q)).map .heard) := by
  obtain ⟨⟨asides, n, hns, hasides, hn⟩, hreveal, hscreen⟩ := harrives
  have hshown := (h.asides hasides).shown hn
  rw [heardIn_append, heardIn_map_player, hns, List.map_append, List.map_append,
    List.map_singleton, ← List.append_assoc, ← List.append_assoc]
  cases hended : q.isEnded
  · have htext : q.reveal.text = d.text := by
      rw [hreveal]
      rfl
    have hat : q.reveal.At 0 := hreveal ▸ Reveal.at_start limit s.player.reveal d.text
    have hflag : (s.arrived q).completed = q.reveal.isComplete := by
      simp [arrived, isComplete, hended]
    refine ⟨_, .showing hended hat hflag fun _ => rfl, ?_⟩
    rw [hended, if_neg Bool.false_ne_true, ← htext] at hscreen
    rw [hscreen] at hshown
    rw [hflag, arrivals, isComplete, hended]
    cases q.reveal.isComplete
    · show Heard (.showing q.reveal.text 0 false) _
      simpa using hshown
    · exact hshown.completed
  · refine ⟨.over, .closed hended, ?_⟩
    rw [hended, if_pos rfl] at hscreen
    rw [hscreen] at hshown
    rw [arrivals, isComplete, hended]
    simpa using hshown

variable {limit : Nat}

/-- The stage when the text was skipped. -/
theorem HeardOf.skipped [Tempo.Exact F limit] {xs : List Sight} (h : s.HeardOf xs)
    (hrevealing : s.isRevealing = true) (hlength : s.player.reveal.text.length ≤ limit) :
    s.skipped.HeardOf (xs ++ (heardIn s.completions).map .heard) := by
  obtain ⟨k, hrunning, -, hcompleted, hheard⟩ := h.of_isRevealing hrevealing
  have hat := Reveal.at_skip hlength
  have hflag : s.skipped.completed = s.player.reveal.skip.isComplete :=
    (hat.isComplete_iff.mpr rfl).symm
  refine ⟨.showing s.player.reveal.text k true, .showing hrunning hat hflag nofun, ?_⟩
  rw [completions, hcompleted]
  exact hheard.completed

/-- The stage when some time has passed. -/
theorem HeardOf.ticked [Tempo.Lawful F limit] {xs : List Sight} (h : s.HeardOf xs)
    (hrevealing : s.isRevealing = true) (hlength : s.player.reveal.text.length ≤ limit)
    (hspeed : Reveal.refuses s.player.reveal.speed = false) {dt : F} {reveal : Reveal F}
    (htick : s.player.reveal.tick? dt = some reveal) :
    (s.ticked reveal).HeardOf (xs ++ (heardIn (s.progress reveal)).map .heard) := by
  obtain ⟨k, hrunning, hat, hcompleted, hheard⟩ := h.of_isRevealing hrevealing
  obtain ⟨m, hkm, hat'⟩ := hat.tick hlength hspeed htick
  have htext := (Reveal.tick?_text_speed htick).1
  have hadvanced : Heard (.showing reveal.text m false) (xs ++ (heardIn
      (if s.player.reveal.shown.length < reveal.shown.length then
        [.stage (.textAdvanced reveal.shown.length reveal.shown)] else [])).map .heard) := by
    rw [hat.length_shown, hat'.length_shown, hat'.shown, htext]
    split
    · exact hheard.advanced ‹_› (htext ▸ hat'.le)
    · obtain rfl : k = m := by omega
      simpa using hheard
  have hflag : (s.ticked reveal).completed = reveal.isComplete := by
    simp [Stage.ticked, hcompleted]
  refine ⟨.showing reveal.text m (s.ticked reveal).completed,
    .showing hrunning hat' hflag fun _ => rfl, ?_⟩
  rw [hflag, progress, hcompleted, heardIn_append, List.map_append, ← List.append_assoc]
  cases reveal.isComplete
  · simpa using hadvanced
  · exact hadvanced.completed

/-- **A step is heard as the grammar has it**, if its task is sensible. -/
theorem Step.heard [Tempo.Lawful F limit] (h : Step s k os t) (hsensible : s.Sensible k)
    (hlength : s.player.reveal.text.length ≤ limit)
    (hspeed : Reveal.refuses s.player.reveal.speed = false) {xs : List Sight}
    (hs : s.HeardOf xs) : t.HeardOf (xs ++ sightsOf os t) := by
  rw [sightsOf, ← List.append_assoc]
  refine HeardOf.rest ?_
  cases h with
  | rest | overrun => simpa using hs
  | highlighted | enabled =>
    rw [heardIn_nil, List.map_nil, List.append_nil]
    exact hs.congr rfl rfl
  | rejected =>
    refine hs.asides fun n hn => ?_
    rw [List.mem_singleton.mp hn]
    rfl
  | played => exact hsensible.elim
  | advanced hmove =>
    obtain ⟨d, harrives⟩ := Player.Step.arrives_of_advance ⟨_, hmove⟩ hsensible
    obtain ⟨screen, -, hheard⟩ := hs
    exact heardOf_arrived limit hheard harrives
  | taken hmove =>
    obtain ⟨screen, -, hheard⟩ := hs
    exact heardOf_arrived limit hheard (Player.Step.arrives_of_select hmove)
  | completed => exact hs.skipped hsensible hlength
  | ticked htick => exact hs.ticked hsensible hlength hspeed htick

end Stage

end Parley
