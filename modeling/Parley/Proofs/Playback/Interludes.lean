import Parley.Proofs.Pacts
import Parley.Proofs.Playback.Announcements
import Parley.Proofs.Playback.Reentrance

/-!
# Interludes

What a player announces is heard in the middle of a move, and whoever hears it may make moves of the
player before that move goes on; those announce things in their turn. So moves nest, to any depth,
and some of them may never go on: a listener that aborts takes the interrupted move with it, and a
listener that never comes back leaves it waiting.

A scene is such a state of affairs. One move is under way, or somebody may act, and the moves that
were interrupted wait for their turn, the last one first. What is announced is collected in the
order in which it is said. Any number of steps is a run, also one that leaves moves unfinished, so
what holds of runs holds at every moment.

What each move keeps and says, by itself, among others who keep the same, all runs keep and say:
`Scene.Leads.allowed`.

## Main definitions

* `Player.Scene`, `Player.Scene.Next`, `Player.Scene.Leads` — scenes, steps between them, and runs
* `Player.Scene.Sound`, `Player.Scene.Upholds` — moves and scenes that keep an invariant

## Main results

* `Player.Scene.Leads.allowed` — what is announced in a run of sound moves
* `Player.Scene.leads_afterAll` — moves that nobody listens to are a run
-/

namespace Parley.Player

variable {F : Type}

/-- A move that is under way. -/
abbrev Underway (F : Type) : Type := Play (Player F) Signal (fun _ => Unit) PlayFault Answer

/-- Moves in the middle of others. The moves that were interrupted wait for a player to go on with,
the last one first. -/
inductive Scene (F : Type) where
  /-- A move is under way. -/
  | moving (play : Underway F) (waiting : List (Player F → Underway F))
  /-- Whoever has been told something may act, or else the host. -/
  | acting (p : Player F) (waiting : List (Player F → Underway F))

namespace Scene

section Steps

variable [Tempo F]

/-- What can happen next, and what is announced when it does. -/
inductive Next : Scene F → List Notice → Scene F → Prop where
  | move (p : Player F) (m : Move F) (waiting : List (Player F → Underway F)) :
      Next (acting p waiting) [] (moving (m.turn p) waiting)
  | finished (p : Player F) (a : Answer) (waiting : List (Player F → Underway F)) :
      Next (moving (.done p a) waiting) [] (acting p waiting)
  | failed (p : Player F) (e : PlayFault) (waiting : List (Player F → Underway F)) :
      Next (moving (.fail p e) waiting) [] (acting p waiting)
  | remarked (p : Player F) (r : Remark) (next : Unit → Player F → Underway F)
      (waiting : List (Player F → Underway F)) :
      Next (moving (.pause p (.remark r) next) waiting) [] (moving (next () p) waiting)
  | announced (p : Player F) (n : Notice) (next : Unit → Player F → Underway F)
      (waiting : List (Player F → Underway F)) :
      Next (moving (.pause p (.notice n) next) waiting) [n] (acting p (next () :: waiting))
  | resumed (p : Player F) (rest : Player F → Underway F)
      (waiting : List (Player F → Underway F)) :
      Next (acting p (rest :: waiting)) [] (moving (rest p) waiting)
  | aborted (p : Player F) (rest : Player F → Underway F)
      (waiting : List (Player F → Underway F)) :
      Next (acting p (rest :: waiting)) [] (acting p waiting)

/-- A run of steps leads from one scene to another, and this is announced on the way. -/
inductive Leads (a : Scene F) : List Notice → Scene F → Prop where
  | here : Leads a [] a
  | next {b c : Scene F} {ns ns' : List Notice} (run : Leads a ns b) (step : Next b ns' c) :
      Leads a (ns ++ ns') c

variable {a b c : Scene F} {ns ns' : List Notice}

theorem Leads.trans (h : Leads a ns b) (h' : Leads b ns' c) : Leads a (ns ++ ns') c := by
  induction h' with
  | here =>
    rw [List.append_nil]
    exact h
  | next _ step ih =>
    rw [← List.append_assoc]
    exact ih.next step

theorem Next.leads (h : Next a ns b) : Leads a ns b := Leads.here.next h

end Steps

/-! ### A pact governs runs -/

section Pacts

variable (keeps : Player F → Prop) (allows : Player F → Signal → Prop)

/-- A move that is under way keeps an invariant, and says only what is allowed, if whoever hears of
it keeps the invariant. -/
abbrev Sound (play : Underway F) : Prop :=
  play.Abides (.keeping Signal.isHeard keeps allows) fun _ => keeps

/-- Everybody keeps the invariant: the move that is under way is sound, and so are those that wait,
whoever acts meanwhile; and where somebody may act, the invariant holds. -/
def Upholds : Scene F → Prop
  | moving play waiting =>
    Sound keeps allows play ∧ ∀ rest ∈ waiting, ∀ p, keeps p → Sound keeps allows (rest p)
  | acting p waiting =>
    keeps p ∧ ∀ rest ∈ waiting, ∀ p, keeps p → Sound keeps allows (rest p)

end Pacts

variable [Tempo F] {keeps : Player F → Prop} {allows : Player F → Signal → Prop} {a b : Scene F}
  {ns : List Notice}

/-- **One step.** If every move is sound, a step keeps the invariant upheld, and what it announces
is allowed in the state in which it is said. -/
theorem Next.upholds (h : Next a ns b)
    (hmoves : ∀ (m : Move F) (p : Player F), keeps p → Sound keeps allows (m.turn p))
    (ha : a.Upholds keeps allows) :
    b.Upholds keeps allows ∧ ∀ n ∈ ns, ∃ p, allows p (.notice n) := by
  cases h with
  | move p m waiting => exact ⟨⟨hmoves m p ha.1, ha.2⟩, nofun⟩
  | finished | failed => exact ⟨ha, nofun⟩
  | remarked p r next waiting =>
    obtain ⟨⟨-, hnext⟩, hwaiting⟩ := ha
    have hsame : (Pact.keeping Signal.isHeard keeps allows).leaves p (.remark r) p := by
      simp [Pact.keeping, Signal.isHeard]
    exact ⟨⟨hnext () p hsame, hwaiting⟩, nofun⟩
  | announced p n next waiting =>
    obtain ⟨⟨⟨hallows, hkeeps⟩, hnext⟩, hwaiting⟩ := ha
    have hrest (q : Player F) (hq : keeps q) : Sound keeps allows (next () q) :=
      hnext () q (by simpa [Pact.keeping, Signal.isHeard] using hq)
    exact ⟨⟨hkeeps rfl, List.forall_mem_cons.mpr ⟨hrest, hwaiting⟩⟩,
      fun m hm => ⟨p, List.mem_singleton.mp hm ▸ hallows⟩⟩
  | resumed p rest waiting =>
    obtain ⟨hp, hwaiting⟩ := ha
    rw [List.forall_mem_cons] at hwaiting
    exact ⟨⟨hwaiting.1 p hp, hwaiting.2⟩, nofun⟩
  | aborted p rest waiting => exact ⟨⟨ha.1, (List.forall_mem_cons.mp ha.2).2⟩, nofun⟩

/-- **All runs.** If every move is sound, whatever is announced in a run is allowed in some state,
namely the one in which it is said. -/
theorem Leads.allowed (h : Leads a ns b)
    (hmoves : ∀ (m : Move F) (p : Player F), keeps p → Sound keeps allows (m.turn p))
    (ha : a.Upholds keeps allows) :
    b.Upholds keeps allows ∧ ∀ n ∈ ns, ∃ p, allows p (.notice n) := by
  induction h with
  | here => exact ⟨ha, nofun⟩
  | next _ step ih =>
    obtain ⟨hupholds, hallowed⟩ := ih
    obtain ⟨hupholds, hannounced⟩ := step.upholds hmoves hupholds
    exact ⟨hupholds, List.forall_mem_append.mpr ⟨hallowed, hannounced⟩⟩

/-! ### Nobody listening -/

theorem leads_alone (play : Underway F) (waiting : List (Player F → Underway F)) :
    Leads (moving play waiting) (noticesIn play.alone.1) (acting play.alone.2.1 waiting) := by
  induction play with
  | done p a => exact (Next.finished p a waiting).leads
  | fail p e => exact (Next.failed p e waiting).leads
  | pause p s next ih =>
    cases s with
    | remark r => exact (Next.remarked p r next waiting).leads.trans (ih () p)
    | notice n =>
      have hheard := (Next.announced p n next waiting).leads.next (.resumed p (next ()) waiting)
      exact hheard.trans (ih () p)

/-- **Moves that nobody listens to are a run**, in which every notice is followed by nothing. -/
theorem leads_afterAll (p : Player F) (ms : List (Move F)) :
    Leads (acting p []) (record noticesOf p ms) (acting (p.afterAll ms) []) := by
  induction ms generalizing p with
  | nil => exact .here
  | cons m ms ih =>
    have hmove := (Next.move p m []).leads.trans (leads_alone (m.turn p) [])
    exact hmove.trans (ih (p.after m))

end Scene

end Parley.Player
