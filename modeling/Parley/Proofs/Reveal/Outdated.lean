import Parley.Proofs.Reveal.Pulls

/-!
# Pullers of earlier texts

A puller gets to know its text when it is first pulled, and not when it is made. So there are two
kinds of pullers when a text begins. One that was pulled before knows a generation that will never
be current again, or is over, and whatever is done afterwards it shows nothing any more. One that
was only made knows no text. It goes on with the text that is current when it is first pulled, and
that is the new one.

No law of the arithmetic is asked for, since only generations are compared.

## Main definitions

* `Reveal.Puller.Before` — a puller has been pulled for an earlier text, or is over
* `Reveal.Puller.Step` — what pulling can make of a puller
* `Session.Pulls`, `Session.PullsAmong` — a move, or one of a run, pulls the puller at a place
* `Session.SilentAt` — pulling the puller at a place shows nothing and moves nothing

## Main results

* `Session.exists_puller_after` — what a move can make of a puller
* `Session.silentAt_of_pullsAmong` — a puller that was pulled is silent once another text has begun
* `Session.exists_perform_of_fresh` — a puller that was only made is not
* `Session.silent_or_outlives` — of any puller and any run
-/

namespace Parley.Reveal

variable {F : Type} [Tempo F] {r r' : Reveal F} {p q : Puller} {generation : Nat} {dt : F}

/-! ### Pullers and generations -/

/-- The puller has been pulled for a text of an earlier generation, or is over. -/
def Puller.Before (generation : Nat) : Puller → Prop
  | .fresh => False
  | .bound g => g < generation
  | .over => True

/-- What pulling, any number of times, can make of a puller. -/
inductive Puller.Step (generation : Nat) : Puller → Puller → Prop where
  | stay (p : Puller) : Step generation p p
  | bind : Step generation .fresh (.bound generation)
  | finish (p : Puller) : Step generation p .over

/-- A puller forgets no text that it was pulled for. -/
theorem Puller.Before.step {current : Nat} (hp : p.Before generation) (h : p.Step current q) :
    q.Before generation := by
  cases h with
  | stay => exact hp
  | bind => cases hp
  | finish => trivial

/-- A puller of an earlier text is over when it is pulled, and nothing else happens. -/
theorem pull_of_before (hp : p.Before generation) (hg : generation ≤ r.generation) :
    pull p r = (none, .over, r) := by
  match p, hp with
  | .bound g, hp => exact if_neg fun h => (hp.trans_le hg).ne h.1
  | .over, _ => rfl

theorem drain_of_before (hp : p.Before generation) (hg : generation ≤ r.generation) :
    drain p r = ([], .over, r) := by
  rw [drain, pullAtMost, pull_of_before hp hg]

theorem Puller.step_pull (p : Puller) (r : Reveal F) : p.Step r.generation (pull p r).2.1 := by
  have hpull (g : Nat) : (Puller.bound g).Step r.generation (pullFor g r).2.1 := by
    rw [pullFor]
    split
    · exact .stay (.bound g)
    · exact .finish (.bound g)
  rcases p with _ | g | _
  · rcases pull_eq_or .fresh r with h | ⟨-, h⟩ <;> rw [h]
    · exact .finish .fresh
    · exact .bind
  · exact hpull g
  · exact .stay .over

theorem Puller.Step.trans {u : Puller} (h : p.Step generation q) (h' : q.Step generation u) :
    p.Step generation u := by
  cases h with
  | stay => exact h'
  | bind =>
    cases h' with
    | stay => exact .bind
    | finish => exact .finish .fresh
  | finish =>
    cases h' with
    | stay | finish => exact .finish p

theorem Puller.step_pullAtMost (n : Nat) (p : Puller) (r : Reveal F) :
    p.Step r.generation (pullAtMost n p r).2.1 := by
  induction n generalizing p r with
  | zero => exact .stay p
  | succ n ih =>
    have hfirst := Puller.step_pull p r
    rw [pullAtMost]
    rcases pull_eq_or p r with h | ⟨-, h⟩ <;> rw [h] at hfirst ⊢
    · exact hfirst
    · exact hfirst.trans (ih (.bound r.generation) r.next)

/-- Whoever is pulled belongs to no generation that is to come. -/
theorem before_pullAtMost (n : Nat) (p : Puller) (r : Reveal F) :
    (pullAtMost (n + 1) p r).2.1.Before (r.generation + 1) := by
  rcases puller_pullAtMost n p r with h | h <;> rw [h]
  · trivial
  · exact Nat.lt_succ_self r.generation

theorem generation_tick? (h : r.tick? dt = some r') : r'.generation = r.generation := by
  rw [tick?] at h
  split at h
  · obtain ⟨position, -, rfl⟩ := Option.map_eq_some_iff.mp h
    rfl
  · obtain rfl := Option.some.inj h
    rfl

/-! ### Sessions -/

namespace Session

variable {s : Session F} {m : Move F} {ms : List (Move F)} {place : Nat}

/-- Generations are counted up only. -/
theorem generation_le_after (s : Session F) (m : Move F) :
    s.reveal.generation ≤ (s.after m).reveal.generation := by
  have hbecomes := s.becomes_after m
  generalize s.after m = s' at hbecomes ⊢
  cases hbecomes with
  | start => exact Nat.le_succ _
  | tick htick => exact (generation_tick? htick).ge
  | pulled | drained => exact (onward_pullAtMost _ _ s.reveal).generation_eq.ge
  | _ => exact le_rfl

theorem generation_le_afterAll (s : Session F) (ms : List (Move F)) :
    s.reveal.generation ≤ (s.afterAll ms).reveal.generation := by
  induction ms generalizing s with
  | nil => exact le_rfl
  | cons m ms ih => exact (s.generation_le_after m).trans (ih (s.after m))

/-- The move pulls the puller at a place, once or until it is over. -/
def Pulls (s : Session F) (place : Nat) (m : Move F) : Prop :=
  ∃ number p, s.puller? number = some (place, p) ∧ (m = .pull number ∨ m = .drain (some number))

/-- **A move does nothing to a puller but pull it.** -/
theorem exists_puller_after (m : Move F) (h : s.pullers[place]? = some p) :
    ∃ q, (s.after m).pullers[place]? = some q ∧ p.Step s.reveal.generation q ∧
      (q = p ∨ s.Pulls place m) := by
  obtain ⟨hlt, -⟩ := List.getElem?_eq_some_iff.mp h
  have hbecomes := s.becomes_after m
  generalize s.after m = s' at hbecomes ⊢
  cases hbecomes with
  | newPuller =>
    have hkept : (s.pullers ++ [.fresh])[place]? = some p := by
      rw [List.getElem?_append_left hlt, h]
    exact ⟨p, hkept, .stay p, .inl rfl⟩
  | @pulled _ number other u hu hm n =>
    by_cases hplace : other = place
    · subst hplace
      obtain rfl : u = p := Option.some.inj ((getElem?_of_puller? hu).symm.trans h)
      exact ⟨_, List.getElem?_set_self hlt, Puller.step_pullAtMost (n + 1) u s.reveal,
        .inr ⟨number, u, hu, hm⟩⟩
    · exact ⟨p, by rw [List.getElem?_set_ne hplace, h], .stay p, .inl rfl⟩
  | _ => exact ⟨p, h, .stay p, .inl rfl⟩

/-! ### Pulled before -/

/-- There is a puller at the place, and it has been pulled for an earlier text or is over. -/
def BeforeAt (generation place : Nat) (s : Session F) : Prop :=
  ∃ p, s.pullers[place]? = some p ∧ p.Before generation

theorem BeforeAt.after (h : s.BeforeAt generation place) (m : Move F) :
    (s.after m).BeforeAt generation place := by
  obtain ⟨p, hp, hbefore⟩ := h
  obtain ⟨q, hq, hstep, -⟩ := exists_puller_after m hp
  exact ⟨q, hq, hbefore.step hstep⟩

theorem BeforeAt.afterAll (h : s.BeforeAt generation place) (ms : List (Move F)) :
    (s.afterAll ms).BeforeAt generation place := by
  induction ms generalizing s with
  | nil => exact h
  | cons m ms ih => exact ih (h.after m)

/-- There is a puller at the place, and pulling it shows nothing and does not move the reveal. -/
def SilentAt (place : Nat) (s : Session F) : Prop :=
  place < s.pullers.length ∧ ∀ number p, s.puller? number = some (place, p) →
    s.perform (.pull number) =
        (.ok (.text none), { s with pullers := s.pullers.set place .over }) ∧
      s.perform (.drain (some number)) =
        (.ok (.texts []), { s with pullers := s.pullers.set place .over })

theorem BeforeAt.silentAt (h : s.BeforeAt generation place)
    (hg : generation ≤ s.reveal.generation) : s.SilentAt place := by
  obtain ⟨p, hp, hbefore⟩ := h
  refine ⟨(List.getElem?_eq_some_iff.mp hp).1, fun number q hq => ?_⟩
  obtain rfl : q = p := Option.some.inj ((getElem?_of_puller? hq).symm.trans hp)
  constructor
  · rw [perform, hq]
    simp only [pull_of_before hbefore hg]
  · rw [perform, hq]
    simp only [drain_of_before hbefore hg]

/-- Whoever is pulled belongs to no text that is still to come. -/
theorem beforeAt_of_pulls (hm : s.Pulls place m) :
    (s.after m).BeforeAt (s.reveal.generation + 1) place := by
  obtain ⟨number, p, hp, hm⟩ := hm
  obtain ⟨hlt, -⟩ := List.getElem?_eq_some_iff.mp (getElem?_of_puller? hp)
  rcases hm with rfl | rfl
  · rw [Session.after, perform, hp]
    simp only [pull_snd]
    exact ⟨_, List.getElem?_set_self hlt, before_pullAtMost 0 p s.reveal⟩
  · rw [Session.after, perform, hp]
    exact ⟨_, List.getElem?_set_self hlt, before_pullAtMost _ p s.reveal⟩

/-- Some move of a run pulls the puller at a place. -/
def PullsAmong (place : Nat) : Session F → List (Move F) → Prop
  | _, [] => False
  | s, m :: ms => s.Pulls place m ∨ PullsAmong place (s.after m) ms

theorem exists_beforeAt_of_pullsAmong (h : s.PullsAmong place ms) :
    ∃ generation ≤ (s.afterAll ms).reveal.generation,
      (s.afterAll ms).BeforeAt (generation + 1) place := by
  induction ms generalizing s with
  | nil => cases h
  | cons m ms ih =>
    rcases h with hm | hms
    · have hle := (s.generation_le_after m).trans (generation_le_afterAll _ ms)
      exact ⟨s.reveal.generation, hle, (beforeAt_of_pulls hm).afterAll ms⟩
    · exact ih hms

/-- A puller that was pulled is silent as soon as another text has begun. -/
theorem silentAt_of_pullsAmong (h : s.PullsAmong place ms) (t : Text) (ms' : List (Move F)) :
    (((s.afterAll ms).after (.start t)).afterAll ms').SilentAt place := by
  obtain ⟨generation, hle, hbefore⟩ := exists_beforeAt_of_pullsAmong h
  refine ((hbefore.after (.start t)).afterAll ms').silentAt ?_
  calc generation + 1
      ≤ (s.afterAll ms).reveal.generation + 1 := Nat.succ_le_succ hle
    _ = ((s.afterAll ms).after (.start t)).reveal.generation := rfl
    _ ≤ _ := generation_le_afterAll _ ms'

/-! ### Made, and not pulled -/

theorem getElem?_pullers_of_not_pullsAmong (hms : ¬ s.PullsAmong place ms)
    (h : s.pullers[place]? = some p) : (s.afterAll ms).pullers[place]? = some p := by
  induction ms generalizing s with
  | nil => exact h
  | cons m ms ih =>
    rw [PullsAmong, not_or] at hms
    obtain ⟨q, hq, -, hpulled⟩ := exists_puller_after m h
    obtain rfl := hpulled.resolve_right hms.1
    exact ih hms.2 hq

omit [Tempo F] in
theorem puller?_natCast (h : s.pullers[place]? = some p) : s.puller? place = some (place, p) := by
  obtain ⟨hlt, -⟩ := List.getElem?_eq_some_iff.mp h
  have hplace : place? s.pullers.length place = some place := by
    rw [place?]
    simp only [if_neg (Int.not_lt.mpr (Int.natCast_nonneg place))]
    exact if_pos ⟨Int.natCast_nonneg place, Int.ofNat_lt.mpr hlt⟩
  simp [puller?, hplace, h]

/-- A puller that was only made goes on with the text that begins. -/
theorem exists_perform_of_fresh (limit : Nat) [Tempo.Exact F limit] {t : Text} (ht : t ≠ [])
    (hlimit : t.length ≤ limit) (h : s.pullers[place]? = some .fresh) :
    ∃ r : Reveal F, r.shown = List.take 1 t ∧ (s.after (.start t)).perform (.pull place) =
      (.ok (.text (some r.shown)), ⟨r, s.pullers.set place (.bound r.generation)⟩) := by
  have hat := at_start limit s.reveal t
  have hlength : 0 < (s.reveal.start t).text.length := List.length_pos_iff.mpr ht
  have hshown := (hat.next hlimit hlength).shown
  refine ⟨(s.reveal.start t).next, hshown, ?_⟩
  have hp : (s.after (.start t)).puller? place = some (place, .fresh) := puller?_natCast h
  have hpull : Reveal.pull .fresh (s.after (.start t)).reveal = _ :=
    hat.pull_eq_some hlimit hlength (p := .fresh) trivial (by simp)
  rw [perform, hp, hshown]
  simp only [hpull]
  rfl

/-- **Another text silences the pullers that were pulled, and only those.** A puller is made at any
time, and a run follows. If it was pulled in the run, then it shows nothing and moves nothing after
another text has begun, whatever else happens. If not, then it shows that text. -/
theorem silent_or_outlives (limit : Nat) [Tempo.Exact F limit] (s₀ : Session F)
    (hs : (s₀.after .newPuller).afterAll ms = s) :
    ((s₀.after .newPuller).PullsAmong s₀.pullers.length ms → ∀ t ms',
      ((s.after (.start t)).afterAll ms').SilentAt s₀.pullers.length) ∧
    (¬ (s₀.after .newPuller).PullsAmong s₀.pullers.length ms → ∀ t, t ≠ [] → t.length ≤ limit →
      ∃ r : Reveal F, r.shown = List.take 1 t ∧
        (s.after (.start t)).perform (.pull s₀.pullers.length) =
          (.ok (.text (some r.shown)),
            ⟨r, s.pullers.set s₀.pullers.length (.bound r.generation)⟩)) := by
  subst hs
  refine ⟨fun h t ms' => silentAt_of_pullsAmong h t ms', fun h t ht hlimit => ?_⟩
  have hmade : (s₀.after .newPuller).pullers[s₀.pullers.length]? = some .fresh :=
    List.getElem?_concat_length
  exact exists_perform_of_fresh limit ht hlimit (getElem?_pullers_of_not_pullsAmong h hmade)

/-- A session that reveals its first text, and has a puller that was just made. -/
def made : Session Rat := ((start 20).after (.start "First".toList)).after .newPuller

/-- One character is pulled, another text begins, and time passes in it. -/
theorem silent_or_outlives_made :
    made.PullsAmong 0 [.pull 0] ∧
      (((made.afterAll [.pull 0]).after (.start "Second".toList)).afterAll
        [.tick (1 / 8)]).SilentAt 0 ∧
      (((made.afterAll [.pull 0]).after (.start "Second".toList)).afterAll
        [.tick (1 / 8)]).reveal.shown = "Se".toList := by
  have hpulled : made.PullsAmong 0 [.pull 0] := .inl ⟨0, .fresh, rfl, .inl rfl⟩
  have hsilent : ∀ t ms', (((made.afterAll [.pull 0]).after (.start t)).afterAll ms').SilentAt 0 :=
    (silent_or_outlives 6 ((start 20).after (.start "First".toList)) rfl).1 hpulled
  exact ⟨hpulled, hsilent _ _, by decide +kernel⟩

/-- The puller was made while the first text was revealed, and it shows the second. -/
theorem outlives_made :
    ∃ r : Reveal Rat, r.shown = "S".toList ∧
      (made.after (.start "Second".toList)).perform (.pull 0) =
        (.ok (.text (some r.shown)), ⟨r, [.bound r.generation]⟩) ∧
      ¬ (made.after (.start "Second".toList)).SilentAt 0 := by
  have hfits : "Second".toList.length ≤ 6 := by decide
  have hfresh : made.pullers[0]? = some .fresh := rfl
  obtain ⟨r, hshown, hpull⟩ := exists_perform_of_fresh 6 (by decide) hfits hfresh
  refine ⟨r, hshown, hpull, fun hsilent => ?_⟩
  have hnothing := (hsilent.2 0 .fresh rfl).1
  rw [show (0 : Int) = (0 : Nat) from rfl, hpull] at hnothing
  simp at hnothing

end Session

end Parley.Reveal
