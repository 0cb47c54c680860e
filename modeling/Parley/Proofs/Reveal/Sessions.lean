import Mathlib.Logic.Relation
import Parley.Proofs.Reveal.Ordered
import Parley.Reveal.Session

/-!
# A reveal moves forward

A session moves one position in many ways: time takes it further by fractions, pullers round it down
and go on by one, and skipping puts it at the end. All of these are steps of the reveal, so from one
text to the next there is nothing but steps, and what a step keeps is kept until the next text.

What steps keep here is that the position lies within the text. That it is a number at all does not
follow from how it was moved: a speed or a time that is no number makes a sum that is none. Such a
sum is not before the end, and what is not before the end is put there.

## Main definitions

* `Reveal.Onward` — what can become of a reveal before another text begins
* `Reveal.InRange` — the position lies between zero and the end, and is rounded down
* `Session.afterAll` — the session after some moves
* `Session.Becomes` — what a move makes of a session
* `Session.Orderly` — what is promised of a session at any time

## Main results

* `Session.onward_afterAll` — moves that begin no text are steps
* `Session.orderly_run` — every session is orderly, whatever its speed and times are
-/

namespace Parley.Reveal

variable {F : Type} [Tempo F] {r r' : Reveal F} {limit k : Nat}

/-! ### Until another text begins -/

/-- What can become of a reveal before another text begins. -/
abbrev Onward : Reveal F → Reveal F → Prop := Relation.ReflTransGen Step

theorem Onward.text_eq (h : r.Onward r') : r'.text = r.text := by
  induction h with
  | refl => rfl
  | tail _ hstep ih => exact hstep.text_eq.trans ih

theorem Onward.speed_eq (h : r.Onward r') : r'.speed = r.speed := by
  induction h with
  | refl => rfl
  | tail _ hstep ih => exact hstep.speed_eq.trans ih

theorem Onward.generation_eq (h : r.Onward r') : r'.generation = r.generation := by
  induction h with
  | refl => rfl
  | tail _ hstep ih => exact hstep.generation_eq.trans ih

/-- A count of characters that no step takes back. -/
theorem Onward.exists_le {P : Reveal F → Nat → Prop}
    (hstep : ∀ {r r' k}, P r k → r.text.length ≤ limit → r.Step r' → ∃ m, k ≤ m ∧ P r' m)
    (hk : P r k) (hlength : r.text.length ≤ limit) (h : r.Onward r') : ∃ m, k ≤ m ∧ P r' m := by
  induction h with
  | refl => exact ⟨k, le_rfl, hk⟩
  | @tail r₁ r₂ honward hlast ih =>
    obtain ⟨m, hkm, hm⟩ := ih
    have hlength₁ : r₁.text.length ≤ limit := by rwa [Onward.text_eq honward]
    obtain ⟨n, hmn, hn⟩ := hstep hm hlength₁ hlast
    exact ⟨n, hkm.trans hmn, hn⟩

theorem At.onward [Tempo.Lawful F limit] (h : r.At k) (hlength : r.text.length ≤ limit)
    (honward : r.Onward r') : ∃ m, k ≤ m ∧ r'.At m :=
  honward.exists_le At.step h hlength

/-- What was shown is still shown. -/
theorem At.shown_prefix_of_le {m : Nat} (h : r.At k) (h' : r'.At m) (htext : r'.text = r.text)
    (hkm : k ≤ m) : r.shown <+: r'.shown := by
  rw [h.shown, h'.shown, htext]
  exact List.take_prefix_take_left hkm

/-- A text that was complete is still complete. -/
theorem At.isComplete_of_le {m : Nat} (h : r.At k) (h' : r'.At m) (htext : r'.text = r.text)
    (hkm : k ≤ m) (hcomplete : r.isComplete = true) : r'.isComplete = true := by
  have hle := h'.le
  rw [h.isComplete_iff] at hcomplete
  rw [h'.isComplete_iff]
  rw [htext] at hle ⊢
  omega

/-- A pull does nothing, and the puller is over then, or it shows one character more. -/
theorem pull_eq_or (p : Puller) (r : Reveal F) :
    pull p r = (none, .over, r) ∨
      r.isComplete = false ∧ pull p r = (some r.next.shown, .bound r.generation, r.next) := by
  have hpull (generation : Nat) : pullFor generation r = (none, .over, r) ∨
      r.isComplete = false ∧
        pullFor generation r = (some r.next.shown, .bound r.generation, r.next) := by
    by_cases h : generation = r.generation ∧ r.isComplete = false
    · obtain ⟨rfl, hmore⟩ := h
      exact .inr ⟨hmore, if_pos ⟨rfl, hmore⟩⟩
    · exact .inl (if_neg h)
  match p with
  | .fresh => exact hpull r.generation
  | .bound generation => exact hpull generation
  | .over => exact .inl rfl

theorem step_pull (p : Puller) (r : Reveal F) : r.Step (pull p r).2.2 := by
  rcases pull_eq_or p r with h | ⟨hmore, h⟩ <;> rw [h]
  · exact .stay
  · exact .pull hmore

/-- To pull once is to pull at most once. -/
theorem pull_snd (p : Puller) (r : Reveal F) : (pull p r).2 = (pullAtMost 1 p r).2 := by
  rw [pullAtMost]
  split
  · next hpull => rw [hpull]
  · next hpull => rw [hpull, pullAtMost]

theorem onward_pullAtMost (n : Nat) (p : Puller) (r : Reveal F) :
    r.Onward (pullAtMost n p r).2.2 := by
  induction n generalizing p r with
  | zero => exact .refl
  | succ n ih =>
    rw [pullAtMost]
    rcases pull_eq_or p r with h | ⟨hmore, h⟩
    · rw [h]
    · rw [h]
      exact (ih (.bound r.generation) r.next).head (.pull hmore)

/-! ### Within the text -/

/-- The position lies between zero and the end of the text. So many characters are before it, and
the next one is not. -/
structure InRange (r : Reveal F) (k : Nat) : Prop extends At r k where
  zero_le : Tempo.le Tempo.zero r.position = true
  le_end : Tempo.le r.position r.endPosition = true
  floor_le : Tempo.le (Tempo.ofInt k) r.position = true
  lt_succ (h : k < r.text.length) : Tempo.lt r.position (Tempo.ofInt (k + 1)) = true

section Ordered

variable [Tempo.Ordered F limit]

theorem At.inRange (h : r.At k) (hlength : r.text.length ≤ limit)
    (hzero : Tempo.le Tempo.zero r.position = true)
    (hend : Tempo.le r.position r.endPosition = true) : r.InRange k where
  toAt := h
  zero_le := hzero
  le_end := hend
  floor_le := Tempo.Ordered.ofInt_le_of_whole hzero h.whole (h.le.trans hlength)
  lt_succ hk := Tempo.Ordered.lt_of_whole h.whole (hk.trans_le hlength)

/-- At zero a reveal is in range, whatever its text is. -/
theorem inRange_of_position_eq (hposition : r.position = Tempo.zero)
    (hlength : r.text.length ≤ limit) : r.InRange 0 := by
  refine (at_of_position_eq limit hposition).inRange hlength ?_ ?_ <;> rw [hposition]
  · exact Tempo.Ordered.ofInt_le_ofInt le_rfl (Nat.zero_le limit)
  · exact Tempo.Ordered.ofInt_le_ofInt (Nat.zero_le _) hlength

/-- A step stays within the text. -/
theorem InRange.step (h : r.InRange k) (hlength : r.text.length ≤ limit) (hstep : r.Step r') :
    ∃ m, k ≤ m ∧ r'.InRange m := by
  obtain ⟨m, hkm, hm⟩ := h.toAt.step hlength hstep
  have hlength' : r'.text.length ≤ limit := by rwa [hstep.text_eq]
  refine ⟨m, hkm, ?_⟩
  cases hstep with
  | stay => exact hm.inRange hlength h.zero_le h.le_end
  | finish =>
    exact hm.inRange hlength' (Tempo.Ordered.ofInt_le_ofInt (Nat.zero_le _) hlength)
      (Tempo.Ordered.ofInt_le_ofInt le_rfl hlength)
  | pull hmore =>
    have hk : k < r.text.length := h.toAt.lt_of_not_isComplete hmore
    refine hm.inRange hlength' ?_ ?_
    · show Tempo.le (Tempo.ofInt 0 : F) (Tempo.ofInt (r.count + 1)) = true
      rw [h.toAt.count_eq]
      exact Tempo.Ordered.ofInt_le_ofInt (Nat.zero_le (k + 1)) (hk.trans_le hlength)
    · show Tempo.le (Tempo.ofInt (r.count + 1) : F) r.endPosition = true
      rw [h.toAt.count_eq]
      exact Tempo.Ordered.ofInt_le_ofInt hk hlength
  | forward hle hlt =>
    exact hm.inRange hlength' (Tempo.Ordered.le_trans limit h.zero_le hle)
      (Tempo.Ordered.le_of_lt limit hlt)

theorem InRange.onward (h : r.InRange k) (hlength : r.text.length ≤ limit)
    (honward : r.Onward r') : ∃ m, k ≤ m ∧ r'.InRange m :=
  honward.exists_le InRange.step h hlength

end Ordered

theorem At.isLost_eq_false (h : r.At k) : r.isLost = false := by
  rw [isLost, h.whole]
  rfl

/-! ### Sessions -/

variable {m : Move F} {ms : List (Move F)}

/-- A move that begins no text. The speed stays what it is. -/
def Move.Continues : Move F → Prop
  | .start _ | .setSpeed _ => False
  | _ => True

/-- A move that begins a text up to a limit, or none. -/
def Move.FitsIn (limit : Nat) : Move F → Prop
  | .start t => t.length ≤ limit
  | m => m.Continues

omit [Tempo F] in
theorem Move.FitsIn.continues_or (h : m.FitsIn limit) :
    m.Continues ∨ ∃ t, m = .start t ∧ t.length ≤ limit := by
  cases m with
  | start t => exact .inr ⟨t, rfl, h⟩
  | _ => exact .inl h

namespace Session

variable {s : Session F}

/-- The session after a move. -/
def after (s : Session F) (m : Move F) : Session F := (s.perform m).2

/-- The session after some moves. -/
def afterAll (s : Session F) (ms : List (Move F)) : Session F := ms.foldl after s

@[simp] theorem afterAll_nil (s : Session F) : s.afterAll [] = s := rfl

@[simp] theorem afterAll_cons (s : Session F) (m : Move F) (ms : List (Move F)) :
    s.afterAll (m :: ms) = (s.after m).afterAll ms := rfl

/-- A move is not answered with a lost reveal unless the reveal is lost. -/
theorem isLost_of_perform (hlost : (s.perform m).1 = .error .lost) :
    (s.perform m).2.reveal.isLost = true := by
  cases m with
  | tick dt =>
    rw [perform] at hlost ⊢
    split
    · next htick => rw [htick] at hlost; cases hlost
    · next r htick =>
      rw [htick] at hlost
      by_contra hfound
      simp [hfound] at hlost
  | drain puller => cases puller <;> grind [perform]
  | _ => grind [perform]

/-- What a move makes of a session. -/
inductive Becomes (s : Session F) : Move F → Session F → Prop where
  | start (t : Text) : s.Becomes (.start t) { s with reveal := s.reveal.start t }
  | setSpeed (speed : F) : s.Becomes (.setSpeed speed) { s with reveal := { s.reveal with speed } }
  | tick {dt : F} {r : Reveal F} (htick : s.reveal.tick? dt = some r) :
      s.Becomes (.tick dt) { s with reveal := r }
  | skip : s.Becomes .skip { s with reveal := s.reveal.skip }
  | newPuller : s.Becomes .newPuller { s with pullers := s.pullers ++ [.fresh] }
  /-- The puller at a place is pulled, once or until it is over. -/
  | pulled {m : Move F} {number : Int} {place : Nat} {p : Puller}
      (hp : s.puller? number = some (place, p)) (hm : m = .pull number ∨ m = .drain (some number))
      (n : Nat) :
      s.Becomes m ⟨(pullAtMost (n + 1) p s.reveal).2.2,
        s.pullers.set place (pullAtMost (n + 1) p s.reveal).2.1⟩
  /-- A puller is made and pulled that nobody keeps. -/
  | drained (n : Nat) :
      s.Becomes (.drain none) { s with reveal := (pullAtMost n .fresh s.reveal).2.2 }
  /-- The move is refused, or asks for something only. -/
  | idle {m : Move F} (hm : m.Continues) : s.Becomes m s

theorem becomes_after (s : Session F) (m : Move F) : s.Becomes m (s.after m) := by
  rw [after]
  cases m with
  | start t => exact .start t
  | setSpeed speed => exact .setSpeed speed
  | tick dt =>
    rw [perform]
    split
    · exact .idle trivial
    · next htick => exact .tick htick
  | skip => exact .skip
  | secondsPerChar =>
    rw [perform]
    split <;> exact .idle trivial
  | newPuller => exact .newPuller
  | pull number =>
    rw [perform]
    split
    · exact .idle trivial
    · next place p hp =>
      simp only [pull_snd]
      exact .pulled hp (.inl rfl) 0
  | drain puller =>
    cases puller with
    | none =>
      rw [perform, drain]
      exact .drained _
    | some number =>
      rw [perform]
      split
      · exact .idle trivial
      · next hp => exact .pulled hp (.inr rfl) _

/-- A move that begins no text is steps only. -/
theorem onward_after (limit : Nat) [Tempo.Lawful F limit] (hspeed : refuses s.reveal.speed = false)
    (hm : m.Continues) : s.reveal.Onward (s.after m).reveal := by
  have hbecomes := s.becomes_after m
  generalize s.after m = s' at hbecomes ⊢
  cases hbecomes with
  | start | setSpeed => cases hm
  | tick htick => exact .single (step_of_tick? limit hspeed htick)
  | skip => exact .single .finish
  | pulled | drained => exact onward_pullAtMost _ _ s.reveal
  | newPuller | idle => exact .refl

theorem onward_afterAll (limit : Nat) [Tempo.Lawful F limit]
    (hspeed : refuses s.reveal.speed = false) (hms : ∀ m ∈ ms, m.Continues) :
    s.reveal.Onward (s.afterAll ms).reveal := by
  induction ms generalizing s with
  | nil => exact .refl
  | cons m ms ih =>
    rw [List.forall_mem_cons] at hms
    have honward := onward_after limit hspeed hms.1
    refine honward.trans (ih ?_ hms.2)
    rwa [honward.speed_eq]

/-- What is known of a session at any time: its speed was accepted, and its position is in range. -/
structure Sound (limit : Nat) (s : Session F) : Prop where
  speed : refuses s.reveal.speed = false
  length_le : s.reveal.text.length ≤ limit
  inRange : ∃ k, s.reveal.InRange k

/-- What is promised of a session at any time. -/
structure Orderly (limit : Nat) (s : Session F) : Prop where
  /-- The position is in range, and the characters before it are shown. -/
  inRange : ∃ k, s.reveal.InRange k ∧ s.reveal.shown = List.take k s.reveal.text
  /-- No move comes to a position that has no whole part. -/
  answered : ∀ m : Move F, m.FitsIn limit → (s.perform m).1 ≠ .error .lost
  /-- Nothing disappears until another text begins. -/
  forward : ∀ ms : List (Move F), (∀ m ∈ ms, m.Continues) →
    s.reveal.shown <+: (s.afterAll ms).reveal.shown
  /-- Nor is more to come, once the text is complete. -/
  complete : ∀ ms : List (Move F), (∀ m ∈ ms, m.Continues) →
    s.reveal.isComplete = true → (s.afterAll ms).reveal.isComplete = true
  /-- A tick of no time is none. -/
  idle : ∀ dt : F, Tempo.lt Tempo.zero dt = false →
    s.perform (.tick dt) = (.ok (.text (some s.reveal.shown)), s)

section Ordered

variable [Tempo.Ordered F limit]

theorem sound_start {speed : F} (hspeed : refuses speed = false) : (start speed).Sound limit where
  speed := hspeed
  length_le := Nat.zero_le limit
  inRange := ⟨0, inRange_of_position_eq rfl (Nat.zero_le limit)⟩

theorem Sound.after (hs : s.Sound limit) (hm : m.FitsIn limit) : (s.after m).Sound limit := by
  obtain ⟨k, hk⟩ := hs.inRange
  rcases hm.continues_or with hm | ⟨t, rfl, ht⟩
  · have honward := onward_after limit hs.speed hm
    obtain ⟨n, -, hn⟩ := hk.onward hs.length_le honward
    refine ⟨?_, ?_, n, hn⟩
    · rw [honward.speed_eq]
      exact hs.speed
    · rw [honward.text_eq]
      exact hs.length_le
  · exact ⟨hs.speed, ht, 0, inRange_of_position_eq rfl ht⟩

theorem Sound.afterAll (hs : s.Sound limit) (hms : ∀ m ∈ ms, m.FitsIn limit) :
    (s.afterAll ms).Sound limit := by
  induction ms generalizing s with
  | nil => exact hs
  | cons m ms ih =>
    rw [List.forall_mem_cons] at hms
    exact ih (hs.after hms.1) hms.2

theorem Sound.perform_ne_lost (hs : s.Sound limit) (hm : m.FitsIn limit) :
    (s.perform m).1 ≠ .error .lost := by
  intro hlost
  obtain ⟨k, hk⟩ := (hs.after hm).inRange
  have hfound : (s.perform m).2.reveal.isLost = false := hk.toAt.isLost_eq_false
  rw [isLost_of_perform hlost] at hfound
  cases hfound

theorem Sound.orderly (hs : s.Sound limit) : s.Orderly limit := by
  obtain ⟨k, hk⟩ := hs.inRange
  have honward {ms : List (Move F)} (hms : ∀ m ∈ ms, m.Continues) :
      ∃ n, k ≤ n ∧ (s.afterAll ms).reveal.At n ∧ (s.afterAll ms).reveal.text = s.reveal.text := by
    have h := onward_afterAll limit hs.speed hms
    obtain ⟨n, hkn, hn⟩ := hk.toAt.onward hs.length_le h
    exact ⟨n, hkn, hn, h.text_eq⟩
  refine ⟨⟨k, hk, hk.toAt.shown⟩, fun m hm => hs.perform_ne_lost hm, ?_, ?_, ?_⟩
  · intro ms hms
    obtain ⟨n, hkn, hn, htext⟩ := honward hms
    exact hk.toAt.shown_prefix_of_le hn htext hkn
  · intro ms hms
    obtain ⟨n, hkn, hn, htext⟩ := honward hms
    exact hk.toAt.isComplete_of_le hn htext hkn
  · intro dt hdt
    have htick : s.reveal.tick? dt = some s.reveal := by
      rw [tick?, hdt, Bool.and_false]
      rfl
    simp [perform, htick, hk.toAt.isLost_eq_false]

/-- Every move is answered, and each leaves the position in range. -/
theorem Sound.exists_performAll (hs : s.Sound limit) (hms : ∀ m ∈ ms, m.FitsIn limit) :
    ∃ answers, s.performAll ms = .ok answers ∧ ∀ x ∈ answers, ∃ k, x.2.InRange k := by
  induction ms generalizing s with
  | nil => exact ⟨[], rfl, by simp⟩
  | cons m ms ih =>
    rw [List.forall_mem_cons] at hms
    have hafter := hs.after hms.1
    obtain ⟨k, hk⟩ := hafter.inRange
    obtain ⟨answers, hanswers, hrange⟩ := ih hafter hms.2
    refine ⟨((s.perform m).1, (s.after m).reveal) :: answers, ?_, ?_⟩
    · have hfound : (s.perform m).2.reveal.isLost = false := hk.toAt.isLost_eq_false
      rw [Session.after] at hanswers
      rw [performAll]
      simp [hfound, hanswers, Session.after]
    · rw [List.forall_mem_cons]
      exact ⟨⟨k, hk⟩, hrange⟩

/-- **A reveal stays within its text and moves forward only.** -/
theorem orderly_run {speed : F} (hspeed : refuses speed = false)
    (hms : ∀ m ∈ ms, m.FitsIn limit) :
    ((start speed).afterAll ms).Orderly limit ∧
      ∃ answers, (start speed).performAll ms = .ok answers ∧
        ∀ x ∈ answers, ∃ k, x.2.InRange k :=
  ⟨((sound_start hspeed).afterAll hms).orderly, (sound_start hspeed).exists_performAll hms⟩

end Ordered

/-- A greeting told at a speed that is no number, by times that do not pass and one that does. -/
def greeting : List (Move Extended) :=
  [.start "Hello".toList, .newPuller, .tick .undefined, .pull 0, .tick (.infinite true), .pull 0,
    .tick (.finite 1)]

/-- Two characters are pulled. The only time that passes makes a sum that is no number, which
completes the text. -/
theorem orderly_run_greeting :
    ((start Extended.undefined).afterAll greeting).Orderly 5 ∧
      ((start Extended.undefined).afterAll (greeting.take 6)).reveal.shown = "He".toList ∧
      ((start Extended.undefined).afterAll greeting).reveal.shown = "Hello".toList :=
  have hfits : ∀ m ∈ greeting, m.FitsIn 5 := by simp [greeting, Move.FitsIn, Move.Continues]
  ⟨(orderly_run rfl hfits).1, by decide, by decide⟩

end Session

end Parley.Reveal
