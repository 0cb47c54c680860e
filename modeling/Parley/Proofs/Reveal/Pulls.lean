import Parley.Proofs.Reveal.Sessions

/-!
# Character by character

Pullers share the position of their reveal with ticks, with skips and with each other, and a tick
may leave it between two characters. A pull rounds it down before it goes on, so it shows one
character more than was shown, no matter who came there and how. Only a puller of an earlier text,
or one that was told before that nothing is left, does not.

A puller knows the text it belongs to by its generation, and gets to know it when it is first
pulled. So what has to be carried along is that a puller that was not pulled before the text began
is either not pulled yet, or over, or bound to the generation that is current; the bindings of the
other pullers do not matter.

## Main definitions

* `Reveal.Puller.BelongsTo` — a puller has not been pulled for any other text
* `Reveal.beyond` — what is shown, one time after the other, from so many characters on

## Main results

* `Reveal.At.pull_eq_some`, `Reveal.pull_eq_none` — what a pull answers
* `Reveal.At.exists_drain` — what pulling until the end answers
* `Session.pull_between_starts` — both, at any time after a text has begun
-/

namespace Parley.Reveal

variable {F : Type} [Tempo F] {r : Reveal F} {limit k : Nat} {p : Puller}

/-! ### One pull -/

/-- A puller has not been pulled for a text of another generation. -/
def Puller.BelongsTo (generation : Nat) : Puller → Prop
  | .bound g => g = generation
  | .fresh | .over => True

theorem pull_eq_pullFor (hp : p.BelongsTo r.generation) (hover : p ≠ .over) :
    pull p r = pullFor r.generation r := by
  match p, hp with
  | .fresh, _ => rfl
  | .bound generation, hp =>
    obtain rfl : generation = r.generation := hp
    rfl
  | .over, _ => exact absurd rfl hover

/-- There is nothing to pull from a complete text, nor for a puller that is over. -/
theorem pull_eq_none (h : r.isComplete = true ∨ p = .over) : pull p r = (none, .over, r) := by
  rcases h with hcomplete | rfl
  · refine (pull_eq_or p r).resolve_right fun h => ?_
    rw [hcomplete] at h
    cases h.1
  · rfl

/-- **A pull shows one character more.** -/
theorem At.pull_eq_some [Tempo.Exact F limit] (h : r.At k) (hlength : r.text.length ≤ limit)
    (hk : k < r.text.length) (hp : p.BelongsTo r.generation) (hover : p ≠ .over) :
    Reveal.pull p r = (some (List.take (k + 1) r.text), .bound r.generation, r.next) := by
  have hmore : r.isComplete = false := by
    rw [Bool.eq_false_iff, Ne, h.isComplete_iff]
    exact hk.ne
  rw [pull_eq_pullFor hp hover, pullFor, if_pos ⟨rfl, hmore⟩]
  exact congrArg (fun t => (some t, _, _)) (h.next hlength hk).shown

/-! ### Pulling until the end -/

/-- The beginnings of a text that are longer than `k`, the shortest first. -/
def beyond (k : Nat) (t : Text) : List Text :=
  (List.range' (k + 1) (t.length - k)).map (List.take · t)

theorem beyond_of_lt {t : Text} (hk : k < t.length) :
    beyond k t = List.take (k + 1) t :: beyond (k + 1) t := by
  obtain ⟨n, hn⟩ : ∃ n, t.length - k = n + 1 := ⟨t.length - k - 1, by omega⟩
  have hrest : t.length - (k + 1) = n := by omega
  rw [beyond, hn, List.range'_succ, List.map_cons, beyond, hrest]

theorem beyond_length (t : Text) : beyond t.length t = [] := by
  rw [beyond, Nat.sub_self]
  rfl

theorem At.exists_pullAtMost [Tempo.Exact F limit] {n : Nat} (h : r.At k)
    (hlength : r.text.length ≤ limit) (hn : r.text.length - k < n)
    (hp : p.BelongsTo r.generation) (hover : p ≠ .over) :
    ∃ r' : Reveal F, r'.shown = r.text ∧ pullAtMost n p r = (beyond k r.text, .over, r') := by
  induction n generalizing r k p with
  | zero => omega
  | succ n ih =>
    by_cases hk : k = r.text.length
    · have hcomplete : r.isComplete = true := h.isComplete_iff.mpr hk
      refine ⟨r, ?_, ?_⟩
      · rw [h.shown, hk, List.take_length]
      · rw [pullAtMost, pull_eq_none (.inl hcomplete), hk, beyond_length]
    · have hlt : k < r.text.length := lt_of_le_of_ne h.le hk
      -- the puller is bound from now on, and the text and the generation are the same
      obtain ⟨r', hshown, hrest⟩ := ih (r := r.next) (p := .bound r.generation)
        (h.next hlength hlt) hlength (by show r.text.length - (k + 1) < n; omega) rfl (by simp)
      refine ⟨r', hshown, ?_⟩
      rw [pullAtMost, h.pull_eq_some hlength hlt hp hover, beyond_of_lt hlt]
      simp only [hrest]
      rfl

/-- **Pulling until the end shows every longer beginning once, in order.** -/
theorem At.exists_drain [Tempo.Exact F limit] (h : r.At k) (hlength : r.text.length ≤ limit)
    (hp : p.BelongsTo r.generation) (hover : p ≠ .over) :
    ∃ r' : Reveal F, r'.shown = r.text ∧ drain p r = (beyond k r.text, .over, r') := by
  refine h.exists_pullAtMost hlength ?_ hp hover
  rw [h.count_eq]
  omega

/-- Pulled once or more, a puller is bound to the generation that is current, or is over. -/
theorem puller_pullAtMost (n : Nat) (p : Puller) (r : Reveal F) :
    (pullAtMost (n + 1) p r).2.1 = .over ∨
      (pullAtMost (n + 1) p r).2.1 = .bound r.generation := by
  induction n generalizing p r with
  | zero =>
    rw [pullAtMost]
    rcases pull_eq_or p r with h | ⟨-, h⟩ <;> rw [h]
    · exact .inl rfl
    · exact .inr rfl
  | succ n ih =>
    rw [pullAtMost]
    rcases pull_eq_or p r with h | ⟨-, h⟩ <;> rw [h]
    · exact .inl rfl
    · exact ih (.bound r.generation) r.next

theorem belongsTo_pullAtMost (n : Nat) (p : Puller) (r : Reveal F) :
    (pullAtMost (n + 1) p r).2.1.BelongsTo r.generation := by
  rcases puller_pullAtMost n p r with h | h <;> rw [h]
  · trivial
  · rfl

/-! ### Sessions -/

namespace Session

variable {s : Session F} {m : Move F} {ms : List (Move F)} {place : Nat}

/-- The puller at a place has not been pulled for an earlier text, if there is one. -/
def BelongsAt (place : Nat) (s : Session F) : Prop :=
  ∀ p, s.pullers[place]? = some p → p.BelongsTo s.reveal.generation

theorem puller_after {p : Puller} (h : (s.after m).pullers[place]? = some p) :
    s.pullers[place]? = some p ∨ p.BelongsTo s.reveal.generation := by
  have hbecomes := s.becomes_after m
  generalize s.after m = s' at h hbecomes
  cases hbecomes with
  | newPuller =>
    rw [List.getElem?_append] at h
    split at h
    · exact .inl h
    · obtain rfl : p = .fresh := List.mem_singleton.mp (List.mem_of_getElem? h)
      exact .inr trivial
  | @pulled _ _ other q _ _ n =>
    rw [List.getElem?_set] at h
    split at h
    · split at h
      · obtain rfl := Option.some.inj h
        exact .inr (belongsTo_pullAtMost n q s.reveal)
      · cases h
    · exact .inl h
  | _ => exact .inl h

theorem BelongsAt.after (limit : Nat) [Tempo.Lawful F limit]
    (hspeed : refuses s.reveal.speed = false) (hm : m.Continues) (hs : s.BelongsAt place) :
    (s.after m).BelongsAt place := by
  intro p hp
  rw [(onward_after limit hspeed hm).generation_eq]
  exact (puller_after hp).elim (hs p) id

theorem BelongsAt.afterAll (limit : Nat) [Tempo.Lawful F limit]
    (hspeed : refuses s.reveal.speed = false) (hms : ∀ m ∈ ms, m.Continues)
    (hs : s.BelongsAt place) : (s.afterAll ms).BelongsAt place := by
  induction ms generalizing s with
  | nil => exact hs
  | cons m ms ih =>
    rw [List.forall_mem_cons] at hms
    refine ih ?_ hms.2 (hs.after limit hspeed hms.1)
    rwa [(onward_after limit hspeed hms.1).speed_eq]

omit [Tempo F] in
theorem getElem?_of_puller? {number : Int} (h : s.puller? number = some (place, p)) :
    s.pullers[place]? = some p := by
  obtain ⟨i, -, hi⟩ := Option.bind_eq_some_iff.mp h
  obtain ⟨q, hq, heq⟩ := Option.bind_eq_some_iff.mp hi
  obtain ⟨rfl, rfl⟩ := Prod.mk.inj (Option.some.inj heq)
  exact hq

/-- **Every pull shows one character more, until nothing is left.** The puller was not pulled before
the text began, and of what came between nothing matters but how much is shown. -/
theorem pull_between_starts [Tempo.Lawful F limit] {s₀ : Session F} {t : Text} {number : Int}
    (hspeed : refuses s₀.reveal.speed = false) (ht : t.length ≤ limit)
    (hms : ∀ m ∈ ms, m.Continues) (hs : (s₀.after (.start t)).afterAll ms = s)
    (hfirst : ∀ q, s₀.pullers[place]? = some q → q = .fresh)
    (hp : s.puller? number = some (place, p)) (hk : s.reveal.shown.length = k) :
    s.reveal.shown = List.take k t ∧
      (k = t.length ∨ p = .over → s.perform (.pull number) =
        (.ok (.text none), { s with pullers := s.pullers.set place .over })) ∧
      (k < t.length ∧ p ≠ .over → ∃ r : Reveal F, r.shown = List.take (k + 1) t ∧
        s.perform (.pull number) =
          (.ok (.text (some r.shown)), ⟨r, s.pullers.set place (.bound r.generation)⟩)) ∧
      (p ≠ .over → ∃ r : Reveal F, r.shown = t ∧
        s.perform (.drain (some number)) =
          (.ok (.texts (beyond k t)), ⟨r, s.pullers.set place .over⟩)) := by
  have hbelongs : s.BelongsAt place := by
    rw [← hs]
    refine BelongsAt.afterAll limit hspeed hms fun q hq => ?_
    rw [hfirst q hq]
    trivial
  have hbound : p.BelongsTo s.reveal.generation := hbelongs p (getElem?_of_puller? hp)
  have honward : (s₀.reveal.start t).Onward s.reveal := by
    rw [← hs]
    show (s₀.after (.start t)).reveal.Onward _
    exact onward_afterAll limit hspeed hms
  have htext : s.reveal.text = t := honward.text_eq
  have hlength : s.reveal.text.length ≤ limit := htext ▸ ht
  obtain ⟨n, -, hat⟩ := (at_start limit s₀.reveal t).onward ht honward
  obtain rfl : n = k := hat.length_shown.symm.trans hk
  rw [← htext]
  refine ⟨hat.shown, fun hend => ?_, fun ⟨hlt, hover⟩ => ?_, fun hover => ?_⟩
  · rw [perform, hp]
    simp only [pull_eq_none (hend.imp_left hat.isComplete_iff.mpr)]
  · have hshown := (hat.next hlength hlt).shown
    refine ⟨s.reveal.next, hshown, ?_⟩
    rw [perform, hp, hshown]
    simp only [hat.pull_eq_some hlength hlt hbound hover]
    rfl
  · obtain ⟨r, hshown, hdrain⟩ := hat.exists_drain hlength hbound hover
    refine ⟨r, hshown, ?_⟩
    rw [perform, hp]
    simp only [hdrain]

/-- A session with a puller that was pulled for its text. -/
def introduced : Session Rat :=
  (start 4).afterAll [.start "Ada".toList, .newPuller, .pull 0]

/-- Time leaves the position in the middle of the third character. The first of two new pullers goes
on from there, and the old one does not. -/
def interleaved : List (Move Rat) := [.newPuller, .newPuller, .tick (5 / 8), .pull 1, .pull 0]

def greeted : Session Rat := (introduced.after (.start "Hello".toList)).afterAll interleaved

theorem pull_between_starts_greeted :
    greeted.reveal.shown = "Hel".toList ∧
      ∃ r : Reveal Rat, r.shown = "Hello".toList ∧
        greeted.perform (.drain (some 1)) = (.ok (.texts ["Hell".toList, "Hello".toList]),
          ⟨r, greeted.pullers.set 1 .over⟩) := by
  have hspeed : refuses introduced.reveal.speed = false := by decide +kernel
  have hlength : "Hello".toList.length ≤ 5 := by decide
  have hms : ∀ m ∈ interleaved, m.Continues := by simp [interleaved, Move.Continues]
  have hnew : introduced.pullers[1]? = none := by decide +kernel
  have hp : greeted.puller? 1 = some (1, .bound 2) := by decide +kernel
  have hshown : greeted.reveal.shown.length = 3 := by decide +kernel
  obtain ⟨hbeginning, -, -, hdrain⟩ :=
    pull_between_starts hspeed hlength hms rfl (by simp [hnew]) hp hshown
  exact ⟨hbeginning, hdrain (by simp)⟩

end Session

end Parley.Reveal
