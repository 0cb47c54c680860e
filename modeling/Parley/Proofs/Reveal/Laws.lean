import Mathlib.Data.Rat.Floor
import Parley.Reveal.Basic

/-!
# Laws of a reveal

A reveal reckons with the amounts of its host, and little can be said of those in general. Two
things are asked for here. The length of a text, taken as a position, is that many characters; and a
tick does not take a position back. Both are about texts up to a limit, since floats count exactly
only so far. Nothing is asked of a sum that is no number: a tick that comes to one ends the reveal.

Under these laws a position stands for a number of characters, `Reveal.At`, and everything else is
reckoned in those. Whatever a host does with a text, short of beginning another one, comes down to a
few steps, `Reveal.Step`, so that what they keep has to be shown for each of them only.

## Main definitions

* `Tempo.Exact`, `Tempo.Lawful` — the laws
* `Reveal.At` — how many characters a reveal has come to
* `Reveal.Step` — what can become of a reveal in one step

## Main results

* `Reveal.shown_prefix` — what is shown is a beginning of the text, by no law at all
* `Reveal.shown_skip` — skipping shows the whole text
* `Reveal.At.step` — no step takes anything back
* `Reveal.step_of_tick?` — a tick is a step

The rational numbers keep the laws for texts of any length.
-/

namespace Parley

/-- Lengths up to a limit are exact positions. -/
class Tempo.Exact (F : Type) [Tempo F] (limit : Nat) : Prop where
  whole_ofInt (n : Nat) (h : n ≤ limit) : Tempo.whole? (Tempo.ofInt n : F) = some (n : Int)

/-- Positions up to a limit are exact, and time does not take them back. -/
class Tempo.Lawful (F : Type) [Tempo F] (limit : Nat) : Prop extends Tempo.Exact F limit where
  /-- A later position within a text is no fewer characters. -/
  whole_mono {x y : F} {k n : Nat} (hlimit : n ≤ limit) (hle : Tempo.le x y = true)
    (hlt : Tempo.lt y (Tempo.ofInt n) = true) (hx : Tempo.whole? x = some (k : Int)) (hk : k ≤ n) :
    ∃ m : Nat, k ≤ m ∧ m ≤ n ∧ Tempo.whole? y = some (m : Int)
  /-- Adding what an acceptable speed makes of elapsed time is no step back, if the sum can be
  compared. -/
  le_add {speed dt product x y z : F} (hspeed : Tempo.le speed Tempo.zero = false)
    (hdt : Tempo.lt Tempo.zero dt = true) (hmul : Tempo.mul? speed dt = some product)
    (hadd : Tempo.add? x product = some y) (hlt : Tempo.lt y z = true) : Tempo.le x y = true

/-! ### The rational numbers -/

/-- The whole part toward zero. -/
def Tempo.wholePart (x : Rat) : Int := if 0 ≤ x then ⌊x⌋ else ⌈x⌉

theorem Tempo.wholePart_natCast (n : Nat) : wholePart ((n : Int) : Rat) = n := by
  rw [wholePart]
  split <;> simp

theorem Tempo.wholePart_mono {x y : Rat} (h : x ≤ y) : wholePart x ≤ wholePart y := by
  rw [wholePart, wholePart]
  by_cases hx : 0 ≤ x
  · rw [if_pos hx, if_pos (hx.trans h)]
    exact Int.floor_mono h
  · by_cases hy : 0 ≤ y
    · rw [if_neg hx, if_pos hy]
      have hceil : ⌈x⌉ ≤ 0 := Int.ceil_le.mpr (by simpa using (not_le.mp hx).le)
      exact hceil.trans (Int.floor_nonneg.mpr hy)
    · rw [if_neg hx, if_neg hy]
      exact Int.ceil_mono h

instance : Tempo Rat where
  ofInt n := n
  whole? x := some (Tempo.wholePart x)
  add? x y := some (x + y)
  mul? x y := some (x * y)
  inv? x := if x = 0 then none else some x⁻¹
  lt x y := decide (x < y)
  le x y := decide (x ≤ y)

instance (limit : Nat) : Tempo.Lawful Rat limit where
  whole_ofInt n _ := congrArg some (Tempo.wholePart_natCast n)
  whole_mono {x y k n} _ hle hlt hx hk := by
    have hxy := Tempo.wholePart_mono (of_decide_eq_true hle)
    have hyn : Tempo.wholePart y ≤ n :=
      (Tempo.wholePart_mono (of_decide_eq_true hlt).le).trans_eq (Tempo.wholePart_natCast n)
    rw [Option.some.inj hx] at hxy
    refine ⟨(Tempo.wholePart y).toNat, by omega, by omega, ?_⟩
    show some (Tempo.wholePart y) = some ((Tempo.wholePart y).toNat : Int)
    rw [Int.toNat_of_nonneg (by omega)]
  le_add {speed dt product x y z} hspeed hdt hmul hadd _ := by
    have hpositive : 0 < speed := not_le.mp (of_decide_eq_false hspeed)
    have helapsed : 0 < dt := of_decide_eq_true hdt
    obtain rfl := Option.some.inj hmul
    obtain rfl := Option.some.inj hadd
    exact decide_eq_true (le_add_of_nonneg_right (mul_pos hpositive helapsed).le)

/-! ### Characters -/

theorem Text.take_prefix (k : Int) (t : Text) : Text.take k t <+: t := by
  cases k <;> exact List.take_prefix _ _

variable {F : Type} [Tempo F] {r r' : Reveal F} {limit k : Nat} {dt : F}

namespace Reveal

/-- What is shown is a beginning of the text. -/
theorem shown_prefix (r : Reveal F) : r.shown <+: r.text := Text.take_prefix _ _

@[simp] theorem skip_text (r : Reveal F) : r.skip.text = r.text := rfl

theorem tick?_text_speed (h : r.tick? dt = some r') : r'.text = r.text ∧ r'.speed = r.speed := by
  rw [tick?] at h
  split at h
  · obtain ⟨position, -, rfl⟩ := Option.map_eq_some_iff.mp h
    exact ⟨rfl, rfl⟩
  · obtain rfl := Option.some.inj h
    exact ⟨rfl, rfl⟩

/-- The reveal has come to so many characters of its text. -/
structure At (r : Reveal F) (k : Nat) : Prop where
  whole : (Tempo.whole? r.position : Option Int) = some (k : Int)
  le : k ≤ r.text.length

theorem At.count_eq (h : r.At k) : r.count = k := by
  rw [count, h.whole, Option.getD_some]

theorem At.shown (h : r.At k) : r.shown = List.take k r.text := by
  rw [Reveal.shown, h.count_eq]
  rfl

theorem At.length_shown (h : r.At k) : r.shown.length = k := by
  rw [h.shown, List.length_take]
  exact Nat.min_eq_left h.le

theorem At.isComplete_iff (h : r.At k) : r.isComplete = true ↔ k = r.text.length := by
  have hle := h.le
  rw [isComplete, h.count_eq, decide_eq_true_iff]
  omega

theorem at_of_position_eq (limit : Nat) [Tempo.Exact F limit] (h : r.position = Tempo.zero) :
    r.At 0 := by
  refine ⟨?_, Nat.zero_le _⟩
  rw [h]
  exact Tempo.Exact.whole_ofInt 0 (Nat.zero_le limit)

/-- A text begins with nothing shown. -/
theorem at_start (limit : Nat) [Tempo.Exact F limit] (r : Reveal F) (t : Text) : (r.start t).At 0 :=
  at_of_position_eq limit rfl

section Exact

variable [Tempo.Exact F limit]

/-- The position at the end of a text is that of all its characters. -/
theorem at_skip (h : r.text.length ≤ limit) : r.skip.At r.text.length :=
  ⟨Tempo.Exact.whole_ofInt r.text.length h, le_rfl⟩

theorem shown_skip (h : r.text.length ≤ limit) : r.skip.shown = r.text := by
  rw [(at_skip h).shown, skip_text, List.take_length]

end Exact

/-! ### Steps -/

/-- The reveal with one character more. -/
def next (r : Reveal F) : Reveal F := { r with position := Tempo.ofInt (r.count + 1) }

/-- What can become of a reveal in one step, as long as its text and its speed stay the same. -/
inductive Step (r : Reveal F) : Reveal F → Prop where
  | stay : Step r r
  | finish : Step r r.skip
  | pull (hmore : r.isComplete = false) : Step r r.next
  /-- Time takes the position further, but not to the end. -/
  | forward {position : F} (hle : Tempo.le r.position position = true)
      (hlt : Tempo.lt position r.endPosition = true) : Step r { r with position }

theorem Step.text_eq (h : r.Step r') : r'.text = r.text := by
  cases h <;> rfl

theorem Step.speed_eq (h : r.Step r') : r'.speed = r.speed := by
  cases h <;> rfl

theorem Step.generation_eq (h : r.Step r') : r'.generation = r.generation := by
  cases h <;> rfl

theorem At.next [Tempo.Exact F limit] (h : r.At k) (hlength : r.text.length ≤ limit)
    (hk : k < r.text.length) : r.next.At (k + 1) := by
  refine ⟨?_, hk⟩
  show (Tempo.whole? (Tempo.ofInt (r.count + 1) : F) : Option Int) = some ((k + 1 : Nat) : Int)
  rw [h.count_eq]
  exact Tempo.Exact.whole_ofInt (k + 1) (hk.trans_le hlength)

theorem At.lt_of_not_isComplete (h : r.At k) (hmore : r.isComplete = false) :
    k < r.text.length := by
  refine lt_of_le_of_ne h.le fun hk => ?_
  rw [h.isComplete_iff.mpr hk] at hmore
  cases hmore

/-- **A step takes nothing back.** -/
theorem At.step [Tempo.Lawful F limit] (h : r.At k) (hlength : r.text.length ≤ limit)
    (hstep : r.Step r') : ∃ m, k ≤ m ∧ r'.At m := by
  cases hstep with
  | stay => exact ⟨k, le_rfl, h⟩
  | finish => exact ⟨r.text.length, h.le, at_skip hlength⟩
  | pull hmore => exact ⟨k + 1, k.le_succ, h.next hlength (h.lt_of_not_isComplete hmore)⟩
  | forward hle hlt =>
    obtain ⟨m, hkm, hm, hwhole⟩ := Tempo.Lawful.whole_mono hlength hle hlt h.whole h.le
    exact ⟨m, hkm, hwhole, hm⟩

/-- A tick is a step: an acceptable speed does not take the position back. -/
theorem step_of_tick? (limit : Nat) [Tempo.Lawful F limit] (hspeed : refuses r.speed = false)
    (htick : r.tick? dt = some r') : r.Step r' := by
  rw [tick?] at htick
  split at htick
  · next hmoves =>
    rw [Bool.and_eq_true] at hmoves
    obtain ⟨position, hposition, rfl⟩ := Option.map_eq_some_iff.mp htick
    obtain ⟨product, hmul, hadd⟩ := Option.bind_eq_some_iff.mp hposition
    cases hlt : Tempo.lt position r.endPosition
    · -- the end is reached, or the sum is no number
      have hend : r.moveTo position = r.skip := by simp [moveTo, skip, hlt]
      exact hend ▸ .finish
    · have hforward : r.moveTo position = { r with position } := by simp [moveTo, hlt]
      exact hforward ▸ .forward (Tempo.Lawful.le_add limit hspeed hmoves.2 hmul hadd hlt) hlt
  · obtain rfl := Option.some.inj htick
    exact .stay

/-- **A tick takes nothing back.** -/
theorem At.tick [Tempo.Lawful F limit] (h : r.At k) (hlength : r.text.length ≤ limit)
    (hspeed : refuses r.speed = false) (htick : r.tick? dt = some r') :
    ∃ m, k ≤ m ∧ r'.At m :=
  h.step hlength (step_of_tick? limit hspeed htick)

end Reveal

end Parley
