import Parley.Proofs.Reveal.Laws

/-!
# Positions in order

The laws of a reveal say how many characters a position stands for, and no more. Where a position
lies between zero and the end of a text is a matter of comparisons, and these are to agree with the
whole parts: the order goes from position to position, as it does for whole numbers, and the whole
part of what is not negative rounds it down.

Hosts have infinite times and speeds, and some that are no number at all. The obvious model of this,
a linear order with two ends, has no place for the last: it is neither before nor after anything,
itself included, so no law here says that a position is at most itself. `Extended` has all of them.

## Main definitions

* `Tempo.Ordered` — the laws of the order
* `Extended` — the rational numbers, two infinite ones, and what is no number

Both the rational numbers and `Extended` keep the laws for texts of any length.
-/

namespace Parley

/-- Positions up to a limit are in order, and their whole parts round them down. -/
class Tempo.Ordered (F : Type) [Tempo F] (limit : Nat) : Prop extends Tempo.Lawful F limit where
  le_trans {x y z : F} (hxy : Tempo.le x y = true) (hyz : Tempo.le y z = true) :
    Tempo.le x z = true
  le_of_lt {x y : F} (h : Tempo.lt x y = true) : Tempo.le x y = true
  ofInt_le_ofInt {m n : Nat} (hmn : m ≤ n) (hn : n ≤ limit) :
    Tempo.le (Tempo.ofInt m : F) (Tempo.ofInt n) = true
  ofInt_le_of_whole {x : F} {k : Nat} (hzero : Tempo.le Tempo.zero x = true)
    (hwhole : Tempo.whole? x = some (k : Int)) (hk : k ≤ limit) :
    Tempo.le (Tempo.ofInt k) x = true
  lt_of_whole {x : F} {k : Nat} (hwhole : Tempo.whole? x = some (k : Int)) (hk : k < limit) :
    Tempo.lt x (Tempo.ofInt (k + 1)) = true

theorem Tempo.le_of_wholePart_eq {x : Rat} {k : Nat} (hzero : 0 ≤ x)
    (hwhole : wholePart x = k) : (k : Rat) ≤ x := by
  rw [wholePart, if_pos hzero] at hwhole
  exact_mod_cast Int.le_floor.mp hwhole.ge

theorem Tempo.lt_of_wholePart_eq {x : Rat} {k : Nat} (hwhole : wholePart x = k) :
    x < ((k + 1 : Int) : Rat) := by
  rw [← hwhole, wholePart]
  push_cast
  split
  · exact Int.lt_floor_add_one x
  · exact (Int.le_ceil x).trans_lt (lt_add_one _)

instance (limit : Nat) : Tempo.Ordered Rat limit where
  le_trans hxy hyz := decide_eq_true ((of_decide_eq_true hxy).trans (of_decide_eq_true hyz))
  le_of_lt h := decide_eq_true (of_decide_eq_true h).le
  ofInt_le_ofInt hmn _ := decide_eq_true (Int.cast_le.mpr (Int.ofNat_le.mpr hmn))
  ofInt_le_of_whole hzero hwhole _ :=
    decide_eq_true (Tempo.le_of_wholePart_eq (of_decide_eq_true hzero) (Option.some.inj hwhole))
  lt_of_whole hwhole _ := decide_eq_true (Tempo.lt_of_wholePart_eq (Option.some.inj hwhole))

/-! ### Infinite amounts -/

/-- A number, one that is infinitely large or small, or none at all. -/
inductive Extended where
  | finite (x : Rat)
  | infinite (negative : Bool)
  | undefined
  deriving DecidableEq

namespace Extended

/-- Infinite numbers of opposite signs have no sum. -/
def add : Extended → Extended → Extended
  | finite x, finite y => finite (x + y)
  | infinite a, finite _ => infinite a
  | finite _, infinite b => infinite b
  | infinite a, infinite b => if a = b then infinite a else undefined
  | _, _ => undefined

/-- An infinite number of times zero is none. -/
def scale (negative : Bool) (y : Rat) : Extended :=
  if y = 0 then undefined else infinite (negative != decide (y < 0))

def mul : Extended → Extended → Extended
  | finite x, finite y => finite (x * y)
  | infinite a, finite y => scale a y
  | finite x, infinite b => scale b x
  | infinite a, infinite b => infinite (a != b)
  | _, _ => undefined

/-- What is no number is not before anything, and nothing is before it. -/
def lt : Extended → Extended → Bool
  | finite x, finite y => Tempo.lt x y
  | infinite a, finite _ => a
  | finite _, infinite b => !b
  | infinite a, infinite b => a && !b
  | _, _ => false

def le : Extended → Extended → Bool
  | finite x, finite y => Tempo.le x y
  | infinite a, finite _ => a
  | finite _, infinite b => !b
  | infinite a, infinite b => a || !b
  | _, _ => false

/-- Infinite numbers have no whole part, and no more has what is none. -/
def whole? : Extended → Option Int
  | finite x => Tempo.whole? x
  | _ => none

/-- One divided by it. -/
def inv? : Extended → Option Extended
  | finite x => (Tempo.inv? x).map finite
  | infinite _ => some (finite 0)
  | undefined => some undefined

instance : Tempo Extended where
  ofInt n := finite n
  whole? := whole?
  add? x y := some (x.add y)
  mul? x y := some (x.mul y)
  inv? := inv?
  lt := lt
  le := le

theorem exists_finite_of_whole? {x : Extended} {k : Int} (h : Tempo.whole? x = some k) :
    ∃ q : Rat, x = finite q ∧ Tempo.whole? q = some k := by
  cases x with
  | finite q => exact ⟨q, rfl, h⟩
  | infinite negative => cases h
  | undefined => cases h

/-- Between two numbers there are numbers only. -/
theorem exists_finite_of_le_of_lt {q : Rat} {y : Extended} {n : Int}
    (hle : Tempo.le (finite q) y = true) (hlt : Tempo.lt y (Tempo.ofInt n) = true) :
    ∃ p : Rat, y = finite p := by
  cases y with
  | finite p => exact ⟨p, rfl⟩
  | infinite negative =>
    cases negative with
    | false => cases hlt
    | true => cases hle
  | undefined => cases hlt

theorem lt_infinite_false (z : Extended) : lt (infinite false) z = false := by
  cases z <;> rfl

theorem lt_undefined (z : Extended) : lt undefined z = false := by
  cases z <;> rfl

theorem le_infinite_self (negative : Bool) : le (infinite negative) (infinite negative) = true := by
  cases negative <;> rfl

theorem scale_of_pos {y : Rat} (h : 0 < y) : scale false y = infinite false := by
  rw [scale, if_neg h.ne', decide_eq_false h.not_gt]
  rfl

/-- What an acceptable speed makes of elapsed time is not negative, unless it is no number. -/
theorem zero_le_mul {speed dt : Extended} (hspeed : le speed (finite 0) = false)
    (hdt : lt (finite 0) dt = true) :
    le (finite 0) (speed.mul dt) = true ∨ speed.mul dt = undefined := by
  cases speed with
  | finite v =>
    have hv : 0 < v := not_le.mp (of_decide_eq_false hspeed)
    cases dt with
    | finite d => exact .inl (decide_eq_true (mul_pos hv (of_decide_eq_true hdt)).le)
    | infinite b =>
      obtain rfl : b = false := by simpa [lt] using hdt
      exact .inl (congrArg (le (finite 0)) (scale_of_pos hv))
    | undefined => exact .inr rfl
  | infinite a =>
    obtain rfl : a = false := hspeed
    cases dt with
    | finite d => exact .inl (congrArg (le (finite 0)) (scale_of_pos (of_decide_eq_true hdt)))
    | infinite b =>
      obtain rfl : b = false := by simpa [lt] using hdt
      exact .inl rfl
    | undefined => exact .inr rfl
  | undefined => exact .inr rfl

/-- A sum is not before its first part, unless the second is negative; if it is before something,
it is a number or infinitely small, and can be compared. -/
theorem le_add_of_lt {x p z : Extended} (hp : le (finite 0) p = true ∨ p = undefined)
    (hlt : lt (x.add p) z = true) : le x (x.add p) = true := by
  cases x with
  | finite q =>
    cases p with
    | finite d =>
      have hd : 0 ≤ d := of_decide_eq_true (hp.resolve_right Extended.noConfusion)
      exact decide_eq_true (le_add_of_nonneg_right hd)
    | infinite b =>
      obtain rfl : b = false := by simpa [le] using hp
      rw [add, lt_infinite_false] at hlt
      cases hlt
    | undefined => cases (lt_undefined z).symm.trans hlt
  | infinite a =>
    cases p with
    | finite d => exact le_infinite_self a
    | infinite b =>
      rw [add] at hlt ⊢
      split
      · exact le_infinite_self a
      · next hab =>
        rw [if_neg hab, lt_undefined] at hlt
        cases hlt
    | undefined => cases (lt_undefined z).symm.trans hlt
  | undefined => cases (lt_undefined z).symm.trans hlt

theorem le_trans {x y z : Extended} (hxy : le x y = true) (hyz : le y z = true) :
    le x z = true := by
  cases x <;> cases y <;> cases z <;> simp_all only [le, Bool.or_eq_true, Bool.not_eq_true',
    reduceCtorEq, or_true, or_false, false_or]
  case finite.finite.finite => exact Tempo.Ordered.le_trans 0 hxy hyz
  case infinite.infinite.infinite =>
    rcases hxy with hx | rfl
    · exact .inl hx
    · exact .inr (hyz.resolve_left Bool.false_ne_true)

theorem le_of_lt {x y : Extended} (h : lt x y = true) : le x y = true := by
  cases x <;> cases y <;> simp_all only [lt, le, Bool.and_eq_true, Bool.true_or, reduceCtorEq]
  case finite.finite => exact Tempo.Ordered.le_of_lt 0 h

instance (limit : Nat) : Tempo.Ordered Extended limit where
  whole_ofInt n h := Tempo.Exact.whole_ofInt (F := Rat) n h
  whole_mono {x y k n} hlimit hle hlt hx hk := by
    obtain ⟨q, rfl, hq⟩ := exists_finite_of_whole? hx
    obtain ⟨p, rfl⟩ := exists_finite_of_le_of_lt hle hlt
    exact Tempo.Lawful.whole_mono (F := Rat) hlimit hle hlt hq hk
  le_add {speed dt product x y z} hspeed hdt hmul hadd hlt := by
    obtain rfl := Option.some.inj hmul
    obtain rfl := Option.some.inj hadd
    exact le_add_of_lt (zero_le_mul hspeed hdt) hlt
  le_trans := le_trans
  le_of_lt := le_of_lt
  ofInt_le_ofInt hmn hn := Tempo.Ordered.ofInt_le_ofInt (F := Rat) hmn hn
  ofInt_le_of_whole hzero hwhole hk := by
    obtain ⟨q, rfl, hq⟩ := exists_finite_of_whole? hwhole
    exact Tempo.Ordered.ofInt_le_of_whole (F := Rat) hzero hq hk
  lt_of_whole hwhole hk := by
    obtain ⟨q, rfl, hq⟩ := exists_finite_of_whole? hwhole
    exact Tempo.Ordered.lt_of_whole (F := Rat) hq hk

end Extended

end Parley
