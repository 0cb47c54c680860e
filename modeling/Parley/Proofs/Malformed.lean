import Parley.Proofs.Readable

/-!
# Malformed expressions

A malformed atom counts as one that does not hold, and a malformed change does nothing. Whether an
expression can be read at all is a question of its own: this is about evaluations that come to an
answer, and they may do so in spite of a number that is too long, if they stop before it.

Rejecting a condition takes one malformed atom, but making it fail takes one in each alternative. A
condition of the second kind is hopeless.

## Main definitions

* `Change.meaning?` — the change an expression spells, if it spells one
* `Condition.isHopeless`

## Main results

* `Condition.value_eq_of_holds`, `Change.applyAll_of_ok` — the answers of evaluation
* `Condition.value_of_isHopeless` — no store helps
-/

namespace Parley

/-! ### Conditions -/

namespace Condition

variable {s : Store} {b : Bool} {atom t : Text} {as : List Text} {gs : List (List Text)}

theorem atomValue_eq_of_atomHolds (h : atomHolds s atom = .ok b) : atomValue s atom = b := by
  rw [atomHolds] at h
  rw [atomValue]
  rcases hread : Comparison.read atom with e | _ | c
  · simp [hread] at h
  · simpa [hread] using h
  · simpa [hread] using h

theorem all_eq_of_allHold (h : allHold s as = .ok b) : as.all (atomValue s) = b := by
  induction as with
  | nil => exact Except.ok.inj h
  | cons a as ih =>
    rw [allHold] at h
    rw [List.all_cons]
    rcases hatom : atomHolds s a with e | _ | _
    · simp [hatom] at h
    · rw [atomValue_eq_of_atomHolds hatom]
      simpa [hatom] using h
    · rw [atomValue_eq_of_atomHolds hatom]
      exact ih (by simpa [hatom] using h)

theorem any_eq_of_anyHold (h : anyHold s gs = .ok b) :
    (gs.any fun g => g.all (atomValue s)) = b := by
  induction gs with
  | nil => exact Except.ok.inj h
  | cons g gs ih =>
    rw [anyHold] at h
    rw [List.any_cons]
    rcases hgroup : allHold s g with e | _ | _
    · simp [hgroup] at h
    · rw [all_eq_of_allHold hgroup]
      exact ih (by simpa [hgroup] using h)
    · rw [all_eq_of_allHold hgroup]
      simpa [hgroup] using h

/-- **An evaluation that comes to an answer gives the Boolean reading**, in which malformed atoms do
not hold. -/
theorem value_eq_of_holds {c : Option Text} (h : holds s c = .ok b) : value s c = b := by
  rcases c with _ | t
  · exact Except.ok.inj h
  · rw [holds] at h
    rw [value]
    cases hblank : t.isAllBlank with
    | true => simpa [hblank] using h
    | false => exact any_eq_of_anyHold (by simpa [hblank] using h)

theorem atomValue_eq_true_iff :
    atomValue s atom = true ↔ ∃ c, Comparison.read atom = .ok (some c) ∧ c.holds s = true := by
  rw [atomValue]
  rcases Comparison.read atom with e | _ | c <;> simp

/-- A condition that is not blank holds by an alternative all of whose atoms are comparisons that
hold. -/
theorem value_eq_true_iff (hblank : t.isAllBlank = false) :
    value s (some t) = true ↔
      ∃ g ∈ groups t, ∀ atom ∈ g,
        ∃ c, Comparison.read atom = .ok (some c) ∧ c.holds s = true := by
  simp only [value, hblank, Bool.false_or, List.any_eq_true, List.all_eq_true,
    atomValue_eq_true_iff]

/-- Blank conditions are never rejected. -/
theorem isAllBlank_of_isValid (h : isValid (some t) = .ok false) : t.isAllBlank = false := by
  rw [isValid] at h
  split at h
  · cases h
  · next hblank => exact Bool.eq_false_iff.mpr hblank

/-- Whether every alternative has a malformed atom. -/
def isHopeless (t : Text) : Bool := (groups t).all fun g => g.any isMalformed

theorem atomValue_of_isMalformed (s : Store) (h : isMalformed atom = true) :
    atomValue s atom = false := by
  rw [isMalformed] at h
  rw [atomValue]
  rcases hread : Comparison.read atom with e | _ | c
  · rfl
  · rfl
  · simp [hread] at h

/-- **No store helps a hopeless condition.** -/
theorem value_of_isHopeless (s : Store) (hblank : t.isAllBlank = false)
    (h : isHopeless t = true) : value s (some t) = false := by
  rw [value, hblank, Bool.false_or, List.any_eq_false]
  intro g hg hall
  obtain ⟨atom, hatom, hmalformed⟩ := List.any_eq_true.mp (List.all_eq_true.mp h g hg)
  have hholds := List.all_eq_true.mp hall atom hatom
  rw [atomValue_of_isMalformed s hmalformed] at hholds
  cases hholds

end Condition

/-! ### Changes -/

namespace Change

/-- The change an expression spells, if it is well formed. -/
def meaning? (t : Text) : Option Change :=
  match read t with
  | .ok c => c
  | .error _ => none

/-- **Applying that comes to an end does what the well-formed changes do, in order**, and counts
them. -/
theorem applyAll_of_ok {es : List Text} {s : Store} {n : Nat} (h : (applyAll es s).2 = .ok n) :
    (applyAll es s).1 = (es.filterMap meaning?).foldl apply s ∧
      n = (es.filterMap meaning?).length := by
  induction es generalizing s n with
  | nil => exact ⟨rfl, (Except.ok.inj h).symm⟩
  | cons e es ih =>
    rw [applyAll] at h ⊢
    rw [List.filterMap_cons, meaning?]
    rcases hread : read e with o | _ | c
    · simp [hread] at h
    · simp only [hread] at h ⊢
      exact ih h
    · simp only [hread] at h ⊢
      rcases hrest : (applyAll es (c.apply s)).2 with o | k
      · simp [hrest, Except.map] at h
      · obtain ⟨hstore, hcount⟩ := ih hrest
        refine ⟨hstore, ?_⟩
        rw [hrest] at h
        rw [List.length_cons, ← hcount]
        exact (Except.ok.inj h).symm

end Change

end Parley
