import Mathlib.Tactic.MkIffOfInductiveProp
import Parley.Condition.Basic
import Parley.Proofs.Text.Pairs
import Parley.Proofs.Text.Strip
import Parley.Remark
import Parley.Story

/-!
# Readable expressions

Reading an expression fails for one reason only: it has three words and the last of them is a
number with more than `maxDigits` digits. An expression without that defect is readable, well
formed or not, and everything that is decided by expressions is then decided.

For readable conditions the evaluation order no longer shows. Short-circuit evaluation, which stops
at the first atom that decides, agrees with the Boolean reading of the text: some alternative has
only atoms that hold.

The check of the syntax, on the other hand, looks at everything. An expression that passes it is
readable, and whoever evaluates or applies it meets nothing malformed.

## Main definitions

* `Text.hasOverlongValue`, `Condition.Readable`, `Story.Readable`
* `Condition.value`, `Condition.wellFormed` — the Boolean reading of a condition
* `Change.accepted` — how many changes of a list are well formed

## Main results

* `Condition.holds_of_readable`, `Change.applyAll_of_readable`
* `Condition.isValid_eq_ok_true_iff`, `Change.isValid_eq_ok_true_iff`
* `Condition.remarks_of_isValid`, `Change.remarks_of_isChange`
-/

namespace Parley

/-! ### What cannot be read -/

/-- Whether a text is a number with too many digits. -/
def Literal.isOverlong (t : Text) : Bool :=
  match Literal.numeral? t with
  | some (_, ds) => decide (maxDigits < ds.length)
  | none => false

/-- Whether an expression has three words, the last of them a number with too many digits. -/
def Text.hasOverlongValue (t : Text) : Bool :=
  match t.words with
  | [_, _, value] => Literal.isOverlong value
  | _ => false

theorem Literal.exists_read_eq_ok_iff {t : Text} :
    (∃ l, Literal.read t = .ok l) ↔ Literal.isOverlong t = false := by
  rw [Literal.read, Literal.isOverlong]
  rcases Literal.numeral? t with _ | ⟨negative, ds⟩
  · simp
  · by_cases h : ds.length ≤ maxDigits
    · simp [h]
    · simp [h, Nat.lt_of_not_le h]

theorem Comparison.exists_read_eq_ok_iff {t : Text} :
    (∃ c, Comparison.read t = .ok c) ↔ t.hasOverlongValue = false := by
  rw [Comparison.read, Text.hasOverlongValue]
  rcases t.words with _ | ⟨name, _ | ⟨relation, _ | ⟨value, _ | ⟨w, ws⟩⟩⟩⟩
  · simp
  · simp
  · simp
  · simp only [← Literal.exists_read_eq_ok_iff]
    rcases Literal.read value with e | _ | l <;> simp
  · simp

theorem Change.exists_read_eq_ok_iff {t : Text} :
    (∃ c, Change.read t = .ok c) ↔ t.hasOverlongValue = false := by
  rw [Change.read, Text.hasOverlongValue]
  rcases t.words with _ | ⟨name, _ | ⟨operation, _ | ⟨value, _ | ⟨w, ws⟩⟩⟩⟩
  · simp
  · simp
  · simp
  · simp only [← Literal.exists_read_eq_ok_iff]
    rcases Literal.read value with e | _ | l <;> simp
  · simp

/-! ### Conditions -/

namespace Condition

variable {s : Store} {c : Option Text} {as : List Text} {gs : List (List Text)}

/-- No atom of the condition has an overlong value. -/
def Readable (c : Option Text) : Prop :=
  ∀ t ∈ c, ∀ atom ∈ (groups t).flatten, atom.hasOverlongValue = false

instance (c : Option Text) : Decidable (Readable c) :=
  inferInstanceAs (Decidable (∀ t ∈ c, ∀ atom ∈ (groups t).flatten, atom.hasOverlongValue = false))

/-- Whether an atom is a comparison. -/
def isComparison (atom : Text) : Bool :=
  match Comparison.read atom with
  | .ok (some _) => true
  | _ => false

/-- Whether an atom is a comparison that holds. -/
def atomValue (s : Store) (atom : Text) : Bool :=
  match Comparison.read atom with
  | .ok (some c) => c.holds s
  | _ => false

/-- Whether some alternative has only atoms that hold. -/
def value (s : Store) : Option Text → Bool
  | none => true
  | some t => t.isAllBlank || (groups t).any fun g => g.all (atomValue s)

/-- Whether all atoms of all alternatives are comparisons. -/
def wellFormed : Option Text → Bool
  | none => true
  | some t => t.isAllBlank || (groups t).flatten.all isComparison

theorem readable_none : Readable none := by simp [Readable]

theorem atomHolds_of_readable {atom : Text} (h : atom.hasOverlongValue = false) :
    atomHolds s atom = .ok (atomValue s atom) := by
  obtain ⟨c, hc⟩ := Comparison.exists_read_eq_ok_iff.mpr h
  rw [atomHolds, atomValue, hc]
  cases c <;> rfl

theorem allHold_of_readable (h : ∀ atom ∈ as, atom.hasOverlongValue = false) :
    allHold s as = .ok (as.all (atomValue s)) := by
  induction as with
  | nil => rfl
  | cons a as ih =>
    rw [allHold, atomHolds_of_readable (h a List.mem_cons_self), List.all_cons]
    cases atomValue s a
    · rfl
    · exact ih fun b hb => h b (List.mem_cons_of_mem _ hb)

theorem anyHold_of_readable (h : ∀ atom ∈ gs.flatten, atom.hasOverlongValue = false) :
    anyHold s gs = .ok (gs.any fun g => g.all (atomValue s)) := by
  induction gs with
  | nil => rfl
  | cons g gs ih =>
    rw [List.flatten_cons] at h
    rw [anyHold, allHold_of_readable fun a ha => h a (List.mem_append_left _ ha), List.any_cons]
    cases g.all (atomValue s)
    · exact ih fun a ha => h a (List.mem_append_right _ ha)
    · rfl

theorem allValid_of_readable (h : ∀ atom ∈ as, atom.hasOverlongValue = false) :
    allValid as = .ok (as.all isComparison) := by
  induction as with
  | nil => rfl
  | cons a as ih =>
    obtain ⟨c, hc⟩ := Comparison.exists_read_eq_ok_iff.mpr (h a List.mem_cons_self)
    rw [allValid, List.all_cons, isComparison, hc]
    cases c
    · rfl
    · exact ih fun b hb => h b (List.mem_cons_of_mem _ hb)

/-- **Evaluation is the Boolean reading.** -/
theorem holds_of_readable (s : Store) (h : Readable c) : holds s c = .ok (value s c) := by
  rcases c with _ | t
  · rfl
  · rw [holds, value, anyHold_of_readable (h t rfl)]
    cases t.isAllBlank <;> rfl

theorem isValid_of_readable (h : Readable c) : isValid c = .ok (wellFormed c) := by
  rcases c with _ | t
  · rfl
  · rw [isValid, wellFormed, allValid_of_readable (h t rfl)]
    cases t.isAllBlank <;> rfl

/-- A blank condition reads as one alternative whose only atom is empty. -/
theorem groups_of_isAllBlank {t : Text} (h : t.isAllBlank = true) : groups t = [[[]]] := by
  have hmem (c : Char) (hc : Parley.isBlank c = false) : c ∉ t := fun hm => by
    rw [Text.isAllBlank, List.all_eq_true] at h
    rw [h c hm] at hc
    exact absurd hc (by decide)
  have hor := Text.splitPair_of_pairFree (b := '|')
    (Text.pairFree_of_not_mem (hmem '|' (by decide)))
  have hand := Text.splitPair_of_pairFree (b := '&')
    (Text.pairFree_of_not_mem (hmem '&' (by decide)))
  rw [groups, hor, List.map_singleton, hand, List.map_singleton, Text.isAllBlank_iff.mp h]

theorem allValid_eq_ok_true_iff : allValid as = .ok true ↔ ∀ a ∈ as, isComparison a = true := by
  induction as with
  | nil => simp [allValid]
  | cons a as ih =>
    rw [allValid, List.forall_mem_cons, isComparison]
    rcases Comparison.read a with e | _ | c
    · simp
    · simp
    · simpa using ih

theorem hasOverlongValue_of_isComparison {atom : Text} (h : isComparison atom = true) :
    atom.hasOverlongValue = false := by
  rw [← Comparison.exists_read_eq_ok_iff]
  rw [isComparison] at h
  split at h
  · next c hc => exact ⟨_, hc⟩
  · cases h

/-- **A condition is valid when it is readable and well formed.** -/
theorem isValid_eq_ok_true_iff : isValid c = .ok true ↔ Readable c ∧ wellFormed c = true := by
  constructor
  · intro h
    have hread : Readable c := by
      rcases c with _ | t
      · exact readable_none
      · intro u hu atom hatom
        obtain rfl : t = u := Option.mem_some_iff.mp hu
        rw [isValid] at h
        split at h
        · next hblank =>
          rw [groups_of_isAllBlank hblank] at hatom
          obtain rfl : atom = [] := by simpa using hatom
          rfl
        · exact hasOverlongValue_of_isComparison (allValid_eq_ok_true_iff.mp h atom hatom)
    rw [isValid_of_readable hread] at h
    exact ⟨hread, Except.ok.inj h⟩
  · rintro ⟨hread, hwell⟩
    rw [isValid_of_readable hread, hwell]

/-- Evaluation looks at atoms of the condition only. -/
theorem mem_metAmong {atom : Text} (h : atom ∈ metAmong s gs) : atom ∈ gs.flatten := by
  have hin (as : List Text) (ha : atom ∈ metIn s as) : atom ∈ as := by
    fun_induction metIn s as <;> simp_all
    rcases ha with rfl | ha <;> simp_all
  fun_induction metAmong s gs with
  | case1 => exact h
  | case2 g gs _ ih =>
    rw [List.flatten_cons]
    rcases List.mem_append.mp h with h | h
    · exact List.mem_append_left _ (hin g h)
    · exact List.mem_append_right _ (ih h)
  | case3 g gs _ => exact List.mem_append_left _ (hin g h)

/-- Evaluating a valid condition meets no malformed atom. -/
theorem remarks_of_isValid (s : Store) (h : isValid c = .ok true) : remarks s c = [] := by
  have hnone (atom : Text) (hatom : atom ∈ met s c) : isMalformed atom = false := by
    rcases c with _ | t
    · cases hatom
    · rw [met] at hatom
      rw [isValid] at h
      split at hatom
      · cases hatom
      · next hblank =>
        rw [if_neg hblank] at h
        have hcomparison := allValid_eq_ok_true_iff.mp h atom (mem_metAmong hatom)
        rw [isComparison] at hcomparison
        rw [isMalformed]
        split at hcomparison
        · next hc => rw [hc]
        · cases hcomparison
  have hfilter : (met s c).filter isMalformed = [] :=
    List.filter_eq_nil_iff.mpr fun atom hatom => by simp [hnone atom hatom]
  rw [remarks, hfilter, List.map_nil]

end Condition

/-! ### Changes -/

namespace Change

variable {es : List Text}

/-- Whether an expression is a change. -/
def isChange (t : Text) : Bool :=
  match Change.read t with
  | .ok (some _) => true
  | _ => false

/-- How many expressions of a list are changes. -/
def accepted (es : List Text) : Nat := es.countP isChange

theorem applyAll_of_readable (s : Store) (h : ∀ e ∈ es, e.hasOverlongValue = false) :
    (applyAll es s).2 = .ok (accepted es) := by
  induction es generalizing s with
  | nil => rfl
  | cons e es ih =>
    have hrest := fun s => ih s fun f hf => h f (List.mem_cons_of_mem _ hf)
    obtain ⟨c, hc⟩ := Change.exists_read_eq_ok_iff.mpr (h e List.mem_cons_self)
    rcases c with _ | c
    · rw [applyAll, hc, accepted, List.countP_cons_of_neg (by simp [isChange, hc])]
      exact hrest s
    · rw [applyAll, hc, accepted, List.countP_cons_of_pos (by simp [isChange, hc])]
      simp only [hrest, Except.map, accepted]

theorem isValid_eq_ok_true_iff {e : Text} : isValid e = .ok true ↔ isChange e = true := by
  rw [isValid, isChange]
  rcases read e with e | _ | c <;> simp

theorem hasOverlongValue_of_isChange {e : Text} (h : isChange e = true) :
    e.hasOverlongValue = false := by
  rw [← Change.exists_read_eq_ok_iff]
  rw [isChange] at h
  split at h
  · next c hc => exact ⟨_, hc⟩
  · cases h

theorem accepted_eq_length (h : ∀ e ∈ es, isChange e = true) : accepted es = es.length :=
  List.countP_eq_length.mpr h

/-- Applying valid changes meets no malformed one. -/
theorem remarks_of_isChange (h : ∀ e ∈ es, isChange e = true) : remarks es = [] := by
  have hignored : ignored es = [] := by
    induction es with
    | nil => rfl
    | cons e es ih =>
      rw [List.forall_mem_cons] at h
      obtain ⟨he, hes⟩ := h
      rw [isChange] at he
      rw [ignored]
      split at he
      · next c hc =>
        rw [hc]
        exact ih hes
      · cases he
  rw [remarks, hignored, List.map_nil]

end Change

/-! ### Stories -/

/-- No expression of the choice has an overlong value. -/
@[mk_iff]
structure Choice.Readable (c : Choice) : Prop where
  condition : Condition.Readable c.condition
  changes : ∀ e ∈ c.changes, e.hasOverlongValue = false

instance (c : Choice) : Decidable c.Readable := decidable_of_iff' _ (Choice.readable_iff c)

/-- No expression of the node or of its choices has an overlong value. -/
@[mk_iff]
structure Node.Readable (n : Node) : Prop where
  condition : Condition.Readable n.condition
  changes : ∀ e ∈ n.changes, e.hasOverlongValue = false
  options : ∀ c ∈ n.options, c.Readable

instance (n : Node) : Decidable n.Readable := decidable_of_iff' _ (Node.readable_iff n)

/-- No expression of the story has an overlong value. -/
def Story.Readable (s : Story) : Prop := ∀ e ∈ s.entries, ∀ n ∈ e.2, n.Readable

instance (s : Story) : Decidable s.Readable :=
  inferInstanceAs (Decidable (∀ e ∈ s.entries, ∀ n ∈ e.2, n.Readable))

end Parley
