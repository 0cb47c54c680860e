import Mathlib.Algebra.BigOperators.Group.List.Basic
import Mathlib.Algebra.Ring.Int.Defs
import Mathlib.Data.List.DropRight
import Parley.Proofs.Condition.Reads
import Parley.Proofs.Malformed

/-!
# What a list of changes comes to

Changes are applied one after the other, each to the store that the one before has left. What a
variable comes to can be said without the stores in between. A flag has the last truth value that is
assigned to it. A number has the last one that is assigned to it, or else what it had before, with
everything that is added and less everything that is subtracted after that; an unset number counts
from zero once it is changed. Malformed expressions do not matter.

So only the changes of a variable matter to it, in their order, and expressions may change places as
long as no two that change the same variable do. All this is followed from the end of the list,
change by change.

## Main definitions

* `Change.target` — the variable that a change writes
* `Change.total` — what a number comes to
* `Store.SameBindings` — stores that differ at most in the order in which variables were first set

## Main results

* `Change.get?_numbers_foldl_apply`, `Change.get?_flags_foldl_apply` — the closed form
* `Change.sameBindings_foldl_apply` — changes of different variables do not meet
* `Change.bindings_applyAll`
-/

namespace Parley

/-- The same variables are set to the same values, in whatever order they were first set. -/
structure Store.SameBindings (s t : Store) : Prop where
  numbers (name : Text) : s.numbers.get? name = t.numbers.get? name
  flags (name : Text) : s.flags.get? name = t.flags.get? name

namespace Change

/-- The variable that a change writes. -/
def target : Change → Variable
  | assign name _ | add name _ | subtract name _ => .number name
  | flag name _ => .flag name

/-- The variable that an expression changes, none when it is malformed. -/
def target? (t : Text) : Option Variable := (meaning? t).map target

/-- The number that a change assigns to a name. -/
def assigned? (name : Text) : Change → Option Int
  | assign name' n => if name' = name then some n else none
  | _ => none

/-- What a change adds to the number of a name. What it subtracts is negative. -/
def gain (name : Text) : Change → Int
  | add name' n => if name' = name then n else 0
  | subtract name' n => if name' = name then -n else 0
  | _ => 0

/-- The truth value that a change assigns to a name. -/
def flagged? (name : Text) : Change → Option Bool
  | flag name' b => if name' = name then some b else none
  | _ => none

/-- The changes after the last one that assigns a number to a name, all if there is none. -/
def sinceAssigned (name : Text) (cs : List Change) : List Change :=
  cs.rtakeWhile fun c => (c.assigned? name).isNone

/-- What a number comes to: the last one assigned, or else the one it was, with all that is gained
after that. -/
def total (name : Text) (initial : Int) (cs : List Change) : Int :=
  (cs.filterMap (assigned? name)).getLast?.getD initial +
    ((sinceAssigned name cs).map (gain name)).sum

variable {name : Text} {initial : Int} {cs cs' : List Change} {c : Change} {s : Store}

/-! ### One change -/

/-- A change that does not write a number neither assigns nor gains. -/
theorem assigned?_and_gain_of_ne (h : c.target ≠ .number name) :
    c.assigned? name = none ∧ c.gain name = 0 := by
  cases c with
  | flag name' b => exact ⟨rfl, rfl⟩
  | assign name' n | add name' n | subtract name' n =>
    have hne : name' ≠ name := fun heq => h (congrArg Variable.number heq)
    simp [assigned?, gain, hne]

theorem flagged?_eq_none_of_ne (h : c.target ≠ .flag name) : c.flagged? name = none := by
  cases c with
  | flag name' b => exact if_neg fun heq => h (congrArg Variable.flag heq)
  | assign | add | subtract => rfl

theorem number_apply (c : Change) (s : Store) (name : Text) :
    (c.apply s).number name 0 = (c.assigned? name).getD (s.number name 0 + c.gain name) := by
  cases c with
  | flag name' b => exact (add_zero _).symm
  | assign name' n | add name' n | subtract name' n =>
    rw [apply, Store.number_setNumber]
    rcases eq_or_ne name' name with rfl | hne
    · simp [assigned?, gain, sub_eq_add_neg]
    · simp [assigned?, gain, hne, hne.symm]

/-- A change sets the number that it writes, and no other. -/
theorem get?_numbers_apply (c : Change) (s : Store) (name : Text) :
    (c.apply s).numbers.get? name =
      if c.target = .number name then some ((c.apply s).number name 0)
      else s.numbers.get? name := by
  cases c with
  | flag name' b => rfl
  | assign name' n | add name' n | subtract name' n =>
    simp only [apply, Store.number, Store.setNumber, Table.getD, Table.get?_put, target,
      Variable.number.injEq]
    rcases eq_or_ne name' name with rfl | hne
    · simp
    · simp [hne, hne.symm]

theorem get?_flags_apply (c : Change) (s : Store) (name : Text) :
    (c.apply s).flags.get? name = (c.flagged? name).or (s.flags.get? name) := by
  cases c with
  | flag name' b =>
    rw [apply, Store.setFlag, Table.get?_put, flagged?]
    rcases eq_or_ne name' name with rfl | hne
    · simp
    · simp [hne, hne.symm]
  | assign | add | subtract => rfl

/-! ### All changes -/

theorem total_concat (cs : List Change) (c : Change) :
    total name initial (cs ++ [c]) =
      (c.assigned? name).getD (total name initial cs + c.gain name) := by
  rw [total, sinceAssigned, List.filterMap_append]
  rcases hassigned : c.assigned? name with _ | n
  · rw [List.rtakeWhile_concat_pos _ _ _ (by simp [hassigned])]
    simp [hassigned, total, sinceAssigned, add_assoc]
  · have hgain : c.gain name = 0 := by
      cases c <;> first | rfl | cases hassigned
    rw [List.rtakeWhile_concat_neg _ _ _ (by simp [hassigned])]
    simp [hassigned]

theorem number_foldl_apply (cs : List Change) (s : Store) (name : Text) :
    (cs.foldl apply s).number name 0 = total name (s.number name 0) cs := by
  induction cs using List.reverseRecOn with
  | nil => simp [total, sinceAssigned]
  | append_singleton cs c ih =>
    rw [List.foldl_append, List.foldl_cons, List.foldl_nil, number_apply, ih, total_concat]

/-- **A number that is changed comes to its total**; any other is what it was, set or unset. -/
theorem get?_numbers_foldl_apply (cs : List Change) (s : Store) (name : Text) :
    (cs.foldl apply s).numbers.get? name =
      if .number name ∈ cs.map target then some (total name (s.number name 0) cs)
      else s.numbers.get? name := by
  induction cs using List.reverseRecOn with
  | nil => rfl
  | append_singleton cs c ih =>
    rw [← number_foldl_apply, List.foldl_append, List.foldl_cons, List.foldl_nil,
      get?_numbers_apply, List.map_append, List.map_singleton]
    by_cases htarget : c.target = .number name
    · simp [htarget]
    · have htotal : (c.apply (cs.foldl apply s)).number name 0 =
          total name (s.number name 0) cs := by
        rw [number_apply, (assigned?_and_gain_of_ne htarget).1,
          (assigned?_and_gain_of_ne htarget).2, number_foldl_apply, Option.getD_none, add_zero]
      simp [htarget, Ne.symm htarget, htotal, ih]

/-- **A flag has the last truth value assigned to it**, if any. -/
theorem get?_flags_foldl_apply (cs : List Change) (s : Store) (name : Text) :
    (cs.foldl apply s).flags.get? name =
      (cs.filterMap (flagged? name)).getLast?.or (s.flags.get? name) := by
  induction cs using List.reverseRecOn with
  | nil => rfl
  | append_singleton cs c ih =>
    rw [List.foldl_append, List.foldl_cons, List.foldl_nil, get?_flags_apply, ih,
      List.filterMap_append]
    rcases hflagged : c.flagged? name with _ | b
    · simp [hflagged]
    · simp [hflagged]

/-! ### Changes of other variables -/

/-- Only the changes of a number matter to its total. -/
theorem total_filter (name : Text) (initial : Int) (cs : List Change) :
    total name initial (cs.filter fun c => c.target = .number name) = total name initial cs := by
  induction cs using List.reverseRecOn with
  | nil => rfl
  | append_singleton cs c ih =>
    rw [List.filter_append, total_concat]
    by_cases htarget : c.target = .number name
    · rw [List.filter_cons_of_pos (by simpa using htarget), List.filter_nil, total_concat, ih]
    · rw [List.filter_cons_of_neg (by simpa using htarget), List.filter_nil, List.append_nil, ih,
        (assigned?_and_gain_of_ne htarget).1, (assigned?_and_gain_of_ne htarget).2,
        Option.getD_none, add_zero]

theorem filterMap_flagged?_filter (name : Text) (cs : List Change) :
    (cs.filter fun c => c.target = .flag name).filterMap (flagged? name) =
      cs.filterMap (flagged? name) := by
  rw [List.filterMap_filter]
  refine List.filterMap_congr fun c _ => ?_
  split
  · rfl
  · next htarget => exact (flagged?_eq_none_of_ne (by simpa using htarget)).symm

theorem mem_map_target_iff {v : Variable} :
    v ∈ cs.map target ↔ (cs.filter fun c => c.target = v) ≠ [] := by
  simp [List.filter_eq_nil_iff]

/-- **Changes of different variables do not meet**: lists with the same changes of each variable, in
the same order, come to the same. -/
theorem sameBindings_foldl_apply
    (h : ∀ v, (cs.filter fun c => c.target = v) = cs'.filter fun c => c.target = v) (s : Store) :
    (cs.foldl apply s).SameBindings (cs'.foldl apply s) where
  numbers name := by
    have htotal (initial : Int) : total name initial cs = total name initial cs' := by
      rw [← total_filter, h, total_filter]
    have hmem : .number name ∈ cs.map target ↔ .number name ∈ cs'.map target := by
      rw [mem_map_target_iff, mem_map_target_iff, h]
    rw [get?_numbers_foldl_apply, get?_numbers_foldl_apply, htotal]
    exact if_congr hmem rfl rfl
  flags name := by
    rw [get?_flags_foldl_apply, get?_flags_foldl_apply, ← filterMap_flagged?_filter, h,
      filterMap_flagged?_filter]

/-- The changes of a variable are spelled by the expressions that change it. -/
theorem filter_filterMap_meaning? (v : Variable) (es : List Text) :
    ((es.filterMap meaning?).filter fun c => c.target = v) =
      (es.filter fun e => target? e = some v).filterMap meaning? := by
  induction es with
  | nil => rfl
  | cons e es ih =>
    rw [List.filterMap_cons, List.filter_cons, target?]
    rcases hmeaning : meaning? e with _ | c
    · simpa using ih
    · by_cases htarget : c.target = v
      · simp [htarget, hmeaning, ih]
      · simp [htarget, ih]

/-! ### Lists of expressions -/

/-- **What a list of expressions comes to.** No number in it is too long; malformed ones may be
there. As many are counted as are valid. A number that none of them changes stays as it was, set or
unset; any other has the last number assigned to it, or else the one it had, `0` if unset, with what
is added and less what is subtracted after that. A flag has the last truth value assigned to it, or
stays as it was. And expressions may be put in any other order that keeps those of each variable in
theirs: that gives the same store and the same count. -/
theorem bindings_applyAll {es : List Text} (h : ∀ e ∈ es, e.hasOverlongValue = false) (s : Store) :
    let cs := es.filterMap meaning?
    let t := (applyAll es s).1
    (applyAll es s).2 = .ok (es.countP fun e => isValid e = .ok true) ∧
      (∀ name, t.numbers.get? name =
        if .number name ∈ cs.map target then some (total name (s.number name 0) cs)
        else s.numbers.get? name) ∧
      (∀ name, t.flags.get? name =
        (cs.filterMap (flagged? name)).getLast?.or (s.flags.get? name)) ∧
      ∀ es' : List Text, es'.Perm es →
        (∀ v, (es'.filter fun e => target? e = some v) = es.filter fun e => target? e = some v) →
          (applyAll es' s).2 = (applyAll es s).2 ∧ (applyAll es' s).1.SameBindings t := by
  intro cs t
  have hcount {es : List Text} (h : ∀ e ∈ es, e.hasOverlongValue = false) :
      (applyAll es s).2 = .ok (es.countP fun e => isValid e = .ok true) := by
    rw [applyAll_of_readable s h, accepted]
    refine congrArg Except.ok (List.countP_congr fun e _ => ?_)
    rw [decide_eq_true_iff, isValid_eq_ok_true_iff]
  have hstore {es : List Text} (h : ∀ e ∈ es, e.hasOverlongValue = false) :
      (applyAll es s).1 = (es.filterMap meaning?).foldl apply s :=
    (applyAll_of_ok (hcount h)).1
  refine ⟨hcount h, fun name => ?_, fun name => ?_, fun es' hperm horder => ?_⟩
  · show (applyAll es s).1.numbers.get? name = _
    rw [hstore h, get?_numbers_foldl_apply]
  · show (applyAll es s).1.flags.get? name = _
    rw [hstore h, get?_flags_foldl_apply]
  · have h' : ∀ e ∈ es', e.hasOverlongValue = false := fun e he => h e (hperm.subset he)
    have hsame (v : Variable) : ((es'.filterMap meaning?).filter fun c => c.target = v) =
        (es.filterMap meaning?).filter fun c => c.target = v := by
      rw [filter_filterMap_meaning?, filter_filterMap_meaning?, horder]
    refine ⟨?_, ?_⟩
    · rw [hcount h', hcount h, hperm.countP_eq]
    · show (applyAll es' s).1.SameBindings (applyAll es s).1
      rw [hstore h', hstore h]
      exact sameBindings_foldl_apply hsame s

/-- Two sorts of coins in a purse, and whether it is open, with a slip in between. -/
def purse : List Text :=
  ["gold += 9".toList, "gold = 5".toList, "silver -= 1".toList, "gold = true".toList,
    "gold =+ 1".toList, "gold += 3".toList, "gold -= 2".toList]

/-- The same with the silver, the truth value and the slip elsewhere. -/
def sortedPurse : List Text :=
  ["gold = true".toList, "gold += 9".toList, "gold = 5".toList, "gold += 3".toList,
    "gold -= 2".toList, "gold =+ 1".toList, "silver -= 1".toList]

theorem bindings_applyAll_purse :
    let s : Store := Store.empty.setNumber "gold".toList 40
    (∀ e ∈ purse, e.hasOverlongValue = false) ∧ sortedPurse.Perm purse ∧
      (∀ v, (sortedPurse.filter fun e => target? e = some v) =
        purse.filter fun e => target? e = some v) ∧
      (applyAll purse s).2 = .ok 6 ∧
      (applyAll purse s).1.numbers.get? "gold".toList = some 6 ∧
      (applyAll purse s).1.flags.get? "gold".toList = some true ∧
      (applyAll sortedPurse s).1.SameBindings (applyAll purse s).1 := by
  intro s
  have hread : ∀ e ∈ purse, e.hasOverlongValue = false := by decide
  have hperm : sortedPurse.Perm purse := by decide
  have horder (v : Variable) : (sortedPurse.filter fun e => target? e = some v) =
      purse.filter fun e => target? e = some v := by
    have htargets : ∀ e ∈ purse ++ sortedPurse, ∀ v ∈ target? e,
        v ∈ [.number "gold".toList, .number "silver".toList, .flag "gold".toList] := by decide
    by_cases hv : v ∈ [.number "gold".toList, .number "silver".toList, .flag "gold".toList]
    · simp only [List.mem_cons, List.not_mem_nil, or_false] at hv
      rcases hv with rfl | rfl | rfl <;> decide
    · have hnone (es : List Text) (hes : es ⊆ purse ++ sortedPurse) :
          (es.filter fun e => target? e = some v) = [] :=
        List.filter_eq_nil_iff.mpr fun e he hv' =>
          hv (htargets e (hes he) v (of_decide_eq_true hv'))
      rw [hnone purse (by simp), hnone sortedPurse (by simp)]
  obtain ⟨hcount, hnumbers, hflags, hsorted⟩ := bindings_applyAll hread s
  refine ⟨hread, hperm, horder, hcount.trans (by decide), (hnumbers _).trans (by decide),
    (hflags _).trans (by decide), (hsorted sortedPurse hperm horder).2⟩

end Change

end Parley
