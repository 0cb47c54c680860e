import Parley.Proofs.Table
import Parley.Remark
import Parley.Story

/-!
# The variables a story reads

A story reads a variable where a condition compares it. Which namespace is meant is decided by the
value it is compared with, so a number and a flag of one name are two variables. A change reads a
variable too, to add to it, but what it reads it also writes, and nothing else learns of it.

Two stores that agree on what is read decide every condition alike, and changes keep them in
agreement. An unset variable agrees with one that is set to `0` or `false`.

## Main definitions

* `Variable`, `Store.AgreesOn` — variables, and stores that agree on some of them
* `Condition.reads`, `Story.reads` — the variables that are read

## Main results

* `Condition.holds_congr`, `Condition.remarks_congr` — a condition depends on what it reads only
* `Change.agreesOn_applyAll` — changes keep stores in agreement
-/

namespace Parley

/-- A variable: a name in one of the two namespaces. -/
inductive Variable where
  | number (name : Text)
  | flag (name : Text)
  deriving DecidableEq, Repr

/-- Whether a variable reads the same in two stores. -/
def Variable.Agrees (s t : Store) : Variable → Prop
  | number name => s.number name 0 = t.number name 0
  | flag name => s.flag name false = t.flag name false

instance (s t : Store) (v : Variable) : Decidable (v.Agrees s t) :=
  match v with
  | .number name => inferInstanceAs (Decidable (s.number name 0 = t.number name 0))
  | .flag name => inferInstanceAs (Decidable (s.flag name false = t.flag name false))

/-! ### Agreement of stores -/

namespace Store

/-- Two stores agree on variables. -/
def AgreesOn (vs : List Variable) (s t : Store) : Prop := ∀ v ∈ vs, v.Agrees s t

instance (vs : List Variable) (s t : Store) : Decidable (AgreesOn vs s t) :=
  inferInstanceAs (Decidable (∀ v ∈ vs, v.Agrees s t))

variable {vs ws : List Variable} {s t : Store}

theorem AgreesOn.refl (vs : List Variable) (s : Store) : AgreesOn vs s s := by
  intro v _
  cases v <;> rfl

theorem AgreesOn.of_subset (h : AgreesOn vs s t) (hsub : ∀ v ∈ ws, v ∈ vs) : AgreesOn ws s t :=
  fun v hv => h v (hsub v hv)

theorem number_setNumber (s : Store) (name name' : Text) (n m : Int) :
    (s.setNumber name n).number name' m = if name' = name then n else s.number name' m := by
  rw [number, setNumber, Table.getD, Table.get?_put]
  split <;> rfl

theorem flag_setFlag (s : Store) (name name' : Text) (b d : Bool) :
    (s.setFlag name b).flag name' d = if name' = name then b else s.flag name' d := by
  rw [flag, setFlag, Table.getD, Table.get?_put]
  split <;> rfl

/-- Setting a number in both of two stores keeps them in agreement, if it is the same number
wherever it is read. -/
theorem AgreesOn.setNumber (h : AgreesOn vs s t) {name : Text} {n m : Int}
    (hsame : .number name ∈ vs → n = m) :
    AgreesOn vs (s.setNumber name n) (t.setNumber name m) := by
  intro v hv
  cases v with
  | number name' =>
    rw [Variable.Agrees, number_setNumber, number_setNumber]
    split
    · next heq => exact hsame (heq ▸ hv)
    · exact h _ hv
  | flag name' => exact h _ hv

theorem AgreesOn.setFlag (h : AgreesOn vs s t) (name : Text) (b : Bool) :
    AgreesOn vs (s.setFlag name b) (t.setFlag name b) := by
  intro v hv
  cases v with
  | number name' => exact h _ hv
  | flag name' =>
    rw [Variable.Agrees, flag_setFlag, flag_setFlag]
    split
    · rfl
    · exact h _ hv

/-- Setting a number that is not read, or to what it reads as, keeps a store in agreement with what
it was. -/
theorem agreesOn_setNumber (vs : List Variable) (s : Store) {name : Text} {n : Int}
    (h : .number name ∈ vs → s.number name 0 = n) : AgreesOn vs s (s.setNumber name n) := by
  intro v hv
  cases v with
  | number name' =>
    rw [Variable.Agrees, number_setNumber]
    split
    · next heq =>
      subst heq
      exact h hv
    · rfl
  | flag name' => rfl

/-- Setting a flag that is not read, or to what it reads as, keeps a store in agreement with what it
was. -/
theorem agreesOn_setFlag (vs : List Variable) (s : Store) {name : Text} {b : Bool}
    (h : .flag name ∈ vs → s.flag name false = b) : AgreesOn vs s (s.setFlag name b) := by
  intro v hv
  cases v with
  | number name' => rfl
  | flag name' =>
    rw [Variable.Agrees, flag_setFlag]
    split
    · next heq =>
      subst heq
      exact h hv
    · rfl

end Store

/-! ### What conditions read -/

/-- The variable that is compared. -/
def Comparison.variable : Comparison → Variable
  | number name _ _ => .number name
  | flag name _ _ => .flag name

theorem Comparison.holds_congr {c : Comparison} {s t : Store} (h : c.variable.Agrees s t) :
    c.holds s = c.holds t := by
  cases c with
  | number name relation n => exact congrArg (relation.test · n) h
  | flag name same b => exact congrArg (fun x => (x == b) == same) h

namespace Condition

/-- The variable that an atom compares, none when it is no comparison. -/
def atomReads (atom : Text) : List Variable :=
  match Comparison.read atom with
  | .ok (some c) => [c.variable]
  | _ => []

/-- The variables that a condition compares. -/
def reads : Option Text → List Variable
  | none => []
  | some t => (groups t).flatten.flatMap atomReads

variable {s t : Store}

theorem atomHolds_congr {atom : Text} (h : s.AgreesOn (atomReads atom) t) :
    atomHolds s atom = atomHolds t atom := by
  rw [atomHolds, atomHolds]
  rcases hread : Comparison.read atom with e | _ | c
  · rfl
  · rfl
  · have hvariable : c.variable ∈ atomReads atom := by
      rw [atomReads, hread]
      exact List.mem_singleton_self _
    exact congrArg Except.ok (Comparison.holds_congr (h _ hvariable))

/-- Atoms of one alternative: whether they hold, and which of them that takes looking at. -/
theorem allHold_congr {as : List Text} (h : ∀ a ∈ as, atomHolds s a = atomHolds t a) :
    allHold s as = allHold t as ∧ metIn s as = metIn t as := by
  induction as with
  | nil => exact ⟨rfl, rfl⟩
  | cons a as ih =>
    rw [List.forall_mem_cons] at h
    obtain ⟨hholds, hmet⟩ := ih h.2
    rw [allHold, allHold, metIn, metIn, h.1, hholds, hmet]
    exact ⟨rfl, rfl⟩

theorem anyHold_congr {gs : List (List Text)}
    (h : ∀ g ∈ gs, ∀ a ∈ g, atomHolds s a = atomHolds t a) :
    anyHold s gs = anyHold t gs ∧ metAmong s gs = metAmong t gs := by
  induction gs with
  | nil => exact ⟨rfl, rfl⟩
  | cons g gs ih =>
    rw [List.forall_mem_cons] at h
    obtain ⟨hholds, hmet⟩ := ih h.2
    obtain ⟨hfirst, hmetIn⟩ := allHold_congr h.1
    rw [anyHold, anyHold, metAmong, metAmong, hfirst, hmetIn, hholds, hmet]
    exact ⟨rfl, rfl⟩

/-- A condition is decided by what it reads, and so is which atoms that takes looking at. -/
theorem holds_and_met_congr {c : Option Text} (h : s.AgreesOn (reads c) t) :
    holds s c = holds t c ∧ met s c = met t c := by
  cases c with
  | none => exact ⟨rfl, rfl⟩
  | some text =>
    have hatoms : ∀ g ∈ groups text, ∀ a ∈ g, atomHolds s a = atomHolds t a := by
      intro g hg a ha
      refine atomHolds_congr (h.of_subset fun v hv => ?_)
      exact List.mem_flatMap.mpr ⟨a, List.mem_flatten.mpr ⟨g, hg, ha⟩, hv⟩
    obtain ⟨hholds, hmet⟩ := anyHold_congr hatoms
    rw [holds, holds, met, met, hholds, hmet]
    exact ⟨rfl, rfl⟩

theorem holds_congr {c : Option Text} (h : s.AgreesOn (reads c) t) : holds s c = holds t c :=
  (holds_and_met_congr h).1

theorem remarks_congr {c : Option Text} (h : s.AgreesOn (reads c) t) :
    remarks s c = remarks t c := by
  rw [remarks, remarks, (holds_and_met_congr h).2]

end Condition

/-! ### What changes keep -/

namespace Change

variable {vs : List Variable} {s t : Store}

theorem agreesOn_apply (h : s.AgreesOn vs t) (c : Change) :
    (c.apply s).AgreesOn vs (c.apply t) := by
  cases c with
  | assign name n => exact h.setNumber fun _ => rfl
  | add name n => exact h.setNumber fun hv => congrArg (· + n) (h _ hv)
  | subtract name n => exact h.setNumber fun hv => congrArg (· - n) (h _ hv)
  | flag name b => exact h.setFlag name b

/-- **Changes keep stores in agreement**, and how many of them are well formed does not depend on
the store. -/
theorem agreesOn_applyAll (h : s.AgreesOn vs t) (es : List Text) :
    (applyAll es s).1.AgreesOn vs (applyAll es t).1 ∧ (applyAll es s).2 = (applyAll es t).2 := by
  induction es generalizing s t with
  | nil => exact ⟨h, rfl⟩
  | cons e es ih =>
    rw [applyAll, applyAll]
    rcases read e with err | _ | c
    · exact ⟨h, rfl⟩
    · exact ih h
    · obtain ⟨hagrees, hcount⟩ := ih (agreesOn_apply h c)
      exact ⟨hagrees, congrArg (Except.map (· + 1)) hcount⟩

end Change

/-! ### What stories read -/

/-- The variables that the conditions of a node and of its choices compare. -/
def Node.reads (n : Node) : List Variable :=
  Condition.reads n.condition ++ n.options.flatMap fun c => Condition.reads c.condition

/-- The variables that the conditions of a story compare. -/
def Story.reads (s : Story) : List Variable := s.entries.flatMap fun e => e.2.flatMap Node.reads

/-- What a node of a story reads, the story reads. -/
theorem Story.mem_reads_of_get? {story : Story} {id : Text} {nodes : List Node} {n : Node}
    {v : Variable} (hget : story.get? id = some nodes) (hn : n ∈ nodes) (hv : v ∈ n.reads) :
    v ∈ story.reads :=
  List.mem_flatMap.mpr
    ⟨(id, nodes), Table.get?_eq_some_iff.mp hget, List.mem_flatMap.mpr ⟨n, hn, hv⟩⟩

namespace Store

variable {s t : Store}

theorem AgreesOn.condition {n : Node} (h : s.AgreesOn n.reads t) :
    s.AgreesOn (Condition.reads n.condition) t :=
  h.of_subset fun _ hv => List.mem_append_left _ hv

theorem AgreesOn.options {n : Node} (h : s.AgreesOn n.reads t) :
    ∀ c ∈ n.options, s.AgreesOn (Condition.reads c.condition) t :=
  fun c hc => h.of_subset fun _ hv =>
    List.mem_append_right _ (List.mem_flatMap.mpr ⟨c, hc, hv⟩)

end Store

end Parley
