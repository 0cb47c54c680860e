import Parley.Proofs.Readable
import Parley.Proofs.Table
import Parley.Script.Check

/-!
# What a check without errors means

Checking lists issues in an order of its own and stops where an expression cannot be read. What its
answer is worth is said without that order: a check finds no error exactly when the story is
`Sound`, that is, when the start and all targets exist and all expressions are well formed.

## Main definitions

* `Story.Sound` with `Node.Sound` and `Choice.Sound`
* `Story.Passes` — a check that was made and found no error

## Main results

* `Story.passes_check_iff`
-/

namespace Parley

/-- The target exists and all expressions of the choice are well formed. -/
structure Choice.Sound (s : Story) (c : Choice) : Prop where
  target : ∀ t ∈ c.target, s.contains t = true
  condition : Condition.isValid c.condition = .ok true
  changes : ∀ e ∈ c.changes, Change.isValid e = .ok true

/-- All expressions of the node are well formed, and its choices are sound. -/
structure Node.Sound (s : Story) (n : Node) : Prop where
  condition : Condition.isValid n.condition = .ok true
  changes : ∀ e ∈ n.changes, Change.isValid e = .ok true
  options : ∀ c ∈ n.options, c.Sound s

namespace Story

/-- Nothing can go wrong on the way from a start, except that there is nothing to see. -/
structure Sound (s : Story) (start : Text) : Prop where
  start : s.contains start = true
  nodes : ∀ e ∈ s.entries, ∀ n ∈ e.2, n.Sound s

/-- No issue is an error. -/
def Harmless (is : List Issue) : Prop := ∀ i ∈ is, i.severity ≠ .error

/-- A check was made and found no error. -/
def Passes (r : Except Overlong (List Issue)) : Prop := ∃ is, r = .ok is ∧ Harmless is

variable {s : Story}

/-! ### Checks in sequence -/

@[simp] theorem harmless_nil : Harmless [] := fun _ hi => absurd hi List.not_mem_nil

@[simp] theorem harmless_append {is js : List Issue} :
    Harmless (is ++ js) ↔ Harmless is ∧ Harmless js := List.forall_mem_append

@[simp] theorem passes_ok {is : List Issue} : Passes (.ok is) ↔ Harmless is := by
  constructor
  · rintro ⟨js, hjs, hharmless⟩
    cases hjs
    exact hharmless
  · intro h
    exact ⟨is, rfl, h⟩

@[simp] theorem passes_pure {is : List Issue} : Passes (pure is) ↔ Harmless is := passes_ok

theorem passes_bind {β : Type} {x : Except Overlong β} {f : β → Except Overlong (List Issue)} :
    Passes (x >>= f) ↔ ∃ b, x = .ok b ∧ Passes (f b) := by
  rcases x with e | b
  · constructor
    · rintro ⟨is, his, -⟩
      cases his
    · rintro ⟨b, hb, -⟩
      cases hb
  · constructor
    · intro h
      exact ⟨b, rfl, h⟩
    · rintro ⟨b', hb, h⟩
      cases hb
      exact h

/-- A check that goes on with another passes when both do, if the end of the second takes the issues
of the first along. -/
theorem passes_seq {x : Except Overlong (List Issue)}
    {f : List Issue → Except Overlong (List Issue)} {P : Prop}
    (hf : ∀ is, Passes (f is) ↔ P ∧ Harmless is) : Passes (x >>= f) ↔ Passes x ∧ P := by
  rw [passes_bind]
  constructor
  · rintro ⟨is, his, h⟩
    obtain ⟨hP, hharmless⟩ := (hf is).mp h
    exact ⟨⟨is, his, hharmless⟩, hP⟩
  · rintro ⟨⟨is, his, hharmless⟩, hP⟩
    exact ⟨is, his, (hf is).mpr ⟨hP, hharmless⟩⟩

theorem passes_append {x y : Except Overlong (List Issue)} :
    Passes (do let is ← x; let js ← y; return is ++ js) ↔ Passes x ∧ Passes y := by
  refine passes_seq fun is => ?_
  refine passes_seq fun js => ?_
  rw [passes_pure, harmless_append]

/-! ### The parts of a story -/

theorem passes_checkCondition {issue : Text → Issue} (hissue : ∀ t, (issue t).severity = .error)
    {c : Option Text} : Passes (checkCondition issue c) ↔ Condition.isValid c = .ok true := by
  rw [checkCondition, passes_bind]
  constructor
  · rintro ⟨valid, hvalid, h⟩
    cases valid
    · exact absurd (hissue _) (passes_pure.mp h _ (List.mem_singleton_self _))
    · exact hvalid
  · intro h
    exact ⟨true, h, passes_pure.mpr harmless_nil⟩

theorem passes_checkChanges {issue : Text → Issue} (hissue : ∀ t, (issue t).severity = .error)
    {es : List Text} :
    Passes (checkChanges issue es) ↔ ∀ e ∈ es, Change.isValid e = .ok true := by
  induction es with
  | nil => simp [checkChanges]
  | cons e es ih =>
    rw [checkChanges, passes_bind, List.forall_mem_cons, ← ih]
    constructor
    · rintro ⟨valid, hvalid, h⟩
      obtain ⟨rest, hrest, h⟩ := passes_bind.mp h
      cases valid
      · exact absurd (hissue e) (passes_pure.mp h _ List.mem_cons_self)
      · exact ⟨hvalid, rest, hrest, passes_pure.mp h⟩
    · rintro ⟨hvalid, rest, hrest, h⟩
      exact ⟨true, hvalid, passes_bind.mpr ⟨rest, hrest, passes_pure.mpr h⟩⟩

theorem harmless_checkTarget {place : ChoicePlace} {target : Option Text} :
    Harmless (s.checkTarget place target) ↔ ∀ t ∈ target, s.contains t = true := by
  rcases target with _ | t
  · simp [checkTarget]
  · rw [checkTarget]
    by_cases h : s.contains t = true
    · simp [h]
    · simp [h, Harmless, Issue.severity]

theorem passes_checkChoice {place : ChoicePlace} {c : Choice} :
    Passes (s.checkChoice place c) ↔ c.Sound s := by
  have hseq : Passes (s.checkChoice place c) ↔
      Passes (checkCondition (.choiceCondition place) c.condition) ∧
        Passes (checkChanges (.choiceChange place) c.changes) ∧
        Harmless (s.checkTarget place c.target) := by
    refine passes_seq fun is => ?_
    rw [and_assoc]
    refine passes_seq fun js => ?_
    rw [passes_pure, harmless_append, harmless_append]
  rw [hseq, passes_checkCondition fun _ => rfl, passes_checkChanges fun _ => rfl,
    harmless_checkTarget]
  exact ⟨fun ⟨hcondition, hchanges, htarget⟩ => ⟨htarget, hcondition, hchanges⟩,
    fun h => ⟨h.condition, h.changes, h.target⟩⟩

theorem passes_checkChoices {id : Text} {index i : Nat} {cs : List Choice} :
    Passes (s.checkChoices id index i cs) ↔ ∀ c ∈ cs, c.Sound s := by
  induction cs generalizing i with
  | nil => simp [checkChoices]
  | cons c cs ih =>
    rw [checkChoices, passes_append, passes_checkChoice, ih, List.forall_mem_cons]

theorem passes_checkNode {id : Text} {index : Nat} {n : Node} :
    Passes (s.checkNode id index n) ↔ n.Sound s := by
  have hempty : Harmless
      (if n.takesChoices && !n.offersChoices then [.emptyChoice id index] else []) := by
    split <;> simp [Harmless, Issue.severity]
  have hseq : Passes (s.checkNode id index n) ↔
      Passes (checkCondition (.nodeCondition id index) n.condition) ∧
        Passes (checkChanges (.nodeChange id index) n.changes) ∧
        Passes (s.checkChoices id index 0 n.options) := by
    refine passes_seq fun is => ?_
    rw [and_assoc]
    refine passes_seq fun js => ?_
    rw [and_assoc]
    refine passes_seq fun ks => ?_
    rw [passes_pure]
    simp only [harmless_append, hempty, and_true]
  rw [hseq, passes_checkCondition fun _ => rfl, passes_checkChanges fun _ => rfl,
    passes_checkChoices]
  exact ⟨fun ⟨hcondition, hchanges, hoptions⟩ => ⟨hcondition, hchanges, hoptions⟩,
    fun h => ⟨h.condition, h.changes, h.options⟩⟩

theorem passes_checkNodes {id : Text} {i : Nat} {ns : List Node} :
    Passes (s.checkNodes id i ns) ↔ ∀ n ∈ ns, n.Sound s := by
  induction ns generalizing i with
  | nil => simp [checkNodes]
  | cons n ns ih =>
    rw [checkNodes, passes_append, passes_checkNode, ih, List.forall_mem_cons]

theorem passes_checkConversations {es : List (Text × List Node)} :
    Passes (s.checkConversations es) ↔ ∀ e ∈ es, ∀ n ∈ e.2, n.Sound s := by
  induction es with
  | nil => simp [checkConversations]
  | cons e es ih =>
    have hempty : Harmless (if e.2.isEmpty then [.emptyConversation e.1] else []) := by
      split <;> simp [Harmless, Issue.severity]
    have hseq : Passes (s.checkConversations (e :: es)) ↔
        Passes (s.checkNodes e.1 0 e.2) ∧ Passes (s.checkConversations es) := by
      refine passes_seq fun is => ?_
      refine passes_seq fun js => ?_
      rw [passes_pure]
      simp only [harmless_append, hempty, true_and]
    rw [hseq, passes_checkNodes, ih, List.forall_mem_cons]

theorem harmless_checkReach {start : Text} : Harmless (s.checkReach start) := by
  intro i hi
  obtain ⟨id, -, rfl⟩ := List.mem_map.mp hi
  simp [Issue.severity]

/-- **A check from a start finds no error exactly when the story is sound.** -/
theorem passes_check_iff {start : Text} : Passes (s.check (some start)) ↔ s.Sound start := by
  have hseq : Passes (s.check (some start)) ↔
      Passes (s.checkConversations s.entries) ∧ s.contains start = true := by
    refine passes_seq fun is => ?_
    by_cases h : s.contains start = true
    · simp [h, harmless_checkReach]
    · simp [h, Harmless, Issue.severity]
  rw [hseq, passes_checkConversations]
  exact ⟨fun ⟨hnodes, hstart⟩ => ⟨hstart, hnodes⟩, fun h => ⟨h.nodes, h.start⟩⟩

end Story

/-! ### Sound stories are readable -/

theorem hasOverlongValue_of_isValid {es : List Text} (h : ∀ e ∈ es, Change.isValid e = .ok true) :
    ∀ e ∈ es, e.hasOverlongValue = false := fun e he =>
  Change.hasOverlongValue_of_isChange (Change.isValid_eq_ok_true_iff.mp (h e he))

theorem Choice.Sound.readable {s : Story} {c : Choice} (h : c.Sound s) : c.Readable where
  condition := (Condition.isValid_eq_ok_true_iff.mp h.condition).1
  changes := hasOverlongValue_of_isValid h.changes

theorem Node.Sound.readable {s : Story} {n : Node} (h : n.Sound s) : n.Readable where
  condition := (Condition.isValid_eq_ok_true_iff.mp h.condition).1
  changes := hasOverlongValue_of_isValid h.changes
  options := fun c hc => (h.options c hc).readable

theorem Story.Sound.readable {s : Story} {start : Text} (h : s.Sound start) : s.Readable :=
  fun e he n hn => (h.nodes e he n hn).readable

end Parley
