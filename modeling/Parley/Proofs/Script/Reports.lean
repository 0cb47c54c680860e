import Parley.Proofs.Table
import Parley.Script.Check

/-!
# What a check reports

A check may not come to an answer, when it meets a number that is too long. If it does, every
condition that is rejected is in its answer, with its place.

## Main definitions

* `Story.Reports`

## Main results

* `Story.reports_nodeCondition`, `Story.reports_choiceCondition`
-/

namespace Parley.Story

variable {s : Story} {i : Issue} {id : Text}

/-- If the check comes to an answer, the issue is in it. -/
def Reports (i : Issue) (r : Except Overlong (List Issue)) : Prop := ∀ is, r = .ok is → i ∈ is

theorem reports_pure {is : List Issue} (h : i ∈ is) : Reports i (pure is) :=
  fun _ his => Except.ok.inj his ▸ h

theorem reports_bind {β : Type} {x : Except Overlong β} {f : β → Except Overlong (List Issue)}
    (h : ∀ b, x = .ok b → Reports i (f b)) : Reports i (x >>= f) := by
  cases x with
  | error e => exact nofun
  | ok b => exact h b rfl

/-- A check that goes on with another reports what the first does, if the end of the second takes
the issues of the first along. -/
theorem Reports.bind {x : Except Overlong (List Issue)}
    {f : List Issue → Except Overlong (List Issue)} (h : Reports i x)
    (hf : ∀ is, i ∈ is → Reports i (f is)) : Reports i (x >>= f) :=
  reports_bind fun is his => hf is (h is his)

theorem Reports.append {x y : Except Overlong (List Issue)} (h : Reports i x ∨ Reports i y) :
    Reports i (do let is ← x; let js ← y; return is ++ js) := by
  refine reports_bind fun is his => reports_bind fun js hjs => reports_pure ?_
  exact List.mem_append.mpr (h.imp (fun hx => hx is his) fun hy => hy js hjs)

theorem reports_checkCondition {issue : Text → Issue} {t : Text}
    (h : Condition.isValid (some t) = .ok false) :
    Reports (issue t) (checkCondition issue (some t)) := by
  rw [checkCondition, h]
  exact reports_pure (List.mem_singleton_self _)

theorem reports_checkChoices {index i k : Nat} {cs : List Choice} {c : Choice} {t : Text}
    (hc : cs[k]? = some c) (hcondition : c.condition = some t)
    (h : Condition.isValid (some t) = .ok false) :
    Reports (.choiceCondition ⟨id, index, i + k⟩ t) (s.checkChoices id index i cs) := by
  induction cs generalizing i k with
  | nil => simp at hc
  | cons d cs ih =>
    rw [checkChoices]
    cases k with
    | zero =>
      obtain rfl := Option.some.inj hc
      rw [Nat.add_zero]
      refine .append (.inl ?_)
      rw [checkChoice, hcondition]
      refine Reports.bind (reports_checkCondition h) fun is his => ?_
      exact reports_bind fun js _ => reports_pure (by simp [his])
    | succ k =>
      have hrest := ih (i := i + 1) hc
      rw [show i + 1 + k = i + (k + 1) by omega] at hrest
      exact .append (.inr hrest)

/-- What is reported of one node is reported of the nodes. -/
theorem reports_checkNodes {k : Nat} {ns : List Node} {n : Node} (hn : ns[k]? = some n) (j : Nat)
    (h : Reports i (s.checkNode id (j + k) n)) : Reports i (s.checkNodes id j ns) := by
  induction ns generalizing j k with
  | nil => simp at hn
  | cons m ns ih =>
    rw [checkNodes]
    cases k with
    | zero =>
      obtain rfl := Option.some.inj hn
      exact .append (.inl h)
    | succ k =>
      rw [show j + (k + 1) = j + 1 + k by omega] at h
      exact .append (.inr (ih hn (j + 1) h))

theorem reports_checkConversations {es : List (Text × List Node)} {nodes : List Node}
    (hmem : (id, nodes) ∈ es) (h : Reports i (s.checkNodes id 0 nodes)) :
    Reports i (s.checkConversations es) := by
  induction es with
  | nil => cases hmem
  | cons e es ih =>
    rw [checkConversations]
    rcases List.mem_cons.mp hmem with rfl | hmem
    · refine Reports.bind h fun is his => reports_bind fun js _ => reports_pure ?_
      simp [his]
    · refine reports_bind fun is _ => (ih hmem).bind fun js hjs => reports_pure ?_
      simp [hjs]

/-- What is reported of one node is reported of the story. -/
theorem reports_check {k : Nat} {n : Node} (hnode : s.node? id k = some n)
    (h : Reports i (s.checkNode id k n)) (start : Option Text) : Reports i (s.check start) := by
  obtain ⟨nodes, hget, hn⟩ := Option.bind_eq_some_iff.mp hnode
  rw [← Nat.zero_add k] at h
  have hinside : Reports i (s.checkConversations s.entries) :=
    reports_checkConversations (Table.get?_eq_some_iff.mp hget) (reports_checkNodes hn 0 h)
  rw [check]
  refine hinside.bind fun is his => ?_
  rcases start with _ | id
  · exact reports_pure his
  · simp only
    split
    · exact reports_pure (List.mem_append_left _ his)
    · exact reports_pure (List.mem_cons_of_mem _ his)

/-- **A node whose condition is rejected is reported**, whatever else the check finds. -/
theorem reports_nodeCondition {k : Nat} {n : Node} {t : Text} (hnode : s.node? id k = some n)
    (hcondition : n.condition = some t) (h : Condition.isValid (some t) = .ok false)
    (start : Option Text) : Reports (.nodeCondition id k t) (s.check start) := by
  refine reports_check hnode ?_ start
  rw [checkNode, hcondition]
  refine Reports.bind (reports_checkCondition h) fun is his => ?_
  exact reports_bind fun js _ => reports_bind fun ks _ => reports_pure (by simp [his])

/-- **A choice whose condition is rejected is reported.** -/
theorem reports_choiceCondition {k j : Nat} {n : Node} {c : Choice} {t : Text}
    (hnode : s.node? id k = some n) (hc : n.options[j]? = some c)
    (hcondition : c.condition = some t) (h : Condition.isValid (some t) = .ok false)
    (start : Option Text) : Reports (.choiceCondition ⟨id, k, j⟩ t) (s.check start) := by
  refine reports_check hnode ?_ start
  have hchoices : Reports (.choiceCondition ⟨id, k, 0 + j⟩ t) (s.checkChoices id k 0 n.options) :=
    reports_checkChoices hc hcondition h
  rw [Nat.zero_add] at hchoices
  rw [checkNode]
  refine reports_bind fun is _ => reports_bind fun js _ => ?_
  exact hchoices.bind fun ks hks => reports_pure (by simp [hks])

end Parley.Story
