import Mathlib.Data.Finset.Card
import Mathlib.Logic.Relation
import Parley.Proofs.Readable
import Parley.Proofs.Table
import Parley.Script.Check

/-!
# What choices lead to

A check from a start reports the conversations that no choice leads to. It finds them by a search
with a queue, and the search is cut off after as many rounds as there are conversations. Two things
are shown of it, and they are kept apart.

The first is that nothing is cut off. `Explored` is the search without a bound on its rounds, as a
relation; `explored_reachable` says that it comes to an end and finds what `Story.reachable` finds.
What counts is how many conversations are neither seen nor waiting: each round takes one from the
queue, and puts only such into it.

The second is what is found, and that is read off `Explored`, where no rounds are counted: whatever
is found is led to, and what is led to from there is found as well.

## Main definitions

* `Story.LeadsTo`, `Story.Reaches` — one choice, and a chain of choices
* `Story.Explored` — the search without a bound
* `unreachables` — what a list of issues reports as unreachable

## Main results

* `Story.mem_reachable_iff` — the search finds what chains of choices lead to
* `Story.exists_check_of_readable`, `Story.unreachables_check` — the report
-/

namespace Parley

namespace Story

variable {s : Story} {start id t : Text} {seen queue found : List Text}

/-! ### Chains of choices -/

/-- Some choice of a conversation has the other as its target, and that exists. Conditions do not
matter. -/
def LeadsTo (s : Story) (id t : Text) : Prop :=
  s.contains t = true ∧
    ∃ nodes, s.get? id = some nodes ∧ ∃ n ∈ nodes, ∃ c ∈ n.options, c.target = some t

/-- A chain of choices, maybe none at all, leads from one conversation to the other. -/
def Reaches (s : Story) : Text → Text → Prop := Relation.ReflTransGen s.LeadsTo

theorem mem_successors_iff : t ∈ s.successors id ↔ s.LeadsTo id t := by
  rw [successors, targetsOf, LeadsTo, Table.getD]
  rcases s.get? id with _ | nodes
  · simp
  · simp only [Option.getD_some, List.mem_filterMap, List.mem_flatMap, Option.filter_eq_some_iff,
      Option.some_inj, exists_eq_left']
    constructor
    · rintro ⟨c, ⟨n, hn, hc⟩, htarget, hexists⟩
      exact ⟨hexists, n, hn, c, hc, htarget⟩
    · rintro ⟨hexists, n, hn, c, hc, htarget⟩
      exact ⟨c, ⟨n, hn, hc⟩, htarget, hexists⟩

/-! ### The search -/

theorem mem_unseen {ts : List Text} : t ∈ unseen seen ts ↔ t ∈ ts ∧ t ∉ seen := by
  induction ts generalizing seen with
  | nil => simp [unseen]
  | cons u ts ih =>
    rw [unseen]
    split
    · next hu =>
      rw [ih, List.mem_cons]
      exact ⟨fun ⟨ht, hnot⟩ => ⟨.inr ht, hnot⟩,
        fun ⟨ht, hnot⟩ => ⟨ht.resolve_left fun h => hnot (h ▸ hu), hnot⟩⟩
    · next hu =>
      rw [List.mem_cons, ih, List.mem_cons, List.mem_cons, not_or]
      by_cases h : t = u
      · simp [h, hu]
      · simp [h]

theorem nodup_unseen (seen ts : List Text) : (unseen seen ts).Nodup := by
  induction ts generalizing seen with
  | nil => exact List.nodup_nil
  | cons u ts ih =>
    rw [unseen]
    split
    · exact ih seen
    · refine List.nodup_cons.mpr ⟨fun hu => ?_, ih _⟩
      exact (mem_unseen.mp hu).2 List.mem_cons_self

/-- The search that nothing cuts off. What is seen and what waits in the queue lead to what is found
in the end. -/
inductive Explored (s : Story) : List Text → List Text → List Text → Prop where
  | done (seen : List Text) : Explored s seen [] seen
  | round {seen queue found : List Text} {id : Text}
      (rest : Explored s (seen ++ unseen seen (s.successors id))
        (queue ++ unseen seen (s.successors id)) found) :
      Explored s seen (id :: queue) found

/-- How many conversations were not seen yet. -/
def unseenCount (s : Story) (seen : List Text) : Nat := (s.keys.toFinset \ seen.toFinset).card

theorem unseenCount_append_unseen (s : Story) (seen : List Text) (id : Text) :
    s.unseenCount (seen ++ unseen seen (s.successors id)) + (unseen seen (s.successors id)).length =
      s.unseenCount seen := by
  have hkeys : (unseen seen (s.successors id)).toFinset ⊆ s.keys.toFinset \ seen.toFinset := by
    intro t ht
    obtain ⟨hsucc, hnot⟩ := mem_unseen.mp (List.mem_toFinset.mp ht)
    have hexists := (mem_successors_iff.mp hsucc).1
    obtain ⟨nodes, hget⟩ := Option.isSome_iff_exists.mp hexists
    have hkey : t ∈ s.keys := List.mem_map_of_mem (Table.get?_eq_some_iff.mp hget)
    simp [hkey, hnot]
  have hcard := List.toFinset_card_of_nodup (nodup_unseen seen (s.successors id))
  have hle := Finset.card_le_card hkeys
  have hsplit := sdiff_sdiff_left (a := s.keys.toFinset) (b := seen.toFinset)
    (c := (unseen seen (s.successors id)).toFinset)
  rw [Finset.sup_eq_union] at hsplit
  rw [unseenCount, unseenCount, List.toFinset_append, ← hsplit, Finset.card_sdiff_of_subset hkeys,
    ← hcard]
  exact Nat.sub_add_cancel hle

/-- **Nothing is cut off**, if there are as many rounds as conversations that wait or were not seen
yet. -/
theorem explored_explore (rounds : Nat) (h : queue.length + s.unseenCount seen ≤ rounds) :
    s.Explored seen queue (s.explore rounds seen queue) := by
  induction rounds generalizing seen queue with
  | zero =>
    obtain rfl : queue = [] := List.length_eq_zero_iff.mp (by omega)
    exact .done seen
  | succ rounds ih =>
    cases queue with
    | nil => exact .done seen
    | cons id queue =>
      refine .round (ih ?_)
      have hcount := unseenCount_append_unseen s seen id
      rw [List.length_cons] at h
      rw [List.length_append]
      omega

/-- **The search comes to an end**, and what it has found then is what counts as reachable. -/
theorem explored_reachable (s : Story) (start : Text) :
    s.Explored [start] [start] (s.reachable start) := by
  rw [reachable]
  by_cases hstart : s.contains start = true
  · refine explored_explore s.size ?_
    obtain ⟨nodes, hget⟩ := Option.isSome_iff_exists.mp hstart
    have hkey : start ∈ s.keys.toFinset :=
      List.mem_toFinset.mpr (List.mem_map_of_mem (Table.get?_eq_some_iff.mp hget))
    have hcard : s.keys.toFinset.card = s.size :=
      (List.toFinset_card_of_nodup s.nodup_keys).trans (List.length_map _)
    have hpos := Finset.card_pos.mpr ⟨start, hkey⟩
    have hone : [start].toFinset = {start} := rfl
    rw [unseenCount, hone, Finset.card_sdiff_of_subset (Finset.singleton_subset_iff.mpr hkey),
      Finset.card_singleton, List.length_singleton]
    omega
  · -- a start that does not exist leads nowhere
    have hnone : s.successors start = [] := by
      have hget : s.get? start = none := by simpa [Table.contains] using hstart
      simp [successors, Table.getD, hget, targetsOf]
    have hfound : s.explore s.size [start] [start] = [start] := by
      cases s.size with
      | zero => rfl
      | succ n => cases n <;> simp [explore, hnone, unseen]
    have hround : s.Explored ([start] ++ unseen [start] (s.successors start))
        ([] ++ unseen [start] (s.successors start)) [start] := by
      rw [hnone]
      exact .done [start]
    rw [hfound]
    exact .round hround

/-! ### What the search finds -/

theorem Explored.mem_of_seen (h : s.Explored seen queue found) (ht : t ∈ seen) : t ∈ found := by
  induction h with
  | done => exact ht
  | round rest ih => exact ih (List.mem_append_left _ ht)

/-- Whatever is found was led to. -/
theorem Explored.reaches (h : s.Explored seen queue found) (hseen : ∀ t ∈ seen, s.Reaches start t)
    (hqueue : ∀ t ∈ queue, s.Reaches start t) : ∀ t ∈ found, s.Reaches start t := by
  induction h with
  | done => exact hseen
  | @round seen queue found id rest ih =>
    rw [List.forall_mem_cons] at hqueue
    have hnew : ∀ t ∈ unseen seen (s.successors id), s.Reaches start t := fun t ht =>
      hqueue.1.tail (mem_successors_iff.mp (mem_unseen.mp ht).1)
    exact ih (List.forall_mem_append.mpr ⟨hseen, hnew⟩)
      (List.forall_mem_append.mpr ⟨hqueue.2, hnew⟩)

/-- What is found leads to nothing else, if that is so of all that was seen and does not wait. -/
theorem Explored.closed (h : s.Explored seen queue found)
    (hseen : ∀ x ∈ seen, x ∈ queue ∨ ∀ y, s.LeadsTo x y → y ∈ seen) :
    ∀ x ∈ found, ∀ y, s.LeadsTo x y → y ∈ found := by
  induction h with
  | done => exact fun x hx => (hseen x hx).resolve_left List.not_mem_nil
  | @round seen queue found id rest ih =>
    refine ih fun x hx => ?_
    by_cases hold : x ∈ seen
    · rcases hseen x hold with hwaits | hclosed
      · rcases List.mem_cons.mp hwaits with rfl | hwaits
        · -- its turn has come: all that it leads to has been seen now
          refine .inr fun y hy => ?_
          by_cases hy' : y ∈ seen
          · exact List.mem_append_left _ hy'
          · exact List.mem_append_right _ (mem_unseen.mpr ⟨mem_successors_iff.mpr hy, hy'⟩)
        · exact .inl (List.mem_append_left _ hwaits)
      · exact .inr fun y hy => List.mem_append_left _ (hclosed y hy)
    · exact .inl (List.mem_append_right _ ((List.mem_append.mp hx).resolve_left hold))

/-- **The search finds what chains of choices lead to**, no less and no more. -/
theorem mem_reachable_iff : id ∈ s.reachable start ↔ s.Reaches start id := by
  have hsearch := explored_reachable s start
  have hstart : ∀ t ∈ [start], s.Reaches start t := fun t ht => by
    rw [List.mem_singleton.mp ht]
    exact .refl
  constructor
  · exact hsearch.reaches hstart hstart id
  · intro h
    induction h with
    | refl => exact hsearch.mem_of_seen (List.mem_singleton_self start)
    | tail _ hlead ih => exact hsearch.closed (fun x hx => .inl hx) _ ih _ hlead

instance (s : Story) (start id : Text) : Decidable (s.Reaches start id) :=
  decidable_of_iff ((s.reachable start).contains id = true)
    (List.contains_iff_mem.trans mem_reachable_iff)

end Story

/-! ### The report -/

/-- The conversation that an issue reports as unreachable, if it does. -/
def Issue.unreachable? : Issue → Option Text
  | unreachable id => some id
  | _ => none

/-- The conversations that issues report as unreachable, in order. -/
def unreachables (is : List Issue) : List Text := is.filterMap Issue.unreachable?

theorem mem_unreachables {is : List Issue} {id : Text} :
    id ∈ unreachables is ↔ .unreachable id ∈ is := by
  rw [unreachables, List.mem_filterMap]
  constructor
  · rintro ⟨i, hi, hid⟩
    cases i <;> cases hid
    exact hi
  · exact fun h => ⟨_, h, rfl⟩

@[simp] theorem unreachables_append (is js : List Issue) :
    unreachables (is ++ js) = unreachables is ++ unreachables js := List.filterMap_append

@[simp] theorem unreachables_map_unreachable (ids : List Text) :
    unreachables (ids.map .unreachable) = ids := by
  induction ids with
  | nil => rfl
  | cons id ids ih => exact congrArg (id :: ·) ih

namespace Story

variable {s : Story} {A B : Prop}

/-- A part of the check that has an answer under a condition, and reports nothing as unreachable. -/
structure Local (A : Prop) (r : Except Overlong (List Issue)) : Prop where
  answers (hA : A) : ∃ is, r = .ok is
  unreachables : ∀ is, r = .ok is → unreachables is = []

theorem local_pure (is : List Issue) (h : Parley.unreachables is = []) : Local True (pure is) :=
  ⟨fun _ => ⟨is, rfl⟩, fun _ his => Except.ok.inj his ▸ h⟩

theorem Local.mono {r : Except Overlong (List Issue)} (h : Local A r) (hBA : B → A) : Local B r :=
  ⟨fun hB => h.answers (hBA hB), h.unreachables⟩

theorem Local.bind {β : Type} {x : Except Overlong β} {f : β → Except Overlong (List Issue)}
    {P : β → Prop} (hx : A → ∃ b, x = .ok b) (hP : ∀ b, x = .ok b → P b)
    (hf : ∀ b, P b → Local B (f b)) : Local (A ∧ B) (x >>= f) := by
  rcases x with e | b
  · refine ⟨fun hA => ?_, fun is his => ?_⟩
    · obtain ⟨b, hb⟩ := hx hA.1
      cases hb
    · cases his
  · exact (hf b (hP b rfl)).mono And.right

/-- One part of the check after another. -/
theorem Local.seq {x : Except Overlong (List Issue)}
    {f : List Issue → Except Overlong (List Issue)} (hx : Local A x)
    (hf : ∀ is, Parley.unreachables is = [] → Local B (f is)) : Local (A ∧ B) (x >>= f) :=
  .bind hx.answers hx.unreachables hf

theorem Local.append {x y : Except Overlong (List Issue)} (hx : Local A x) (hy : Local B y) :
    Local (A ∧ B) (do let is ← x; let js ← y; return is ++ js) := by
  have hboth := hx.seq fun is his => hy.seq fun js hjs =>
    local_pure (is ++ js) (by rw [unreachables_append, his, hjs, List.append_nil])
  exact hboth.mono fun ⟨hA, hB⟩ => ⟨hA, hB, trivial⟩

theorem local_checkCondition (issue : Text → Issue) (hissue : ∀ t, (issue t).unreachable? = none)
    (c : Option Text) : Local (Condition.Readable c) (checkCondition issue c) := by
  have hvalid (h : Condition.Readable c) : ∃ b, Condition.isValid c = .ok b :=
    ⟨_, Condition.isValid_of_readable h⟩
  refine (Local.bind hvalid (fun _ _ => trivial) fun valid _ => local_pure _ ?_).mono
    fun h => ⟨h, trivial⟩
  cases valid <;> simp [Parley.unreachables, hissue]

theorem local_checkChanges (issue : Text → Issue) (hissue : ∀ t, (issue t).unreachable? = none)
    (es : List Text) :
    Local (∀ e ∈ es, e.hasOverlongValue = false) (checkChanges issue es) := by
  induction es with
  | nil => exact (local_pure [] rfl).mono fun _ => trivial
  | cons e es ih =>
    have hvalid (h : e.hasOverlongValue = false) : ∃ b, Change.isValid e = .ok b := by
      obtain ⟨c, hc⟩ := Change.exists_read_eq_ok_iff.mpr h
      exact ⟨c.isSome, by rw [Change.isValid, hc]⟩
    refine (Local.bind hvalid (fun _ _ => trivial) fun valid _ => ih.seq fun is his =>
      local_pure _ ?_).mono fun h => ?_
    · cases valid <;> simpa [Parley.unreachables, hissue] using his
    · rw [List.forall_mem_cons] at h
      exact ⟨h.1, h.2, trivial⟩

theorem unreachables_checkTarget (place : ChoicePlace) (target : Option Text) :
    unreachables (s.checkTarget place target) = [] := by
  rcases target with _ | t
  · rfl
  · rw [checkTarget]
    split <;> rfl

theorem local_checkChoice (place : ChoicePlace) (c : Choice) :
    Local c.Readable (s.checkChoice place c) := by
  have hparts := (local_checkCondition (.choiceCondition place) (fun _ => rfl)
    c.condition).seq fun is his =>
      (local_checkChanges (.choiceChange place) (fun _ => rfl) c.changes).seq
        fun js hjs => local_pure (s.checkTarget place c.target ++ is ++ js) (by
          simp [his, hjs, unreachables_checkTarget])
  exact hparts.mono fun h => ⟨h.condition, h.changes, trivial⟩

theorem local_checkChoices (id : Text) (index i : Nat) (cs : List Choice) :
    Local (∀ c ∈ cs, c.Readable) (s.checkChoices id index i cs) := by
  induction cs generalizing i with
  | nil => exact (local_pure [] rfl).mono fun _ => trivial
  | cons c cs ih =>
    exact ((local_checkChoice ⟨id, index, i⟩ c).append (ih (i + 1))).mono
      List.forall_mem_cons.mp

theorem local_checkNode (id : Text) (index : Nat) (n : Node) :
    Local n.Readable (s.checkNode id index n) := by
  have hempty : unreachables
      (if n.takesChoices && !n.offersChoices then [.emptyChoice id index] else []) = [] := by
    split <;> rfl
  have hparts := (local_checkCondition (.nodeCondition id index) (fun _ => rfl)
    n.condition).seq fun is his =>
      (local_checkChanges (.nodeChange id index) (fun _ => rfl) n.changes).seq
        fun js hjs => (local_checkChoices (s := s) id index 0 n.options).seq
          fun ks hks => local_pure (is ++ js ++
            (if n.takesChoices && !n.offersChoices then [.emptyChoice id index] else []) ++ ks) (by
              simp only [unreachables_append, his, hjs, hks, hempty, List.append_nil])
  exact hparts.mono fun h => ⟨h.condition, h.changes, h.options, trivial⟩

theorem local_checkNodes (id : Text) (i : Nat) (ns : List Node) :
    Local (∀ n ∈ ns, n.Readable) (s.checkNodes id i ns) := by
  induction ns generalizing i with
  | nil => exact (local_pure [] rfl).mono fun _ => trivial
  | cons n ns ih =>
    exact ((local_checkNode id i n).append (ih (i + 1))).mono List.forall_mem_cons.mp

theorem local_checkConversations (es : List (Text × List Node)) :
    Local (∀ e ∈ es, ∀ n ∈ e.2, n.Readable) (s.checkConversations es) := by
  induction es with
  | nil => exact (local_pure [] rfl).mono fun _ => trivial
  | cons e es ih =>
    have hempty : unreachables (if e.2.isEmpty then [.emptyConversation e.1] else []) = [] := by
      split <;> rfl
    have hparts := (local_checkNodes (s := s) e.1 0 e.2).seq fun is his => ih.seq fun js hjs =>
      local_pure ((if e.2.isEmpty then [.emptyConversation e.1] else []) ++ is ++ js) (by
        simp only [unreachables_append, his, hjs, hempty, List.append_nil])
    refine hparts.mono fun h => ?_
    rw [List.forall_mem_cons] at h
    exact ⟨h.1, h.2, trivial⟩

variable {start : Text}

theorem check_eq (hstart : s.contains start = true) :
    s.check (some start) = (s.checkConversations s.entries).map (· ++ s.checkReach start) := by
  rw [check]
  rcases s.checkConversations s.entries with e | is
  · rfl
  · show (if s.contains start = true then pure (is ++ s.checkReach start)
      else pure (.missingStart start :: is)) = _
    rw [if_pos hstart]
    rfl

/-- A readable story that has the start has an answer to its check. -/
theorem exists_check_of_readable (hread : s.Readable) (hstart : s.contains start = true) :
    ∃ is, s.check (some start) = .ok is := by
  obtain ⟨is, his⟩ := (local_checkConversations (s := s) s.entries).answers hread
  exact ⟨is ++ s.checkReach start, by rw [check_eq hstart, his]; rfl⟩

/-- So has a readable story with any start, or none. -/
theorem exists_check (hread : s.Readable) (start : Option Text) : ∃ is, s.check start = .ok is := by
  obtain ⟨is, his⟩ := (local_checkConversations (s := s) s.entries).answers hread
  rw [check, his]
  rcases start with _ | id
  · exact ⟨is, rfl⟩
  · by_cases hstart : s.contains id = true
    · exact ⟨is ++ s.checkReach id, if_pos hstart⟩
    · exact ⟨.missingStart id :: is, if_neg hstart⟩

/-- **The report is exact**: each conversation that no chain of choices leads to, in the order of
the story. -/
theorem unreachables_check {is : List Issue} (hstart : s.contains start = true)
    (hcheck : s.check (some start) = .ok is) :
    unreachables is = s.keys.filter fun id => ¬ s.Reaches start id := by
  rw [check_eq hstart] at hcheck
  rcases hinside : s.checkConversations s.entries with e | js
  · rw [hinside] at hcheck
    cases hcheck
  · rw [hinside] at hcheck
    obtain rfl := Except.ok.inj hcheck
    rw [unreachables_append, (local_checkConversations s.entries).unreachables js hinside,
      List.nil_append, checkReach, unreachables_map_unreachable]
    refine List.filter_congr fun id _ => ?_
    simp [← mem_reachable_iff]

end Story

end Parley
