import Parley.Proofs.Malformed
import Parley.Proofs.Playback.Grounded
import Parley.Proofs.Script.Numerals
import Parley.Proofs.Script.Reach
import Parley.Proofs.Script.Writer
import Parley.Reveal.Amount

/-!
# What an author can stop playback with

Malformed expressions are meant to lock what they guard, or to do nothing, and never to stop anyone.
There is one exception: a number with more than `maxDigits` digits is well formed, but it is refused
when it is read, and the refusal stops the turn that meets it and the check of the story.

Nothing else does. Whatever is done with the story of a script fails with such a number only, and
then the digits stand in the script; ticks aside, whose own numbers may be too large.

## Main results

* `Player.overlong_of_ransom` — a script that stops playback
* `Player.answered_or_overlong` — what a call on the story of a script comes to
-/

namespace Parley.Player

/-! ### A number that is too long -/

/-- The demand of a sum with a given number of digits. -/
def demand (digits : Nat) : Text :=
  "gold".toList ++ ' ' :: (">=".toList ++ ' ' :: List.replicate digits '1')

/-- A script that says something when the sum is there. -/
def ransom (digits : Nat) : Text :=
  Text.join ['\n']
    ["#Conversation start".toList, "\"Hi\"".toList, "#If".toList ++ ' ' :: demand digits]

/-- The story of that script. -/
def hostage (digits : Nat) : Story :=
  .ofList [("start".toList, [⟨[], "Hi".toList, none, some (demand digits), [], false⟩])]

variable {F : Type} {digits : Nat}

theorem mem_of_mem_demand {c : Char} (h : c ∈ demand digits) : c ∈ "gold >= 1".toList := by
  simp only [demand, List.mem_append, List.mem_cons] at h
  rcases h with h | rfl | h | rfl | h
  · exact List.mem_append_left " >= 1".toList h
  · decide
  · exact List.mem_append_right "gold ".toList (List.mem_append_left " 1".toList h)
  · decide
  · rw [List.eq_of_mem_replicate h]
    decide

theorem not_mem_demand {c : Char} (hc : c ∉ "gold >= 1".toList) : c ∉ demand digits :=
  fun h => hc (mem_of_mem_demand h)

theorem words_demand (h : 0 < digits) :
    (demand digits).words = ["gold".toList, ">=".toList, List.replicate digits '1'] := by
  have hones : ∀ c ∈ List.replicate digits '1', isBlank c = false := fun c hc => by
    rw [List.eq_of_mem_replicate hc]
    decide
  have hword {u : Text} (hu : u.any isBlank = false) : ∀ c ∈ u, isBlank c = false := by
    simpa using hu
  have hsplit : (demand digits).splitOnP isBlank =
      ["gold".toList, ">=".toList, List.replicate digits '1'] := by
    rw [demand, List.splitOnP_append_cons_of_forall_mem (hword (by decide)) ' ' (by decide),
      List.splitOnP_append_cons_of_forall_mem (hword (by decide)) ' ' (by decide),
      List.splitOnP_eq_singleton hones]
  rw [Text.words, hsplit, List.filter_eq_self]
  simp [Nat.pos_iff_ne_zero.mp h]

theorem read_replicate (h : maxDigits < digits) :
    Literal.read (List.replicate digits '1') = .error ⟨digits⟩ := by
  have hspells : Literal.Spells (List.replicate digits '1') false (List.replicate digits '1') := {
    eq_append := ⟨[], List.mem_cons_self, [], List.mem_cons_self, (List.append_nil _).symm⟩
    ne_nil := by simp [Nat.ne_zero_of_lt h]
    isDigit := fun c hc => by
      rw [List.eq_of_mem_replicate hc]
      decide }
  rw [Literal.read_of_spells hspells, List.length_replicate, if_neg (Nat.not_le_of_lt h)]

theorem read_demand (h : maxDigits < digits) :
    Comparison.read (demand digits) = .error ⟨digits⟩ := by
  rw [Comparison.read, words_demand (Nat.zero_lt_of_lt h)]
  simp only [read_replicate h]

theorem isField_demand (h : 0 < digits) : (demand digits).IsField where
  ne_nil := List.cons_ne_nil _ _
  stripped := by
    have hones : Text.strip (List.replicate digits '1') = List.replicate digits '1' := by
      have hblank {c : Char} (hc : c ∈ List.replicate digits '1') : isBlank c = false := by
        rw [List.eq_of_mem_replicate hc]
        decide
      exact Text.strip_eq_self_iff.mpr
        ⟨fun c hc => hblank (List.mem_of_mem_head? hc),
          fun c hc => hblank (List.mem_of_mem_getLast? hc)⟩
    have hne : List.replicate digits '1' ≠ [] := by simp [Nat.pos_iff_ne_zero.mp h]
    have hgold : Text.strip "gold".toList = "gold".toList := by decide
    have hends := Text.strip_append_append hgold (by decide) hones hne " >= ".toList
    rwa [List.append_assoc] at hends
  one_line := not_mem_demand (by decide)

theorem story_ransom (h : 0 < digits) :
    (Reading.ofText (ransom digits)).story = hostage digits := by
  have hfield := isField_demand h
  have hfree : (demand digits).PairFree '-' '>' :=
    Text.pairFree_of_not_mem (not_mem_demand (by decide))
  have hlines : Reading.linesOf (ransom digits) =
      ["#Conversation start".toList, "\"Hi\"".toList, "#If".toList ++ ' ' :: demand digits] := by
    have hif : Text.strip ("#If".toList ++ [' '] ++ demand digits) =
        "#If".toList ++ [' '] ++ demand digits :=
      Text.strip_append_append (by decide) (by decide) hfield.stripped hfield.ne_nil [' ']
    rw [Reading.linesOf, ransom, Text.splitOn_join (List.cons_ne_nil _ _)]
    · rw [List.append_assoc] at hif
      simp only [List.map_cons, List.map_nil]
      rw [show "#If".toList ++ ' ' :: demand digits =
        "#If".toList ++ ([' '] ++ demand digits) from rfl, hif]
      rfl
    · simp [hfield.one_line]
  have hcondition := Line.read_condition hfield hfree
  have hheader : Line.read "#Conversation start".toList = .header "start".toList := by decide
  have hspoken : Line.read "\"Hi\"".toList = .spoken "Hi".toList := by decide
  rw [Reading.ofText, hlines]
  simp only [Reading.steps, Reading.step, hheader, hspoken, hcondition]
  rfl

theorem groups_demand (h : 0 < digits) : Condition.groups (demand digits) = [[demand digits]] := by
  have hor : (demand digits).splitPair '|' '|' = [demand digits] :=
    Text.splitPair_of_pairFree (Text.pairFree_of_not_mem (not_mem_demand (by decide)))
  have hand : (demand digits).splitPair '&' '&' = [demand digits] :=
    Text.splitPair_of_pairFree (Text.pairFree_of_not_mem (not_mem_demand (by decide)))
  rw [Condition.groups, hor, List.map_singleton, hand, List.map_singleton,
    (isField_demand h).stripped]

theorem isAllBlank_demand (digits : Nat) : (demand digits).isAllBlank = false := rfl

theorem holds_demand (h : maxDigits < digits) (s : Store) :
    Condition.holds s (some (demand digits)) = .error ⟨digits⟩ := by
  simp only [Condition.holds, isAllBlank_demand, groups_demand (Nat.zero_lt_of_lt h),
    Condition.anyHold, Condition.allHold, Condition.atomHolds, read_demand h, Bool.false_eq_true,
    if_false]

theorem isValid_demand (h : maxDigits < digits) :
    Condition.isValid (some (demand digits)) = .error ⟨digits⟩ := by
  simp only [Condition.isValid, isAllBlank_demand, groups_demand (Nat.zero_lt_of_lt h),
    List.flatten_cons, List.flatten_nil, List.append_nil, Condition.allValid, read_demand h,
    Bool.false_eq_true, if_false]

theorem check_hostage (h : maxDigits < digits) (start : Option Text) :
    (hostage digits).check start = .error ⟨digits⟩ := by
  have hinside : (hostage digits).checkConversations (hostage digits).entries =
      .error ⟨digits⟩ := by
    show (hostage digits).checkConversations
      [("start".toList, [⟨[], "Hi".toList, none, some (demand digits), [], false⟩])] = _
    simp only [Story.checkConversations, Story.checkNodes, Story.checkNode, Story.checkCondition,
      isValid_demand h]
    rfl
  rw [Story.check, hinside]
  rfl

variable [Tempo F]

theorem alone_advance_hostage (h : maxDigits < digits) (store : Store) (speed : F) :
    (advance.alone (start (hostage digits) "start".toList store speed)).2.2 =
      .error (.overlong ⟨digits⟩) := by
  have hscan (n : Node) (hn : n.condition = some (demand digits)) :
      scan store 0 [n] = (0, .error ⟨digits⟩) := by
    rw [scan, hn, holds_demand h]
  rw [alone_advance_of_atLine rfl, Turn.alone_map]
  show Except.map some
    ((settle true).alone (start (hostage digits) "start".toList store speed)).2.2 = _
  rw [alone_settle_of_get? rfl]
  simp only [settleAmong, Turn.alone_bind, Turn.alone_get, Turn.alone_modify, start, List.drop_zero]
  rw [hscan _ rfl]
  simp only [alone_remark]
  rfl

/-- **A script can stop playback.** The first call of an interpreter on it fails, and so does every
check of its story. -/
theorem overlong_of_ransom :
    let story := (Reading.ofText (ransom 4301)).story
    ((Move.advance.turn.alone (start story "start".toList .empty (Amount.whole 20))).2.2 =
      .error (.overlong ⟨4301⟩)) ∧
    ∀ start, story.check start = .error ⟨4301⟩ := by
  have hlong : maxDigits < 4301 := by decide
  intro story
  have hstory : story = hostage 4301 := story_ransom (by decide)
  rw [hstory]
  refine ⟨?_, check_hostage hlong⟩
  rw [Move.turn, Turn.alone_map, alone_advance_hostage hlong]
  rfl

/-! ### Nothing else stops playback -/

/-- In a readable story no call fails with a number that is too long. -/
theorem overlong_ne_of_readable {story : Story} (hread : story.Readable) (conversation : Text)
    (store : Store) (speed : F) (ms : List (Move F)) (m : Move F) {o : Overlong}
    (h : (m.turn.alone ((start story conversation store speed).afterAll ms)).2.2 =
      .error (.overlong o)) : False := by
  have hstart := coherent_start story conversation store speed
  obtain ⟨hstory, hcoherent⟩ := coherent_afterAll hread hstart ms
  obtain ⟨os, q, r, halone, hstep⟩ := exists_step (hstory ▸ hread) hcoherent m
  rw [halone] at h
  obtain rfl : r = .error (.overlong o) := h
  cases hstep

/-- **What a call on the story of a script comes to.** After whatever was done before, from any
start and in any store, every call is answered, unless it is a tick with numbers that are too large,
or fails with a number that is too long; so is every check; and such a number stands in the script.
An evaluation that is not stopped counts malformed atoms as false, and changes that are not stopped
do what the well-formed ones among them do. -/
theorem answered_or_overlong (t : Text) (conversation : Text) (store : Store) (speed : F)
    (ms : List (Move F)) :
    let story := (Reading.ofText t).story
    let p := (start story conversation store speed).afterAll ms
    (∀ m : Move F,
      (∃ a, (m.turn.alone p).2.2 = .ok a) ∨
      (∃ o, (m.turn.alone p).2.2 = .error (.overlong o)) ∧ t.HasLongNumber ∨
      (∃ dt, m = .tick dt) ∧ (m.turn.alone p).2.2 = .error .tooLarge) ∧
    (∀ start, (∃ is, story.check start = .ok is) ∨
      (∃ o, story.check start = .error o) ∧ t.HasLongNumber) ∧
    (∀ s c b, Condition.holds s c = .ok b → b = Condition.value s c) ∧
    ∀ es s n, (Change.applyAll es s).2 = .ok n →
      (Change.applyAll es s).1 = (es.filterMap Change.meaning?).foldl Change.apply s ∧
        n = (es.filterMap Change.meaning?).length := by
  intro story p
  refine ⟨fun m => ?_, fun start => ?_, fun s c b h => (Condition.value_eq_of_holds h).symm,
    fun es s n h => Change.applyAll_of_ok h⟩
  · rcases hresult : (m.turn.alone p).2.2 with e | a
    · have hgrounded := grounded_afterAll_start story conversation store speed ms
      obtain ⟨-, ⟨o, rfl⟩ | ⟨htick, rfl⟩⟩ := (yields_move m hgrounded).fails_of_error hresult
      · refine .inr (.inl ⟨⟨o, rfl⟩, ?_⟩)
        by_contra hlong
        exact overlong_ne_of_readable (Reading.readable_ofText hlong) conversation store speed ms m
          hresult
      · exact .inr (.inr ⟨htick, rfl⟩)
    · exact .inl ⟨a, rfl⟩
  · rcases hresult : story.check start with o | is
    · refine .inr ⟨⟨o, rfl⟩, ?_⟩
      by_contra hlong
      obtain ⟨is, his⟩ := Story.exists_check (Reading.readable_ofText hlong) start
      cases his.symm.trans hresult
    · exact .inl ⟨is, rfl⟩

end Parley.Player
