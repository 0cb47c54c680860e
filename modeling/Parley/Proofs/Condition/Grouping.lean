import Parley.Proofs.Condition.Conjoin
import Parley.Proofs.Script.Outline

/-!
# Conjunctions of more than two conditions

Conjunction works on texts, and its result is a text again. That it is associative as an operation
on texts, and not only in what the texts mean, has two reasons. Where all conditions are written
out, the alternatives of the result are the product, and whoever reads the result gets the product
back; so what is joined twice is the product of three lists, in the same order either way. Where one
of them is blank it vanishes, and the other two are joined as they were written.

A script gives a node its condition line by line. By associativity the lines can be grouped in any
way first.

## Main definitions

* `Condition.conjoinAll` — the conjunction of conditions in a row

## Main results

* `Condition.conjoin_assoc`
* `Condition.conjoinAll_flatten` — conditions can be joined in groups
* `Condition.product_and_assoc_conjoin` — what is read back, and how conditions can be grouped
-/

namespace Parley.Condition

variable {a b c : Option Text} {s t : Text} {ls ms rs : List (List Text)}

theorem product_assoc (ls ms rs : List (List Text)) :
    product (product ls ms) rs = product ls (product ms rs) := by
  simp only [product, List.flatMap_assoc, List.flatMap_map, List.map_flatMap, List.map_map,
    Function.comp_def, List.append_assoc]

/-! ### Which conditions are written out -/

theorem conjoin_of_isBlank_left (ha : isBlank a = true) : conjoin a b = b := by
  rcases conjoin_cases a b with ⟨-, h⟩ | ⟨hwritten, -, -⟩ | ⟨s, t, rfl, -, hs, -, -⟩
  · exact h
  · cases ha.symm.trans hwritten
  · cases hs.symm.trans ha

theorem conjoin_of_isBlank_right (ha : isBlank a = false) (hb : isBlank b = true) :
    conjoin a b = a := by
  rcases conjoin_cases a b with ⟨hblank, -⟩ | ⟨-, -, h⟩ | ⟨s, t, -, rfl, -, ht, -⟩
  · cases hblank.symm.trans ha
  · exact h
  · cases ht.symm.trans hb

theorem conjoin_some_some (hs : s.isAllBlank = false) (ht : t.isAllBlank = false) :
    conjoin (some s) (some t) = some (ofGroups (product (groups s) (groups t))) := by
  simp [conjoin, hs, ht]

theorem isBlank_conjoin (a b : Option Text) :
    isBlank (conjoin a b) = (isBlank a && isBlank b) := by
  rcases conjoin_cases a b with ⟨ha, h⟩ | ⟨ha, hb, h⟩ | ⟨s, t, rfl, rfl, hs, ht, h⟩
  · rw [h, ha, Bool.true_and]
  · rw [h, ha, hb, Bool.false_and]
  · rw [h, isBlank, isBlank, isBlank, isAllBlank_ofGroups_product, hs, ht, Bool.false_and]

theorem exists_of_isBlank_eq_false (h : isBlank a = false) :
    ∃ s, a = some s ∧ s.isAllBlank = false := by
  rcases a with _ | s
  · cases h
  · exact ⟨s, rfl, h⟩

/-! ### Associativity -/

/-- **Conjunction is associative, as text.** -/
theorem conjoin_assoc (a b c : Option Text) :
    conjoin (conjoin a b) c = conjoin a (conjoin b c) := by
  rcases ha : isBlank a
  · rcases hb : isBlank b
    · rcases hc : isBlank c
      · obtain ⟨s, rfl, hs⟩ := exists_of_isBlank_eq_false ha
        obtain ⟨t, rfl, ht⟩ := exists_of_isBlank_eq_false hb
        obtain ⟨u, rfl, hu⟩ := exists_of_isBlank_eq_false hc
        -- what is joined once is written out again, so both sides are joined by product twice
        rw [conjoin_some_some hs ht, conjoin_some_some ht hu,
          conjoin_some_some (isAllBlank_ofGroups_product s t) hu,
          conjoin_some_some hs (isAllBlank_ofGroups_product t u), groups_conjoin, groups_conjoin,
          product_assoc]
      · have hab : isBlank (conjoin a b) = false := by rw [isBlank_conjoin, ha, Bool.false_and]
        rw [conjoin_of_isBlank_right hab hc, conjoin_of_isBlank_right hb hc]
    · rw [conjoin_of_isBlank_right ha hb, conjoin_of_isBlank_left hb]
  · rw [conjoin_of_isBlank_left ha, conjoin_of_isBlank_left ha]

instance : Std.Associative conjoin := ⟨conjoin_assoc⟩

/-! ### Conditions in a row -/

/-- The conjunction of conditions, joined from the first to the last. -/
def conjoinAll (cs : List (Option Text)) : Option Text := cs.foldl conjoin none

theorem foldl_conjoin {cs : List (Option Text)} (hcs : cs ≠ []) (a : Option Text) :
    cs.foldl conjoin a = conjoin a (conjoinAll cs) := by
  obtain ⟨c, cs, rfl⟩ := List.exists_cons_of_ne_nil hcs
  exact List.foldl_assoc

/-- **Conditions can be joined in groups.** No group is empty, since a blank condition joined with
an absent one would be lost. -/
theorem conjoinAll_flatten {gs : List (List (Option Text))} (hgs : [] ∉ gs) :
    conjoinAll gs.flatten = conjoinAll (gs.map conjoinAll) := by
  -- generalised over what has been joined before, which associativity lets a group wait for
  have hfold (a : Option Text) :
      gs.flatten.foldl conjoin a = (gs.map conjoinAll).foldl conjoin a := by
    induction gs generalizing a with
    | nil => rfl
    | cons g gs ih =>
      rw [List.mem_cons, not_or] at hgs
      rw [List.flatten_cons, List.foldl_append, foldl_conjoin (Ne.symm hgs.1), ih hgs.2,
        List.map_cons, List.foldl_cons]
  exact hfold none

/-- The condition of a node is the conjunction of the conditions after it. -/
theorem conditionAfter_eq (after : List Line) :
    Outline.conditionAfter after =
      conjoinAll (((after.takeWhile fun l => !l.addsNode).filterMap Line.condition?).map some) :=
  List.foldl_map.symm

/-- **Conjunction is the product of the alternatives, and does not depend on grouping.** Reading a
conjunction gives every alternative of the first condition extended by every one of the second, the
first varying slowest. Three conditions are joined to the same text either way, so the conditions
after a node may be joined in groups before they are given to it. -/
theorem product_and_assoc_conjoin :
    (∀ s t : Text, s.isAllBlank = false → t.isAllBlank = false →
      ∃ u, conjoin (some s) (some t) = some u ∧
        groups u = (groups s).flatMap fun l => (groups t).map fun r => l ++ r) ∧
    (∀ a b c, conjoin (conjoin a b) c = conjoin a (conjoin b c)) ∧
    ∀ (after : List Line) (gs : List (List Text)), [] ∉ gs →
      gs.flatten = (after.takeWhile fun l => !l.addsNode).filterMap Line.condition? →
        Outline.conditionAfter after = conjoinAll (gs.map fun g => conjoinAll (g.map some)) := by
  refine ⟨fun s t hs ht => ⟨_, conjoin_some_some hs ht, groups_conjoin s t⟩, conjoin_assoc,
    fun after gs hgs hafter => ?_⟩
  have hsome : [] ∉ gs.map (List.map some) := by simpa using hgs
  calc Outline.conditionAfter after
      = conjoinAll (gs.flatten.map some) := by rw [conditionAfter_eq, hafter]
    _ = conjoinAll (gs.map (List.map some)).flatten := by rw [List.map_flatten]
    _ = conjoinAll (gs.map fun g => conjoinAll (g.map some)) := by
      rw [conjoinAll_flatten hsome, List.map_map]
      rfl

/-- What a script has after a node, up to the next one and beyond. -/
def tolls : List Line :=
  [.condition "gold > 5 || guest == true".toList, .changes ["gold -= 5".toList],
    .condition "&& hour < 9 || bell == true".toList, .condition "open == true".toList,
    .spoken "Come in.".toList, .condition "late == true".toList]

theorem product_and_assoc_conjoin_tolls :
    (∃ u, conjoin (some "gold > 5 || guest == true".toList)
        (some "&& hour < 9 || bell == true".toList) = some u ∧
      groups u =
        [["gold > 5".toList, [], "hour < 9".toList], ["gold > 5".toList, "bell == true".toList],
          ["guest == true".toList, [], "hour < 9".toList],
          ["guest == true".toList, "bell == true".toList]]) ∧
      Outline.conditionAfter tolls =
        conjoinAll
          [some "gold > 5 || guest == true".toList,
            conjoinAll [some "&& hour < 9 || bell == true".toList,
              some "open == true".toList]] := by
  obtain ⟨hproduct, -, hgrouped⟩ := product_and_assoc_conjoin
  obtain ⟨u, hu, hgroups⟩ := hproduct "gold > 5 || guest == true".toList
    "&& hour < 9 || bell == true".toList (by decide) (by decide)
  exact ⟨⟨u, hu, hgroups.trans (by decide)⟩,
    hgrouped tolls [["gold > 5 || guest == true".toList],
      ["&& hour < 9 || bell == true".toList, "open == true".toList]] (by decide) (by decide)⟩

end Parley.Condition
