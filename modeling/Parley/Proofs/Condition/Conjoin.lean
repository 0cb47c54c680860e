import Parley.Condition.Conjoin
import Parley.Proofs.Readable

/-!
# What the conjunction of two conditions means

The conjunction is a text, and whoever evaluates it splits that text again. So the first half of
this file is about texts: writing down alternatives and reading them back is lossless as long as no
atom carries a blank at its ends or a separator inside (`WellCut`). Whatever `groups` has cut out of
a text is of that kind, stray separators and empty atoms included, and the product of two such lists
is again.

The second half is Boolean algebra: conjunction distributes over the alternatives.

## Main definitions

* `Condition.WellCut`

## Main results

* `Condition.groups_ofGroups` — reading back what was written
* `Condition.groups_conjoin` — the alternatives of a conjunction are the product
* `Condition.holds_conjoin_and_isValid_conjoin` — conjunction means "and", for evaluation and for
  the check of the syntax
-/

namespace Parley.Condition

variable {g : Text} {ls rs : List (List Text)}

/-! ### Alternatives as text -/

/-- The stripped atoms of one alternative. -/
def atomsOf (g : Text) : List Text := (g.splitPair '&' '&').map Text.strip

theorem groups_eq (c : Text) : groups c = (c.splitPair '|' '|').map atomsOf := rfl

theorem atomsOf_ne_nil (g : Text) : atomsOf g ≠ [] := by
  simpa [atomsOf] using Text.splitPair_ne_nil '&' '&' g

theorem atomsOf_space_cons (g : Text) : atomsOf (' ' :: g) = atomsOf g := by
  rw [atomsOf, Text.splitPair_cons_of_ne (by decide), atomsOf]
  rcases hs : g.splitPair '&' '&' with _ | ⟨t, ts⟩
  · exact absurd hs (Text.splitPair_ne_nil '&' '&' g)
  · rw [Text.consFirst, List.map_cons, Text.strip_cons (by decide), List.map_cons]

theorem atomsOf_concat_space (g : Text) : atomsOf (g ++ [' ']) = atomsOf g := by
  obtain ⟨ts, u, hg, hgs⟩ := Text.splitPair_concat_of_ne (c := ' ') (a := '&') (b := '&')
    (by decide) g
  rw [atomsOf, hgs, atomsOf, hg, List.map_append, List.map_append, List.map_singleton,
    Text.strip_concat (by decide), List.map_singleton]

/-- An atom as `groups` cuts it out: no blanks at its ends and no separator inside. -/
structure WellCutAtom (atom : Text) : Prop where
  stripped : atom.strip = atom
  no_and : Text.PairFree '&' '&' atom
  no_or : Text.PairFree '|' '|' atom

/-- Alternatives as `groups` cuts them out: there is one at least, and each has an atom. -/
structure WellCut (gs : List (List Text)) : Prop where
  ne_nil : gs ≠ []
  group_ne_nil : ∀ g ∈ gs, g ≠ []
  atom : ∀ g ∈ gs, ∀ atom ∈ g, WellCutAtom atom

theorem wellCut_groups (c : Text) : WellCut (groups c) where
  ne_nil := by simpa [groups_eq] using Text.splitPair_ne_nil '|' '|' c
  group_ne_nil g hg := by
    obtain ⟨t, -, rfl⟩ := List.mem_map.mp hg
    exact atomsOf_ne_nil t
  atom g hg atom ha := by
    obtain ⟨t, ht, rfl⟩ := List.mem_map.mp hg
    obtain ⟨u, hu, rfl⟩ := List.mem_map.mp ha
    have hut : u <:+: t := Text.isInfix_of_mem_splitPair hu
    exact ⟨Text.strip_strip u,
      (Text.pairFree_of_mem_splitPair hu).of_isInfix (Text.strip_isInfix u),
      (Text.pairFree_of_mem_splitPair ht).of_isInfix ((Text.strip_isInfix u).trans hut)⟩

theorem mem_product {g : List Text} :
    g ∈ product ls rs ↔ ∃ l ∈ ls, ∃ r ∈ rs, l ++ r = g := by
  simp [product]

theorem WellCut.product (hl : WellCut ls) (hr : WellCut rs) : WellCut (product ls rs) where
  ne_nil := by
    obtain ⟨l, hl⟩ := List.exists_mem_of_ne_nil _ hl.ne_nil
    obtain ⟨r, hr⟩ := List.exists_mem_of_ne_nil _ hr.ne_nil
    exact List.ne_nil_of_mem (mem_product.mpr ⟨l, hl, r, hr, rfl⟩)
  group_ne_nil g hg := by
    obtain ⟨l, hlm, r, -, rfl⟩ := mem_product.mp hg
    simp [hl.group_ne_nil l hlm]
  atom g hg atom ha := by
    obtain ⟨l, hlm, r, hrm, rfl⟩ := mem_product.mp hg
    rcases List.mem_append.mp ha with ha | ha
    · exact hl.atom l hlm atom ha
    · exact hr.atom r hrm atom ha

theorem atomsOf_join {as : List Text} (hne : as ≠ []) (h : ∀ atom ∈ as, WellCutAtom atom) :
    atomsOf (Text.join " && ".toList as) = as := by
  have hsplit := Text.map_splitPair_join (a := '&') (f := Text.strip) (by decide)
    (fun _ => Text.strip_cons (by decide)) (fun _ => Text.strip_concat (by decide)) hne
    fun atom ha => (h atom ha).no_and
  have hstrip : as.map Text.strip = as := by
    conv_rhs => rw [← List.map_id as]
    exact List.map_congr_left fun atom ha => (h atom ha).stripped
  rw [hstrip] at hsplit
  exact hsplit

/-- **Reading back what was written.** -/
theorem groups_ofGroups {gs : List (List Text)} (h : WellCut gs) : groups (ofGroups gs) = gs := by
  have hne : gs.map (Text.join " && ".toList) ≠ [] := by simpa using h.ne_nil
  have hfree : ∀ t ∈ gs.map (Text.join " && ".toList), Text.PairFree '|' '|' t := by
    intro t ht
    obtain ⟨g, hg, rfl⟩ := List.mem_map.mp ht
    exact Text.pairFree_join (Text.pairFree_of_not_mem (by decide)) (by decide) (by decide)
      (by decide) fun atom ha => (h.atom g hg atom ha).no_or
  have hsplit := Text.map_splitPair_join (by decide) atomsOf_space_cons atomsOf_concat_space hne
    hfree
  have hatoms : gs.map (atomsOf ∘ Text.join " && ".toList) = gs := by
    conv_rhs => rw [← List.map_id gs]
    exact List.map_congr_left fun g hg => atomsOf_join (h.group_ne_nil g hg) (h.atom g hg)
  rw [List.map_map, hatoms] at hsplit
  exact hsplit

/-! ### The conjunction as text -/

/-- What `conjoin` does, by which of the two conditions are blank. -/
theorem conjoin_cases (a b : Option Text) :
    (isBlank a = true ∧ conjoin a b = b) ∨
    (isBlank a = false ∧ isBlank b = true ∧ conjoin a b = a) ∨
    ∃ s t, a = some s ∧ b = some t ∧ s.isAllBlank = false ∧ t.isAllBlank = false ∧
      conjoin a b = some (ofGroups (product (groups s) (groups t))) := by
  rcases a with _ | s
  · exact .inl ⟨rfl, rfl⟩
  · rcases hs : s.isAllBlank
    · rcases b with _ | t
      · exact .inr (.inl ⟨hs, rfl, by rw [conjoin, isBlank, if_neg (by simp [hs])]⟩)
      · rcases ht : t.isAllBlank
        · exact .inr (.inr ⟨s, t, rfl, rfl, hs, ht, by simp [conjoin, hs, ht]⟩)
        · exact .inr (.inl ⟨hs, ht, by simp [conjoin, hs, ht]⟩)
    · refine .inl ⟨hs, ?_⟩
      rcases b with _ | t <;> simp [conjoin, isBlank, hs]

/-- The alternatives of a conjunction are those of the two conditions, each with each. -/
theorem groups_conjoin (s t : Text) :
    groups (ofGroups (product (groups s) (groups t))) = product (groups s) (groups t) :=
  groups_ofGroups ((wellCut_groups s).product (wellCut_groups t))

/-- A conjunction that was written out is not blank: each of its alternatives has two atoms. -/
theorem isAllBlank_ofGroups_product (s t : Text) :
    (ofGroups (product (groups s) (groups t))).isAllBlank = false := by
  by_contra h
  have hblank := groups_of_isAllBlank (Bool.not_eq_false _ ▸ h)
  rw [groups_conjoin] at hblank
  have hmem : [[]] ∈ product (groups s) (groups t) := hblank ▸ List.mem_singleton_self _
  obtain ⟨l, hl, r, hr, hlr⟩ := mem_product.mp hmem
  have hlpos := List.length_pos_iff.mpr ((wellCut_groups s).group_ne_nil l hl)
  have hrpos := List.length_pos_iff.mpr ((wellCut_groups t).group_ne_nil r hr)
  have hlen := congrArg List.length hlr
  rw [List.length_append, List.length_singleton] at hlen
  omega

/-! ### The conjunction as a condition -/

theorem value_of_isBlank {c : Option Text} (s : Store) (h : isBlank c = true) :
    value s c = true := by
  rcases c with _ | t
  · rfl
  · rw [value, show t.isAllBlank = true from h, Bool.true_or]

theorem wellFormed_of_isBlank {c : Option Text} (h : isBlank c = true) : wellFormed c = true := by
  rcases c with _ | t
  · rfl
  · rw [wellFormed, show t.isAllBlank = true from h, Bool.true_or]

/-- Conjunction distributes over alternatives. -/
theorem any_all_product (p : Text → Bool) (ls rs : List (List Text)) :
    ((product ls rs).any fun g => g.all p) =
      ((ls.any fun g => g.all p) && rs.any fun g => g.all p) := by
  rw [Bool.eq_iff_iff, Bool.and_eq_true]
  simp only [List.any_eq_true]
  constructor
  · rintro ⟨g, hg, hp⟩
    obtain ⟨l, hl, r, hr, rfl⟩ := mem_product.mp hg
    rw [List.all_append, Bool.and_eq_true] at hp
    exact ⟨⟨l, hl, hp.1⟩, r, hr, hp.2⟩
  · rintro ⟨⟨l, hl, hlp⟩, r, hr, hrp⟩
    exact ⟨l ++ r, mem_product.mpr ⟨l, hl, r, hr, rfl⟩, by rw [List.all_append, hlp, hrp]; rfl⟩

/-- The product has the atoms of both lists, since neither list is empty. -/
theorem mem_flatten_product {atom : Text} (hl : ls ≠ []) (hr : rs ≠ []) :
    atom ∈ (product ls rs).flatten ↔ atom ∈ ls.flatten ∨ atom ∈ rs.flatten := by
  simp only [List.mem_flatten]
  constructor
  · rintro ⟨g, hg, ha⟩
    obtain ⟨l, hl, r, hr, rfl⟩ := mem_product.mp hg
    rcases List.mem_append.mp ha with ha | ha
    · exact .inl ⟨l, hl, ha⟩
    · exact .inr ⟨r, hr, ha⟩
  · rintro (⟨l, hlm, ha⟩ | ⟨r, hrm, ha⟩)
    · obtain ⟨r, hrm⟩ := List.exists_mem_of_ne_nil _ hr
      exact ⟨l ++ r, mem_product.mpr ⟨l, hlm, r, hrm, rfl⟩, List.mem_append_left _ ha⟩
    · obtain ⟨l, hlm⟩ := List.exists_mem_of_ne_nil _ hl
      exact ⟨l ++ r, mem_product.mpr ⟨l, hlm, r, hrm, rfl⟩, List.mem_append_right _ ha⟩

theorem value_conjoin (s : Store) (a b : Option Text) :
    value s (conjoin a b) = (value s a && value s b) := by
  rcases conjoin_cases a b with ⟨ha, hab⟩ | ⟨-, hb, hab⟩ | ⟨t, u, rfl, rfl, ht, hu, hab⟩
  · rw [hab, value_of_isBlank s ha, Bool.true_and]
  · rw [hab, value_of_isBlank s hb, Bool.and_true]
  · simp only [hab, value, groups_conjoin, isAllBlank_ofGroups_product, ht, hu, Bool.false_or,
      any_all_product]

theorem wellFormed_conjoin (a b : Option Text) :
    wellFormed (conjoin a b) = (wellFormed a && wellFormed b) := by
  rcases conjoin_cases a b with ⟨ha, hab⟩ | ⟨-, hb, hab⟩ | ⟨t, u, rfl, rfl, ht, hu, hab⟩
  · rw [hab, wellFormed_of_isBlank ha, Bool.true_and]
  · rw [hab, wellFormed_of_isBlank hb, Bool.and_true]
  · have hmem (atom : Text) :
        atom ∈ (product (groups t) (groups u)).flatten ↔
          atom ∈ (groups t).flatten ∨ atom ∈ (groups u).flatten :=
      mem_flatten_product (wellCut_groups t).ne_nil (wellCut_groups u).ne_nil
    simp only [hab, wellFormed, groups_conjoin, isAllBlank_ofGroups_product, ht, hu, Bool.false_or]
    rw [Bool.eq_iff_iff, Bool.and_eq_true]
    simp only [List.all_eq_true, hmem]
    exact ⟨fun h => ⟨fun atom ha => h atom (.inl ha), fun atom ha => h atom (.inr ha)⟩,
      fun h atom ha => ha.elim (h.1 atom) (h.2 atom)⟩

theorem Readable.conjoin {a b : Option Text} (ha : Readable a) (hb : Readable b) :
    Readable (conjoin a b) := by
  rcases conjoin_cases a b with ⟨-, hab⟩ | ⟨-, -, hab⟩ | ⟨t, u, rfl, rfl, -, -, hab⟩
  · rwa [hab]
  · rwa [hab]
  · intro w hw atom hatom
    rw [hab, Option.mem_some_iff] at hw
    rw [← hw, groups_conjoin,
      mem_flatten_product (wellCut_groups t).ne_nil (wellCut_groups u).ne_nil] at hatom
    exact hatom.elim (ha t rfl atom) (hb u rfl atom)

/-- **Conjunction means "and".** Evaluating the conjunction of two readable conditions, and checking
its syntax, gives what the two conditions give, whatever the texts look like. -/
theorem holds_conjoin_and_isValid_conjoin {a b : Option Text} (ha : Readable a) (hb : Readable b)
    (s : Store) :
    (∃ x y, holds s a = .ok x ∧ holds s b = .ok y ∧ holds s (conjoin a b) = .ok (x && y)) ∧
      ∃ x y, isValid a = .ok x ∧ isValid b = .ok y ∧ isValid (conjoin a b) = .ok (x && y) := by
  refine ⟨⟨value s a, value s b, holds_of_readable s ha, holds_of_readable s hb, ?_⟩,
    ⟨wellFormed a, wellFormed b, isValid_of_readable ha, isValid_of_readable hb, ?_⟩⟩
  · rw [holds_of_readable s (ha.conjoin hb), value_conjoin]
  · rw [isValid_of_readable (ha.conjoin hb), wellFormed_conjoin]

theorem conjoin_of_stray_separators :
    Readable (some "gold >= 10 ||| luck > 0 || cheat == true".toList) ∧
      Readable (some "&&& met == false".toList) ∧
      (∃ x y, holds .empty (some "gold >= 10 ||| luck > 0 || cheat == true".toList) = .ok x ∧
        holds .empty (some "&&& met == false".toList) = .ok y ∧
        holds .empty (conjoin (some "gold >= 10 ||| luck > 0 || cheat == true".toList)
          (some "&&& met == false".toList)) = .ok (x && y)) ∧
      ∃ x y, isValid (some "gold >= 10 ||| luck > 0 || cheat == true".toList) = .ok x ∧
        isValid (some "&&& met == false".toList) = .ok y ∧
        isValid (conjoin (some "gold >= 10 ||| luck > 0 || cheat == true".toList)
          (some "&&& met == false".toList)) = .ok (x && y) :=
  ⟨by decide, by decide, holds_conjoin_and_isValid_conjoin (by decide) (by decide) .empty⟩

end Parley.Condition
