import Parley.Proofs.Condition.Conjoin
import Parley.Proofs.Literal
import Parley.Proofs.Script.Following

/-!
# Scripts without long numbers

Expressions come out of a script by cutting it to pieces. A piece may get something put behind it,
a comparison with a truth value or the assignment of one, and conditions are joined to conditions;
but no digits are ever put next to each other. So an expression with a number that is too long
stands in the script with all its digits, and a script without such a run of digits has a readable
story.

## Main definitions

* `Text.HasLongNumber` — a text with a run of more than `maxDigits` digits
* `Line.Readable` — a line with readable expressions

## Main results

* `Line.readable_read` — the meaning of a line without long numbers
* `Reading.readable_ofText` — the story of a text without long numbers
-/

namespace Parley

namespace Text

variable {t u : Text}

/-- More decimal digits stand next to each other than a number may have. -/
def HasLongNumber (t : Text) : Prop :=
  ∃ u, u <:+: t ∧ maxDigits < u.length ∧ ∀ c ∈ u, isDecimalDigit c = true

theorem HasLongNumber.of_isInfix (h : t.HasLongNumber) (htu : t <:+: u) : u.HasLongNumber := by
  obtain ⟨v, hv, hlong, hdigits⟩ := h
  exact ⟨v, hv.trans htu, hlong, hdigits⟩

/-- Putting something without digits behind a text makes no long number. -/
theorem HasLongNumber.of_append (h : (t ++ u).HasLongNumber) (hu : u.any isDecimalDigit = false) :
    t.HasLongNumber := by
  induction u using List.reverseRecOn with
  | nil => rwa [List.append_nil] at h
  | append_singleton u c ih =>
    rw [List.any_append, List.any_cons, List.any_nil, Bool.or_false, Bool.or_eq_false_iff] at hu
    refine ih ?_ hu.1
    obtain ⟨v, hv, hlong, hdigits⟩ := h
    rw [← List.append_assoc, List.infix_concat_iff] at hv
    refine ⟨v, hv.resolve_left fun hend => ?_, hlong, hdigits⟩
    -- a run at the very end would have `c` for its last digit
    rcases List.suffix_concat_iff.mp hend with rfl | ⟨w, rfl, -⟩
    · exact absurd hlong (Nat.not_lt_zero _)
    · have hc := hdigits c (List.mem_append_right _ List.mem_cons_self)
      cases hu.2.symm.trans hc

/-! ### Pieces of a text -/

theorem isInfix_of_mem_splitOnP {p : Char → Bool} (h : u ∈ t.splitOnP p) : u <:+: t := by
  have hall (t : Text) : ∃ v vs, t.splitOnP p = v :: vs ∧ v <+: t ∧ ∀ w ∈ vs, w <:+: t := by
    induction t with
    | nil => exact ⟨[], [], rfl, List.nil_prefix, nofun⟩
    | cons c t ih =>
      obtain ⟨v, vs, hsplit, hv, hvs⟩ := ih
      rw [List.splitOnP_cons_eq_if_modifyHead, hsplit]
      split
      · exact ⟨[], v :: vs, rfl, List.nil_prefix, List.forall_mem_cons.mpr
          ⟨hv.isInfix.trans (List.suffix_cons c t).isInfix,
            fun w hw => (hvs w hw).trans (List.suffix_cons c t).isInfix⟩⟩
      · exact ⟨c :: v, vs, rfl, List.cons_prefix_cons.mpr ⟨rfl, hv⟩,
          fun w hw => (hvs w hw).trans (List.suffix_cons c t).isInfix⟩
  obtain ⟨v, vs, hsplit, hv, hvs⟩ := hall t
  rw [hsplit] at h
  rcases List.mem_cons.mp h with rfl | h
  · exact hv.isInfix
  · exact hvs u h

theorem isInfix_of_mem_words (h : u ∈ t.words) : u <:+: t :=
  isInfix_of_mem_splitOnP (List.mem_of_mem_filter h)

theorem isInfix_of_mem_splitOn {c : Char} (h : u ∈ t.splitOn c) : u <:+: t :=
  isInfix_of_mem_splitOnP h

theorem cut_fst_isPrefix (c : Char) (t : Text) : (t.cut c).1 <+: t := by
  induction t with
  | nil => exact List.prefix_rfl
  | cons d t ih =>
    rw [cut]
    split
    · exact List.nil_prefix
    · exact List.cons_prefix_cons.mpr ⟨rfl, ih⟩

theorem cut_snd_isSuffix (c : Char) (t : Text) : (t.cut c).2.getD [] <:+ t := by
  induction t with
  | nil => exact List.suffix_rfl
  | cons d t ih =>
    rw [cut]
    split
    · exact List.suffix_cons d t
    · exact ih.trans (List.suffix_cons d t)

theorem cutPair_snd_isSuffix {a b : Char} (h : (t.cutPair a b).2 = some u) : u <:+ t := by
  fun_induction cutPair a b t with
  | case1 => cases h
  | case2 => cases h
  | case3 c d t hpair => exact Option.some.inj h ▸ List.suffix_append [c, d] t
  | case4 c d t hpair rest ih => exact (ih h).trans (List.suffix_cons c _)

theorem argument_isInfix (t : Text) : t.argument <:+: t :=
  (strip_isInfix _).trans (List.dropWhile_suffix _).isInfix

end Text

/-! ### Expressions -/

/-- The digits of an overlong number stand next to each other. -/
theorem Literal.hasLongNumber_of_isOverlong {t : Text} (h : isOverlong t = true) :
    t.HasLongNumber := by
  rw [isOverlong] at h
  split at h
  · next negative ds hnumeral =>
    obtain ⟨digits, hspells, rfl⟩ := numeral?_eq_some_iff.mp hnumeral
    obtain ⟨sign, -, ending, -, rfl⟩ := hspells.eq_append
    have hlong := of_decide_eq_true h
    rw [hspells.length_filterMap] at hlong
    exact ⟨digits, List.infix_append sign digits ending, hlong, hspells.isDigit⟩
  · cases h

theorem Text.hasOverlongValue_eq_false {t : Text} (h : ¬ t.HasLongNumber) :
    t.hasOverlongValue = false := by
  rw [hasOverlongValue]
  split
  · next name operation value hwords =>
    refine Bool.eq_false_iff.mpr fun hlong => h ?_
    have hvalue : value ∈ t.words := by simp [hwords]
    exact (Literal.hasLongNumber_of_isOverlong hlong).of_isInfix (isInfix_of_mem_words hvalue)
  · rfl

theorem Condition.readable_of_not_hasLongNumber {t : Text} (h : ¬ t.HasLongNumber) :
    Readable (some t) := by
  intro u hu atom hatom
  obtain rfl := Option.some.inj hu
  obtain ⟨g, hg, hatom⟩ := List.mem_flatten.mp hatom
  obtain ⟨group, hgroup, rfl⟩ := List.mem_map.mp hg
  obtain ⟨piece, hpiece, rfl⟩ := List.mem_map.mp hatom
  refine Text.hasOverlongValue_eq_false fun hlong => h (hlong.of_isInfix ?_)
  exact (Text.strip_isInfix piece).trans
    ((Text.isInfix_of_mem_splitPair hpiece).trans (Text.isInfix_of_mem_splitPair hgroup))

/-! ### Lines -/

namespace Line

variable {t : Text}

/-- No expression on the line has an overlong value. -/
def Readable : Line → Prop
  | option c => c.Readable
  | changes es => ∀ e ∈ es, e.hasOverlongValue = false
  | condition c => Condition.Readable (some c)
  | _ => True

theorem readChanges_of_not_hasLongNumber (h : ¬ t.HasLongNumber) :
    ∀ e ∈ readChanges t, e.hasOverlongValue = false := by
  intro e he
  obtain ⟨piece, hpiece, rfl⟩ := List.mem_map.mp (List.mem_of_mem_filter he)
  refine Text.hasOverlongValue_eq_false fun hlong => h (hlong.of_isInfix ?_)
  exact (Text.strip_isInfix piece).trans (Text.isInfix_of_mem_splitOn hpiece)

theorem readable_nonempty? (h : ¬ t.HasLongNumber) : Condition.Readable (nonempty? t) := by
  rw [nonempty?]
  split
  · exact Condition.readable_none
  · exact Condition.readable_of_not_hasLongNumber h

theorem readable_readOption {right : Text} (h : ¬ right.HasLongNumber) (left : Text) :
    (readOption left right).Readable := by
  have htarget := (Text.cut_snd_isSuffix '|' right).isInfix
  exact
    { condition := readable_nonempty? fun hlong => h (hlong.of_isInfix
        ((Text.strip_isInfix _).trans ((Text.cut_snd_isSuffix '|' _).isInfix.trans htarget)))
      changes := readChanges_of_not_hasLongNumber fun hlong => h (hlong.of_isInfix
        ((Text.cut_fst_isPrefix '|' _).isInfix.trans htarget)) }

theorem readable_readDirective {argument : Text} (h : ¬ argument.HasLongNumber) (keyword : Text) :
    (readDirective keyword argument).Readable := by
  have hbehind {u : Text} (hu : u.any isDecimalDigit = false) :
      ¬ (argument ++ u).HasLongNumber := fun hlong => h (hlong.of_append hu)
  have hchanges := readChanges_of_not_hasLongNumber h
  fun_cases readDirective keyword argument with
  | case1 | case3 | case5 | case7 | case9 | case11 | case12 => trivial
  | case2 => exact hchanges
  | case4 =>
    exact List.forall_mem_singleton.mpr (Text.hasOverlongValue_eq_false (hbehind (by decide)))
  | case6 => exact Condition.readable_of_not_hasLongNumber h
  | case8 => exact Condition.readable_of_not_hasLongNumber (hbehind (by decide))
  | case10 => exact Condition.readable_of_not_hasLongNumber (hbehind (by decide))

theorem readable_readContent (h : ¬ t.HasLongNumber) : (readContent t).Readable := by
  fun_cases readContent t with
  | case1 | case2 => trivial
  | case3 _ _ left right hcut =>
    refine readable_readOption (fun hlong => h (hlong.of_isInfix ?_)) left
    exact (Text.cutPair_snd_isSuffix (congrArg Prod.snd hcut)).isInfix
  | case4 =>
    exact readable_readDirective (fun hlong => h (hlong.of_isInfix (Text.argument_isInfix t))) _

/-- **A line without long numbers has readable expressions.** -/
theorem readable_read (h : ¬ t.HasLongNumber) : (read t).Readable := by
  fun_cases read t with
  | case1 | case2 | case3 | case4 => trivial
  | case5 => exact readable_readContent h

end Line

/-! ### Stories -/

namespace Outline

variable {ls : List Line}

theorem readable_conditionAfter (h : ∀ l ∈ ls, l.Readable) :
    Condition.Readable (conditionAfter ls) := by
  have hfold (cs : List Text) (c : Option Text) (hc : Condition.Readable c)
      (hcs : ∀ d ∈ cs, Condition.Readable (some d)) :
      Condition.Readable (cs.foldl (fun c d => Condition.conjoin c (some d)) c) := by
    induction cs generalizing c with
    | nil => exact hc
    | cons d cs ih =>
      rw [List.forall_mem_cons] at hcs
      exact ih _ (hc.conjoin hcs.1) hcs.2
  refine hfold _ _ Condition.readable_none fun d hd => ?_
  obtain ⟨l, hl, hcondition⟩ := List.mem_filterMap.mp hd
  have hread := h l (List.takeWhile_prefix _ |>.subset hl)
  cases l with
  | condition c => exact Option.some.inj hcondition ▸ hread
  | _ => cases hcondition

theorem hasOverlongValue_of_mem_changesAfter (h : ∀ l ∈ ls, l.Readable) :
    ∀ e ∈ changesAfter ls, e.hasOverlongValue = false := by
  intro e he
  obtain ⟨l, hl, he⟩ := List.mem_flatMap.mp he
  have hread := h l (List.takeWhile_prefix _ |>.subset hl)
  cases l with
  | changes es => exact hread e he
  | _ => cases he

theorem readable_of_mem_optionsAfter (h : ∀ l ∈ ls, l.Readable) :
    ∀ c ∈ optionsAfter ls, c.Readable := by
  intro c hc
  obtain ⟨l, hl, hoption⟩ := List.mem_filterMap.mp hc
  have hread := h l (List.takeWhile_prefix _ |>.subset hl)
  cases l with
  | option c => exact Option.some.inj hoption ▸ hread
  | _ => cases hoption

theorem readable_of_mem_nodes (before : List Line) (h : ∀ l ∈ ls, l.Readable) :
    ∀ n ∈ nodes before ls, n.Readable := by
  induction ls generalizing before with
  | nil => exact nofun
  | cons l ls ih =>
    rw [List.forall_mem_cons] at h
    intro n hn
    rcases List.mem_append.mp hn with hn | hn
    · have hcondition := readable_conditionAfter h.2
      have hchanges := hasOverlongValue_of_mem_changesAfter h.2
      have hnode := Option.mem_toList.mp hn
      cases l with
      | spoken text => exact Option.some.inj hnode ▸ ⟨hcondition, hchanges, nofun⟩
      | choice =>
        exact Option.some.inj hnode ▸ ⟨hcondition, hchanges, readable_of_mem_optionsAfter h.2⟩
      | _ => cases hnode
    · exact ih _ h.2 n hn

theorem readable_of_mem_nodesOf (id : Text) (h : ∀ l ∈ ls, l.Readable) :
    ∀ n ∈ nodesOf id ls, n.Readable := by
  refine readable_of_mem_nodes _ fun l hl => h l ?_
  exact (List.rtakeWhile_suffix _ _).subset ((List.takeWhile_prefix _).subset hl)

end Outline

/-- **The story of a text without long numbers is readable.** -/
theorem Reading.readable_ofText {t : Text} (h : ¬ t.HasLongNumber) : (ofText t).story.Readable := by
  have hlines : ∀ l ∈ (linesOf t).map Line.read, l.Readable := by
    intro l hl
    obtain ⟨line, hline, rfl⟩ := List.mem_map.mp hl
    obtain ⟨piece, hpiece, rfl⟩ := List.mem_map.mp hline
    refine Line.readable_read fun hlong => h (hlong.of_isInfix ?_)
    exact (Text.strip_isInfix piece).trans (Text.isInfix_of_mem_splitOn hpiece)
  intro e he
  have hentries := (follows_start.steps 1 (linesOf t)).entries
  rw [List.nil_append] at hentries
  rw [show (ofText t).story.entries = _ from hentries] at he
  obtain ⟨id, -, rfl⟩ := List.mem_map.mp he
  exact Outline.readable_of_mem_nodesOf id hlines

end Parley
