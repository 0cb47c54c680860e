import Mathlib.Data.Nat.Digits.Lemmas
import Parley.Literal

/-!
# What literals mean

A number is recognised by taking a text apart, from both its ends: the sign, then a line feed at the
end, and what is left has to be digits. That says how a number is found and not what it looks like.
Here it is put together instead: `Literal.Spells` says which texts are written for a sign and some
digits, and reading is shown to accept those and no others. Digits are of any script, so their value
is a place value of what the characters stand for and has nothing to do with how they are encoded.

## Main definitions

* `Literal.Spells` — what a number looks like
* `Literal.placeValue` — what its digits are worth
* `Literal.IsCaseVariant` — a word in any mix of ASCII cases

## Main results

* `Literal.numeral?_eq_some_iff`, `Literal.truth?_eq_some_iff`
* `Literal.placeValue_padded` — the digits a number is printed with are worth the number
* `Literal.reads_exactly` — what is read, and that every printed number is read back
-/

namespace Parley

variable {t u digits : Text} {c l : Char} {negative : Bool}

/-! ### Digits -/

namespace Digits

theorem ofText?_eq_some_iff {ds : List Nat} :
    ofText? t = some ds ↔ (∀ c ∈ t, isDecimalDigit c = true) ∧ ds = t.filterMap digitValue? := by
  rw [ofText?]
  induction t generalizing ds with
  | nil => exact ⟨fun h => ⟨nofun, (Option.some.inj h).symm⟩, fun h => congrArg some h.2.symm⟩
  | cons c t ih =>
    rw [List.mapM_cons, List.forall_mem_cons, isDecimalDigit]
    rcases hc : digitValue? c with _ | d
    · simp
    · rw [List.filterMap_cons_some hc]
      constructor
      · intro h
        replace h : (t.mapM digitValue?).bind _ = _ := h
        obtain ⟨es, hes, hds⟩ := Option.bind_eq_some_iff.mp h
        obtain ⟨hdigits, rfl⟩ := ih.mp hes
        exact ⟨⟨rfl, hdigits⟩, (Option.some.inj hds).symm⟩
      · rintro ⟨⟨-, hdigits⟩, rfl⟩
        show (t.mapM digitValue?).bind _ = _
        exact Option.bind_eq_some_iff.mpr ⟨_, ih.mpr ⟨hdigits, rfl⟩, rfl⟩

/-- The value that is summed up from the left is the place value. -/
theorem value_eq_ofDigits (ds : List Nat) : value ds = Nat.ofDigits 10 ds.reverse := by
  induction ds using List.reverseRecOn with
  | nil => rfl
  | append_singleton ds d ih =>
    rw [value_append, List.foldl_cons, List.foldl_nil, ih, List.reverse_append,
      List.reverse_singleton, List.singleton_append, Nat.ofDigits_cons]
    omega

end Digits

namespace Literal

/-! ### The shape of a number -/

/-- What may stand in front of the digits. -/
def signs (negative : Bool) : List Text := if negative then ["-".toList] else [[], "+".toList]

/-- What may stand behind them. -/
def endings : List Text := [[], "\n".toList]

/-- The text is written for a number of a sign and some digits. -/
structure Spells (t : Text) (negative : Bool) (digits : Text) : Prop where
  eq_append : ∃ sign ∈ signs negative, ∃ ending ∈ endings, t = sign ++ digits ++ ending
  ne_nil : digits ≠ []
  isDigit : ∀ c ∈ digits, isDecimalDigit c = true

/-- What digits are worth in base ten, the first most. -/
def placeValue (digits : Text) : Nat := Nat.ofDigits 10 (digits.reverse.filterMap digitValue?)

theorem takeSign_eq (t : Text) : ∃ sign ∈ signs (takeSign t).1, t = sign ++ (takeSign t).2 := by
  fun_cases takeSign t with
  | case1 t => exact ⟨"-".toList, by simp [signs], rfl⟩
  | case2 t => exact ⟨"+".toList, by simp [signs], rfl⟩
  | case3 => exact ⟨[], by simp [signs], rfl⟩

theorem dropFinalNewline_eq (t : Text) : ∃ ending ∈ endings, t = dropFinalNewline t ++ ending := by
  rw [dropFinalNewline]
  split
  · next hlast =>
    exact ⟨"\n".toList, by simp [endings], (List.dropLast_append_getLast? _ hlast).symm⟩
  · exact ⟨[], by simp [endings], (List.append_nil t).symm⟩

/-- A sign is taken off what does not start with one itself. -/
theorem takeSign_append {sign : Text} (hsign : sign ∈ signs negative)
    (hc : isDecimalDigit c = true) :
    takeSign (sign ++ c :: u) = (negative, c :: u) := by
  cases negative with
  | true =>
    obtain rfl : sign = "-".toList := List.mem_singleton.mp hsign
    rfl
  | false =>
    rcases List.mem_pair.mp hsign with rfl | rfl
    · rw [List.nil_append, takeSign]
      · rintro t ⟨⟩
        exact absurd hc (by decide)
      · rintro t ⟨⟩
        exact absurd hc (by decide)
    · rfl

/-- A line feed is taken off what does not end with one itself. -/
theorem dropFinalNewline_append {ending : Text} (hending : ending ∈ endings)
    (hdigits : ∀ c ∈ digits, isDecimalDigit c = true) :
    dropFinalNewline (digits ++ ending) = digits := by
  rcases List.mem_pair.mp hending with rfl | rfl
  · rw [List.append_nil, dropFinalNewline, if_neg fun hlast => ?_]
    exact absurd (hdigits '\n' (List.mem_of_getLast? hlast)) (by decide)
  · rw [dropFinalNewline, if_pos (by simp)]
    exact List.dropLast_concat

/-- **A number is recognised by its shape.** -/
theorem numeral?_eq_some_iff {ds : List Nat} :
    numeral? t = some (negative, ds) ↔
      ∃ digits, Spells t negative digits ∧ ds = digits.filterMap digitValue? := by
  constructor
  · intro h
    obtain ⟨sign, hsign, ht⟩ := takeSign_eq t
    obtain ⟨ending, hending, hbody⟩ := dropFinalNewline_eq (takeSign t).2
    rw [numeral?] at h
    split at h
    · cases h
    · next c cs hdigits =>
      obtain ⟨es, hes, heq⟩ := Option.map_eq_some_iff.mp h
      obtain ⟨rfl, rfl⟩ := Prod.mk.inj heq
      obtain ⟨hall, rfl⟩ := Digits.ofText?_eq_some_iff.mp hes
      refine ⟨c :: cs, ⟨⟨sign, hsign, ending, hending, ?_⟩, List.cons_ne_nil c cs, hall⟩, rfl⟩
      rw [List.append_assoc, ← hdigits, ← hbody, ← ht]
  · rintro ⟨digits, ⟨⟨sign, hsign, ending, hending, rfl⟩, hne, hall⟩, rfl⟩
    obtain ⟨c, cs, rfl⟩ := List.exists_cons_of_ne_nil hne
    have hbody : takeSign (sign ++ (c :: cs) ++ ending) = (negative, (c :: cs) ++ ending) := by
      rw [List.append_assoc]
      exact takeSign_append hsign (hall c List.mem_cons_self)
    rw [numeral?, hbody, dropFinalNewline_append hending hall]
    exact Option.map_eq_some_iff.mpr ⟨_, Digits.ofText?_eq_some_iff.mpr ⟨hall, rfl⟩, rfl⟩

theorem Spells.length_filterMap (h : Spells t negative digits) :
    (digits.filterMap digitValue?).length = digits.length :=
  List.filterMap_length_eq_length.mpr h.isDigit

theorem placeValue_eq_value (digits : Text) :
    placeValue digits = Digits.value (digits.filterMap digitValue?) := by
  rw [placeValue, Digits.value_eq_ofDigits, List.filterMap_reverse]

/-! ### Truth values -/

/-- The words for the truth values. -/
def truthWord (b : Bool) : Text := if b then "true".toList else "false".toList

/-- The text is a word, each letter as it is or as an ASCII capital. -/
def IsCaseVariant (w t : Text) : Prop := List.Forall₂ (fun l c => c = l ∨ c = l.toUpper) w t

theorem isLower_iff : l.isLower = true ↔ 97 ≤ l.toNat ∧ l.toNat ≤ 122 :=
  Bool.and_eq_true_iff.trans (and_congr decide_eq_true_iff decide_eq_true_iff)

theorem toNat_toLower (c : Char) :
    c.toLower.toNat = if 65 ≤ c.toNat ∧ c.toNat ≤ 90 then c.toNat + 32 else c.toNat := by
  by_cases hc : 65 ≤ c.toNat ∧ c.toNat ≤ 90
  · have hlower : c.toLower.val = c.val + 32 := congrArg Char.val (dif_pos hc)
    rw [if_pos hc, Char.toNat, hlower, UInt32.toNat_add]
    exact Nat.mod_eq_of_lt (by show c.toNat + 32 < 2 ^ 32; omega)
  · rw [if_neg hc, show c.toLower = c from dif_neg hc]

theorem toNat_toUpper (hl : l.isLower = true) : l.toUpper.toNat = l.toNat - 32 := by
  rw [isLower_iff] at hl
  delta Char.toUpper
  rw [dif_pos (show 'a'.val ≤ l.val ∧ l.val ≤ 'z'.val from hl)]
  -- the difference is subtracted by adding it modulo the size of a code point
  show (l.val + ('A'.val - 'a'.val)).toNat = _
  rw [UInt32.toNat_add, show ('A'.val - 'a'.val).toNat = 2 ^ 32 - 32 from rfl]
  show (l.toNat + (2 ^ 32 - 32)) % 2 ^ 32 = _
  omega
/-- A letter has no other forms than its two cases. -/
theorem toLower_eq_iff (hl : l.isLower = true) : c.toLower = l ↔ c = l ∨ c = l.toUpper := by
  have hupper := toNat_toUpper hl
  have hrange := isLower_iff.mp hl
  rw [← Char.toNat_inj, ← Char.toNat_inj, ← Char.toNat_inj, toNat_toLower, hupper]
  split <;> omega

theorem map_toLower_eq_iff {w : Text} (hw : w.all Char.isLower = true) :
    t.map Char.toLower = w ↔ IsCaseVariant w t := by
  rw [IsCaseVariant]
  induction w generalizing t with
  | nil => rw [List.map_eq_nil_iff, List.forall₂_nil_left_iff]
  | cons l w ih =>
    rw [List.all_cons, Bool.and_eq_true] at hw
    cases t with
    | nil => simp
    | cons c t =>
      rw [List.map_cons, List.cons.injEq, List.forall₂_cons, toLower_eq_iff hw.1, ih hw.2]

theorem truth?_eq_some_iff {b : Bool} : truth? t = some b ↔ IsCaseVariant (truthWord b) t := by
  have hlower : (truthWord b).all Char.isLower = true := by cases b <;> decide
  have hne : "true".toList ≠ "false".toList := by decide
  rw [← map_toLower_eq_iff hlower, truth?]
  cases b with
  | true =>
    rw [truthWord, if_pos rfl]
    split
    · next h => exact ⟨fun _ => h, fun _ => rfl⟩
    · next h =>
      refine ⟨fun hfalse => ?_, fun htrue => absurd htrue h⟩
      split at hfalse <;> cases hfalse
  | false =>
    rw [truthWord, if_neg Bool.false_ne_true]
    split
    · next h => exact ⟨nofun, fun hfalse => absurd (h.symm.trans hfalse) hne⟩
    · split
      · next h => exact ⟨fun _ => h, fun _ => rfl⟩
      · next h => exact ⟨nofun, fun hfalse => absurd hfalse h⟩

theorem IsCaseVariant.exists_mem {w : Text} (h : IsCaseVariant w t) (hc : c ∈ t) :
    ∃ l ∈ w, c = l ∨ c = l.toUpper := by
  induction h with
  | nil => cases hc
  | @cons l d w t hd _ ih =>
    rcases List.mem_cons.mp hc with rfl | hc
    · exact ⟨l, List.mem_cons_self, hd⟩
    · obtain ⟨m, hm, hcm⟩ := ih hc
      exact ⟨m, List.mem_cons_of_mem l hm, hcm⟩

/-- No number looks like a truth value, which has no digits. -/
theorem not_spells_of_isCaseVariant {b : Bool} (h : IsCaseVariant (truthWord b) t) :
    ¬ Spells t negative digits := by
  rintro ⟨⟨sign, -, ending, -, rfl⟩, hne, hall⟩
  obtain ⟨c, cs, rfl⟩ := List.exists_cons_of_ne_nil hne
  obtain ⟨l, hl, hcl⟩ := h.exists_mem (c := c) (by simp)
  have hnone :
      (truthWord b).all (fun l => !isDecimalDigit l && !isDecimalDigit l.toUpper) = true := by
    cases b <;> decide
  have hforms := List.all_eq_true.mp hnone l hl
  have hdigit := hall c List.mem_cons_self
  rw [Bool.and_eq_true, Bool.not_eq_true', Bool.not_eq_true'] at hforms
  rcases hcl with rfl | rfl
  · cases hforms.1.symm.trans hdigit
  · cases hforms.2.symm.trans hdigit

/-! ### Printed numbers -/

theorem digitValue?_of_isDigit (hc : c.isDigit = true) :
    digitValue? c = some (c.toNat - '0'.toNat) := by
  rw [Char.isDigit, Bool.and_eq_true, decide_eq_true_eq, decide_eq_true_eq] at hc
  have hrange : 0x30 ≤ c.toNat ∧ c.toNat < 0x30 + 10 := ⟨hc.1, Nat.lt_succ_of_le hc.2⟩
  rw [digitValue?, digitZeros, List.find?_cons_of_pos (by simp [hrange])]
  rfl

theorem placeValue_of_isDigit (hall : ∀ c ∈ digits, c.isDigit = true) :
    placeValue digits = Nat.ofDigitChars 10 digits 0 := by
  have hfold (n : Nat) : (digits.filterMap digitValue?).foldl (fun n d => 10 * n + d) n =
      Nat.ofDigitChars 10 digits n := by
    induction digits generalizing n with
    | nil => rw [List.filterMap_nil, List.foldl_nil, Nat.ofDigitChars_nil]
    | cons c cs ih =>
      rw [List.forall_mem_cons] at hall
      rw [List.filterMap_cons_some (digitValue?_of_isDigit hall.1), List.foldl_cons, ih hall.2,
        Nat.ofDigitChars_cons]
  rw [placeValue_eq_value]
  exact hfold 0

/-- The digits that a number is printed with, and zeros in front of them. -/
def padded (zeros n : Nat) : Text := List.replicate zeros '0' ++ (toString n).toList

theorem padded_eq (zeros n : Nat) :
    padded zeros n = List.replicate zeros '0' ++ Nat.toDigits 10 n := by
  rw [padded, Nat.toString_eq_ofList_toDigits, String.toList_ofList]

theorem isDigit_of_mem_padded {zeros n : Nat} (hc : c ∈ padded zeros n) : c.isDigit = true := by
  rw [padded_eq] at hc
  rcases List.mem_append.mp hc with hc | hc
  · rw [List.eq_of_mem_replicate hc]
    rfl
  · exact Nat.isDigit_of_mem_toDigits (by decide) le_rfl hc

/-- Zeros in front are worth nothing. -/
theorem placeValue_padded (zeros n : Nat) : placeValue (padded zeros n) = n := by
  rw [placeValue_of_isDigit fun c => isDigit_of_mem_padded, padded_eq, Nat.ofDigitChars_append,
    Nat.ofDigitChars_replicate_zero, Nat.mul_zero, Nat.ofDigitChars_ten_toDigits]

theorem spells_padded {sign : Text} (hsign : sign ∈ signs negative) (zeros n : Nat) :
    Spells (sign ++ padded zeros n) negative (padded zeros n) where
  eq_append := ⟨sign, hsign, [], by simp [endings], (List.append_nil _).symm⟩
  ne_nil := by
    rw [padded_eq]
    exact List.append_ne_nil_of_right_ne_nil _ Nat.toDigits_ne_nil
  isDigit c hc := by
    rw [isDecimalDigit, digitValue?_of_isDigit (isDigit_of_mem_padded hc), Option.isSome_some]

/-! ### Reading -/

theorem read_of_spells (h : Spells t negative digits) :
    read t = if digits.length ≤ maxDigits then
        .ok (some (.number (signed negative (placeValue digits))))
      else .error ⟨digits.length⟩ := by
  have hnumeral : numeral? t = some (negative, digits.filterMap digitValue?) :=
    numeral?_eq_some_iff.mpr ⟨digits, h, rfl⟩
  rw [read, hnumeral]
  simp only [h.length_filterMap, placeValue_eq_value]

theorem read_of_not_spells (h : ∀ negative digits, ¬ Spells t negative digits) :
    read t = .ok ((truth? t).map .truth) := by
  have hnumeral : numeral? t = none := by
    rw [Option.eq_none_iff_forall_ne_some]
    rintro ⟨negative, ds⟩ hsome
    obtain ⟨digits, hspells, -⟩ := numeral?_eq_some_iff.mp hsome
    exact h negative digits hspells
  rw [read, hnumeral]

/-- A text is read by what it looks like: as a number, or not as a number. -/
theorem read_cases (t : Text) :
    (∃ negative digits, Spells t negative digits ∧ digits.length ≤ maxDigits ∧
      read t = .ok (some (.number (signed negative (placeValue digits))))) ∨
    (∃ negative digits, Spells t negative digits ∧ maxDigits < digits.length ∧
      read t = .error ⟨digits.length⟩) ∨
    (∀ negative digits, ¬ Spells t negative digits) ∧ read t = .ok ((truth? t).map .truth) := by
  by_cases h : ∃ negative digits, Spells t negative digits
  · obtain ⟨negative, digits, hspells⟩ := h
    have hread := read_of_spells hspells
    by_cases hlength : digits.length ≤ maxDigits
    · exact .inl ⟨negative, digits, hspells, hlength, by rw [hread, if_pos hlength]⟩
    · have herror : read t = .error ⟨digits.length⟩ := by rw [hread, if_neg hlength]
      exact .inr (.inl ⟨negative, digits, hspells, not_le.mp hlength, herror⟩)
  · have hnone (negative : Bool) (digits : Text) : ¬ Spells t negative digits :=
      fun hspells => h ⟨negative, digits, hspells⟩
    exact .inr (.inr ⟨hnone, read_of_not_spells hnone⟩)

theorem read_eq_number_iff {n : Int} :
    read t = .ok (some (.number n)) ↔ ∃ negative digits, Spells t negative digits ∧
      digits.length ≤ maxDigits ∧ n = signed negative (placeValue digits) := by
  constructor
  · intro h
    rcases read_cases t with ⟨negative, digits, hspells, hlength, hread⟩ | ⟨_, _, -, -, hread⟩ |
      ⟨-, hread⟩
    · cases hread.symm.trans h
      exact ⟨negative, digits, hspells, hlength, rfl⟩
    · cases hread.symm.trans h
    · rw [hread] at h
      rcases hb : truth? t with _ | b <;> rw [hb] at h <;> cases h
  · rintro ⟨negative, digits, hspells, hlength, rfl⟩
    rw [read_of_spells hspells, if_pos hlength]

theorem read_eq_error_iff {e : Overlong} :
    read t = .error e ↔ ∃ negative digits, Spells t negative digits ∧
      maxDigits < digits.length ∧ e = ⟨digits.length⟩ := by
  constructor
  · intro h
    rcases read_cases t with ⟨_, _, -, -, hread⟩ | ⟨negative, digits, hspells, hlength, hread⟩ |
      ⟨-, hread⟩
    · cases hread.symm.trans h
    · cases hread.symm.trans h
      exact ⟨negative, digits, hspells, hlength, rfl⟩
    · cases hread.symm.trans h
  · rintro ⟨negative, digits, hspells, hlength, rfl⟩
    rw [read_of_spells hspells, if_neg (not_le.mpr hlength)]

theorem read_eq_truth_iff {b : Bool} :
    read t = .ok (some (.truth b)) ↔ IsCaseVariant (truthWord b) t := by
  rw [← truth?_eq_some_iff]
  constructor
  · intro h
    rcases read_cases t with ⟨_, _, -, -, hread⟩ | ⟨_, _, -, -, hread⟩ | ⟨-, hread⟩
    · cases hread.symm.trans h
    · cases hread.symm.trans h
    · rw [hread] at h
      rcases hb : truth? t with _ | d <;> rw [hb] at h <;> cases h
      rfl
  · intro h
    rw [read_of_not_spells fun _ _ => not_spells_of_isCaseVariant (truth?_eq_some_iff.mp h), h]
    rfl

theorem read_eq_none_iff :
    read t = .ok none ↔ (∀ negative digits, ¬ Spells t negative digits) ∧
      ∀ b, ¬ IsCaseVariant (truthWord b) t := by
  simp only [← truth?_eq_some_iff, ← Option.eq_none_iff_forall_ne_some]
  constructor
  · intro h
    rcases read_cases t with ⟨_, _, -, -, hread⟩ | ⟨_, _, -, -, hread⟩ | ⟨hnone, hread⟩
    · cases hread.symm.trans h
    · cases hread.symm.trans h
    · rw [hread] at h
      rcases hb : truth? t with _ | b
      · exact ⟨hnone, rfl⟩
      · rw [hb] at h
        cases h
  · rintro ⟨hnone, htruth⟩
    rw [read_of_not_spells hnone, htruth]
    rfl

/-- Printed numbers are read back, with zeros in front as far as they fit. -/
theorem read_padded {n : Int} {sign : Text} (hsign : sign ∈ signs (decide (n < 0))) {zeros : Nat}
    (hlength : zeros + (toString n.natAbs).length ≤ maxDigits) :
    read (sign ++ padded zeros n.natAbs) = .ok (some (.number n)) := by
  have hfits : (padded zeros n.natAbs).length ≤ maxDigits := by
    rwa [padded, List.length_append, List.length_replicate, String.length_toList]
  refine read_eq_number_iff.mpr
    ⟨decide (n < 0), padded zeros n.natAbs, spells_padded hsign zeros n.natAbs, hfits, ?_⟩
  rw [placeValue_padded, signed]
  split
  · next hn =>
    have hneg := of_decide_eq_true hn
    omega
  · next hn =>
    have hpos := of_decide_eq_false (Bool.not_eq_true _ ▸ hn)
    omega

theorem toString_eq (n : Int) :
    ∃ sign ∈ signs (decide (n < 0)), (toString n).toList = sign ++ padded 0 n.natAbs := by
  cases n with
  | ofNat m =>
    have hm : ¬ Int.ofNat m < 0 := not_lt.mpr (Int.natCast_nonneg m)
    refine ⟨[], ?_, rfl⟩
    rw [decide_eq_false hm]
    exact List.mem_cons_self
  | negSucc m =>
    refine ⟨"-".toList, ?_, ?_⟩
    · rw [decide_eq_true (Int.negSucc_lt_zero m)]
      exact List.mem_cons_self
    · exact String.toList_append

/-- **Literals are read exactly.** -/
theorem reads_exactly :
    (∀ t : Text,
      (∀ n, read t = .ok (some (.number n)) ↔ ∃ negative digits, Spells t negative digits ∧
        digits.length ≤ 4300 ∧ n = signed negative (placeValue digits)) ∧
      (∀ e, read t = .error e ↔ ∃ negative digits, Spells t negative digits ∧
        4300 < digits.length ∧ e = ⟨digits.length⟩) ∧
      (∀ b, read t = .ok (some (.truth b)) ↔ IsCaseVariant (truthWord b) t) ∧
      (read t = .ok none ↔ (∀ negative digits, ¬ Spells t negative digits) ∧
        ∀ b, ¬ IsCaseVariant (truthWord b) t)) ∧
    ∀ n : Int,
      ((toString n.natAbs).length ≤ 4300 → read (toString n).toList = .ok (some (.number n))) ∧
      ∀ sign ∈ signs (decide (n < 0)), ∀ zeros, zeros + (toString n.natAbs).length ≤ 4300 →
        read (sign ++ padded zeros n.natAbs) = .ok (some (.number n)) := by
  refine ⟨fun t => ⟨fun n => read_eq_number_iff, fun e => read_eq_error_iff,
    fun b => read_eq_truth_iff, read_eq_none_iff⟩, fun n => ⟨fun hlength => ?_,
    fun sign hsign zeros hlength => read_padded hsign hlength⟩⟩
  obtain ⟨sign, hsign, hprinted⟩ := toString_eq n
  rw [hprinted]
  exact read_padded hsign (by rwa [Nat.zero_add])

/-- A number with a sign, digits of two scripts and a line feed; a word in two cases; and a number
that is printed with zeros in front. -/
theorem reads_exactly_mixed :
    Spells "+٤2\n".toList false "٤2".toList ∧ read "+٤2\n".toList = .ok (some (.number 42)) ∧
      IsCaseVariant (truthWord true) "tRUe".toList ∧
      read "tRUe".toList = .ok (some (.truth true)) ∧
      "-".toList ∈ signs (decide ((-200 : Int) < 0)) ∧ 2 + (toString 200).length ≤ 4300 ∧
      read ("-".toList ++ padded 2 200) = .ok (some (.number (-200))) := by
  have hspells : Spells "+٤2\n".toList false "٤2".toList :=
    ⟨⟨"+".toList, by simp [signs], "\n".toList, by simp [endings], rfl⟩, by decide,
      List.all_eq_true.mp (by decide)⟩
  have hvariant : IsCaseVariant (truthWord true) "tRUe".toList :=
    .cons (.inl rfl) (.cons (.inr rfl) (.cons (.inr rfl) (.cons (.inl rfl) .nil)))
  have hsign : "-".toList ∈ signs (decide ((-200 : Int) < 0)) := by decide
  have hlength : 2 + (toString 200).length ≤ 4300 := by decide
  obtain ⟨hread, hprinted⟩ := reads_exactly
  exact ⟨hspells, ((hread _).1 42).mpr ⟨false, "٤2".toList, hspells, by decide, by decide⟩,
    hvariant, ((hread _).2.2.1 true).mpr hvariant, hsign, hlength,
    (hprinted (-200)).2 "-".toList hsign 2 hlength⟩

end Literal

end Parley
