import Mathlib.Data.List.DropRight
import Parley.Text.Blank

/-!
# Texts without blanks at their ends

`Text.trim` walks its text twice, once from each end. Read from the right it is `List.rdropWhile`,
and every fact below comes from that: trimming ignores what it would drop anyway, it is idempotent,
and it leaves a text alone exactly when neither end can be dropped.

## Main results

* `Text.trim_concat`, `Text.trim_cons` — a droppable character at either end changes nothing
* `Text.strip_eq_self_iff` — what a stripped text looks like
* `Text.strip_strip`
-/

namespace Parley.Text

variable {p : Char → Bool} {c : Char} {t : Text}

/-! ### Trimming -/

theorem dropEnd_concat (p : Char → Bool) (t : Text) (c : Char) :
    dropEnd p (t ++ [c]) = if p c then dropEnd p t else t ++ [c] := by
  induction t with
  | nil => rfl
  | cons d t ih =>
    rw [List.cons_append, dropEnd, ih]
    by_cases h : p c
    · simp only [if_pos h, dropEnd]
    · rw [if_neg h, if_neg h]
      cases t <;> rfl

theorem dropEnd_eq_rdropWhile (p : Char → Bool) (t : Text) : dropEnd p t = t.rdropWhile p := by
  induction t using List.reverseRecOn with
  | nil => rfl
  | append_singleton t c ih => rw [dropEnd_concat, List.rdropWhile_concat, ih]

theorem trim_eq (p : Char → Bool) (t : Text) : trim p t = (t.dropWhile p).rdropWhile p :=
  dropEnd_eq_rdropWhile p _

theorem trim_cons (h : p c) : trim p (c :: t) = trim p t := by
  rw [trim, List.dropWhile_cons_of_pos h, trim]

theorem trim_concat (h : p c) : trim p (t ++ [c]) = trim p t := by
  rw [trim_eq, trim_eq, List.dropWhile_append]
  split
  · next hempty => rw [List.isEmpty_iff.mp hempty, List.dropWhile_cons_of_pos h, List.dropWhile_nil]
  · rw [List.rdropWhile_concat_pos p _ c h]

theorem trim_isInfix (p : Char → Bool) (t : Text) : trim p t <:+: t := by
  have hback := List.rdropWhile_prefix p (t.dropWhile p)
  rw [trim_eq]
  exact hback.isInfix.trans (List.dropWhile_suffix p).isInfix

/-- Trimming leaves a text alone exactly when it can drop neither the first nor the last
character. -/
theorem trim_eq_self_iff :
    trim p t = t ↔ (∀ c ∈ t.head?, p c = false) ∧ ∀ c ∈ t.getLast?, p c = false := by
  rw [trim_eq]
  constructor
  · intro h
    have hlen := List.rdropWhile_prefix p (t.dropWhile p) |>.length_le
    rw [h] at hlen
    have hfront : t.dropWhile p = t := (List.dropWhile_suffix p).eq_of_length_le hlen
    rw [hfront, List.rdropWhile_eq_self_iff] at h
    refine ⟨fun c hc => ?_, fun c hc => ?_⟩
    · cases t with
      | nil => simp at hc
      | cons d t =>
        obtain rfl : d = c := by simpa using hc
        simpa using List.dropWhile_eq_self_iff.mp hfront (Nat.succ_pos _)
    · obtain ⟨hne, rfl⟩ := List.mem_getLast?_eq_getLast hc
      simpa using h hne
  · rintro ⟨hfront, hback⟩
    have hdrop : t.dropWhile p = t := by
      cases t with
      | nil => rfl
      | cons d t => exact List.dropWhile_cons_of_neg (by simp [hfront d rfl])
    rw [hdrop, List.rdropWhile_eq_self_iff]
    intro hne
    simp [hback _ (List.getLast?_eq_some_getLast hne)]

/-- What is left by trimming cannot be trimmed further. -/
theorem trim_trim (p : Char → Bool) (t : Text) : trim p (trim p t) = trim p t := by
  have hback := List.rdropWhile_idempotent p (t.dropWhile p)
  rw [trim_eq, trim_eq]
  rcases hs : t.dropWhile p with _ | ⟨d, s⟩
  · rfl
  · -- the first character survives the first pass, so the second pass can start with it only if
    -- the pass from the right has dropped everything
    have hd : p d = false := by
      have := List.head?_dropWhile_not p t
      rw [hs] at this
      simpa using this
    have hfront : ((d :: s).rdropWhile p).dropWhile p = (d :: s).rdropWhile p := by
      rcases List.rdropWhile_prefix p (d :: s) with ⟨r, hr⟩
      rcases hw : (d :: s).rdropWhile p with _ | ⟨e, w⟩
      · rfl
      · rw [hw, List.cons_append, List.cons.injEq] at hr
        exact List.dropWhile_cons_of_neg (by simp [hr.1, hd])
    rw [hfront, ← hs, hback]

theorem trim_eq_nil_iff : trim p t = [] ↔ ∀ c ∈ t, p c := by
  rw [trim_eq, List.rdropWhile_eq_nil_iff]
  induction t with
  | nil => simp
  | cons d t ih =>
    by_cases h : p d
    · rw [List.dropWhile_cons_of_pos h, ih]
      simp [h]
    · rw [List.dropWhile_cons_of_neg h]

/-! ### Stripping -/

theorem strip_cons (h : isBlank c) : strip (c :: t) = strip t := trim_cons h

theorem strip_concat (h : isBlank c) : strip (t ++ [c]) = strip t := trim_concat h

theorem strip_strip (t : Text) : strip (strip t) = strip t := trim_trim isBlank t

theorem strip_isInfix (t : Text) : strip t <:+: t := trim_isInfix isBlank t

theorem strip_eq_self_iff :
    strip t = t ↔
      (∀ c ∈ t.head?, isBlank c = false) ∧ ∀ c ∈ t.getLast?, isBlank c = false :=
  trim_eq_self_iff

/-- Only the two ends matter. -/
theorem strip_append_append {u v : Text} (hu : strip u = u) (hune : u ≠ []) (hv : strip v = v)
    (hvne : v ≠ []) (w : Text) : strip (u ++ w ++ v) = u ++ w ++ v := by
  rw [strip_eq_self_iff] at hu hv ⊢
  refine ⟨fun c hc => hu.1 c ?_, fun c hc => hv.2 c ?_⟩
  · rwa [List.append_assoc, List.head?_append_of_ne_nil _ hune] at hc
  · rwa [List.getLast?_append_of_ne_nil _ hvne] at hc

theorem isAllBlank_iff : t.isAllBlank = true ↔ strip t = [] := by
  rw [strip, trim_eq_nil_iff, isAllBlank, List.all_eq_true]

end Parley.Text
