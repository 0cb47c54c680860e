import Mathlib.Data.List.Chain
import Parley.Text.Basic

/-!
# Splitting at pairs of characters

`Text.splitPair a b` reads from the left and never looks back, so a stray `a` or `b` next to a pair
decides where the pair is. A text in which `a` is nowhere directly followed by `b` is `PairFree`:
the pieces of a split are such texts, and joining such texts with a separator that keeps its pair
away from them is undone by splitting.

## Main definitions

* `Text.PairFree`

## Main results

* `Text.splitPair_of_pairFree`, `Text.pairFree_of_mem_splitPair`
* `Text.map_splitPair_join` — splitting undoes joining, for a reader that does not mind a blank
  at the ends of a piece
-/

namespace Parley.Text

variable {a b c : Char} {t u : Text}

/-- No `a` is directly followed by `b`. -/
def PairFree (a b : Char) (t : Text) : Prop := t.IsChain fun c d => ¬(c = a ∧ d = b)

instance (a b : Char) (t : Text) : Decidable (PairFree a b t) :=
  inferInstanceAs (Decidable (t.IsChain fun c d => ¬(c = a ∧ d = b)))

theorem PairFree.of_isInfix (h : PairFree a b u) (htu : t <:+: u) : PairFree a b t :=
  List.IsChain.infix h htu

theorem PairFree.append (ht : PairFree a b t) (hu : PairFree a b u)
    (h : ∀ c ∈ t.getLast?, ∀ d ∈ u.head?, ¬(c = a ∧ d = b)) : PairFree a b (t ++ u) :=
  List.IsChain.append ht hu h

theorem PairFree.concat (ht : PairFree a b t) (h : c ≠ b) : PairFree a b (t ++ [c]) :=
  ht.append (.singleton c) fun _ _ d hd hcd => h <| by
    obtain rfl : c = d := by simpa using hd
    exact hcd.2

theorem pairFree_of_not_mem (h : a ∉ t) : PairFree a b t := by
  induction t with
  | nil => exact .nil
  | cons c t ih =>
    rw [List.mem_cons, not_or] at h
    exact List.IsChain.cons (ih h.2) fun d _ hcd => h.1 hcd.1.symm

/-! ### The pieces of a split -/

theorem splitPair_cons_of_ne (h : c ≠ a) (t : Text) :
    splitPair a b (c :: t) = consFirst c (splitPair a b t) := by
  cases t with
  | nil => rfl
  | cons d t => rw [splitPair, if_neg fun hcd => h hcd.1]

theorem splitPair_of_pairFree (h : PairFree a b t) : splitPair a b t = [t] := by
  fun_induction splitPair a b t with
  | case1 => rfl
  | case2 => rfl
  | case3 c d t hpair => exact absurd hpair (List.isChain_cons_cons.mp h).1
  | case4 c d t hpair ih => rw [ih (List.isChain_cons_cons.mp h).2, consFirst]

theorem isPrefix_of_splitPair_eq_cons {ts : List Text} (h : splitPair a b t = u :: ts) :
    u <+: t := by
  fun_induction splitPair a b t generalizing u ts with
  | case1 =>
    obtain ⟨rfl, -⟩ := List.cons.inj h
    exact List.prefix_rfl
  | case2 c =>
    obtain ⟨rfl, -⟩ := List.cons.inj h
    exact List.prefix_rfl
  | case3 c d t hpair ih =>
    obtain ⟨rfl, -⟩ := List.cons.inj h
    exact List.nil_prefix
  | case4 c d t hpair ih =>
    rcases hs : splitPair a b (d :: t) with _ | ⟨v, vs⟩
    · exact absurd hs (splitPair_ne_nil a b _)
    · rw [hs, consFirst] at h
      obtain ⟨rfl, -⟩ := List.cons.inj h
      exact List.cons_prefix_cons.mpr ⟨rfl, ih hs⟩

theorem isInfix_of_mem_splitPair (h : u ∈ splitPair a b t) : u <:+: t := by
  fun_induction splitPair a b t generalizing u with
  | case1 => exact List.mem_singleton.mp h ▸ List.infix_rfl
  | case2 c => exact List.mem_singleton.mp h ▸ List.infix_rfl
  | case3 c d t hpair ih =>
    rcases List.mem_cons.mp h with rfl | h
    · exact List.nil_infix
    · exact (ih h).trans (List.suffix_append [c, d] t).isInfix
  | case4 c d t hpair ih =>
    rcases hs : splitPair a b (d :: t) with _ | ⟨v, vs⟩
    · exact absurd hs (splitPair_ne_nil a b _)
    · rw [hs] at ih h
      rcases List.mem_cons.mp h with rfl | h
      · exact (List.cons_prefix_cons.mpr ⟨rfl, isPrefix_of_splitPair_eq_cons hs⟩).isInfix
      · exact (ih (List.mem_cons_of_mem _ h)).trans (List.suffix_cons c _).isInfix

theorem pairFree_of_mem_splitPair (h : u ∈ splitPair a b t) : PairFree a b u := by
  fun_induction splitPair a b t generalizing u with
  | case1 =>
    rw [List.mem_singleton.mp h]
    exact .nil
  | case2 c =>
    rw [List.mem_singleton.mp h]
    exact .singleton c
  | case3 c d t hpair ih =>
    rcases List.mem_cons.mp h with rfl | h
    · exact .nil
    · exact ih h
  | case4 c d t hpair ih =>
    rcases hs : splitPair a b (d :: t) with _ | ⟨v, vs⟩
    · exact absurd hs (splitPair_ne_nil a b _)
    · rw [hs] at ih h
      rcases List.mem_cons.mp h with rfl | h
      · -- `c` was put in front of `v`, which starts with `d` if it is not empty
        refine List.IsChain.cons (ih List.mem_cons_self) fun e he => ?_
        obtain ⟨w, hw⟩ := isPrefix_of_splitPair_eq_cons hs
        rcases v with _ | ⟨f, v⟩
        · simp at he
        · obtain ⟨rfl, -⟩ := List.cons.inj hw
          obtain rfl : f = e := by simpa using he
          exact hpair
      · exact ih (List.mem_cons_of_mem _ h)

/-- The first pair ends the first piece. -/
theorem splitPair_append_pair (h : PairFree a b (t ++ [a])) (u : Text) :
    splitPair a b (t ++ a :: b :: u) = t :: splitPair a b u := by
  induction t with
  | nil => rw [List.nil_append, splitPair, if_pos ⟨rfl, rfl⟩]
  | cons c t ih =>
    have hrest := ih (List.IsChain.tail h)
    cases t with
    | nil =>
      have hpair := (List.isChain_cons_cons.mp h).1
      rw [List.cons_append, List.nil_append, splitPair, if_neg hpair]
      rw [List.nil_append] at hrest
      rw [hrest, consFirst]
    | cons d t =>
      have hpair := (List.isChain_cons_cons.mp h).1
      rw [List.cons_append, List.cons_append, splitPair, if_neg hpair, ← List.cons_append, hrest,
        consFirst]

/-- A character at the end that cannot complete a pair goes to the last piece. -/
theorem splitPair_concat_of_ne (h : c ≠ b) (t : Text) :
    ∃ ts u, splitPair a b t = ts ++ [u] ∧ splitPair a b (t ++ [c]) = ts ++ [u ++ [c]] := by
  fun_induction splitPair a b t with
  | case1 => exact ⟨[], [], rfl, rfl⟩
  | case2 d =>
    refine ⟨[], [d], rfl, ?_⟩
    rw [List.cons_append, List.nil_append, splitPair, if_neg fun hdc => h hdc.2]
    rfl
  | case3 d e t hpair ih =>
    obtain ⟨ts, u, ht, htc⟩ := ih
    refine ⟨[] :: ts, u, by rw [ht]; rfl, ?_⟩
    rw [List.cons_append, List.cons_append, splitPair, if_pos hpair, htc]
    rfl
  | case4 d e t hpair ih =>
    obtain ⟨ts, u, ht, htc⟩ := ih
    rw [List.cons_append, List.cons_append, splitPair, if_neg hpair, ← List.cons_append, htc, ht]
    cases ts with
    | nil => exact ⟨[], d :: u, rfl, rfl⟩
    | cons v vs => exact ⟨(d :: v) :: vs, u, rfl, rfl⟩

/-! ### Joining -/

theorem join_cons_of_ne_nil (sep t : Text) {ts : List Text} (h : ts ≠ []) :
    join sep (t :: ts) = t ++ sep ++ join sep ts := by
  cases ts with
  | nil => exact absurd rfl h
  | cons u ts => rfl

theorem pairFree_join {sep : Text} {ts : List Text} (hsep : PairFree a b sep) (hne : sep ≠ [])
    (hhead : sep.head? ≠ some b) (hlast : sep.getLast? ≠ some a)
    (h : ∀ t ∈ ts, PairFree a b t) : PairFree a b (join sep ts) := by
  induction ts with
  | nil => exact .nil
  | cons t ts ih =>
    have ht := h t List.mem_cons_self
    rcases eq_or_ne ts [] with rfl | hts
    · exact ht
    · rw [join_cons_of_ne_nil sep t hts]
      refine (ht.append hsep fun c _ d hd hcd => hhead (hcd.2 ▸ hd)).append
        (ih fun u hu => h u (List.mem_cons_of_mem _ hu)) fun c hc d _ hcd => hlast (hcd.1 ▸ ?_)
      rwa [List.getLast?_append_of_ne_nil _ hne] at hc

/-- **Splitting undoes joining.** The pieces get a blank at their ends, which `f` must not see. -/
theorem map_splitPair_join {β : Type} {f : Text → β} (ha : a ≠ ' ')
    (hfront : ∀ t, f (' ' :: t) = f t) (hback : ∀ t, f (t ++ [' ']) = f t) {ts : List Text}
    (hne : ts ≠ []) (h : ∀ t ∈ ts, PairFree a a t) :
    (splitPair a a (join [' ', a, a, ' '] ts)).map f = ts.map f := by
  induction ts with
  | nil => exact absurd rfl hne
  | cons t ts ih =>
    have ht := h t List.mem_cons_self
    rcases eq_or_ne ts [] with rfl | hts
    · rw [join, splitPair_of_pairFree ht]
    · have hgap : PairFree a a (t ++ [' '] ++ [a]) :=
        (ht.concat ha.symm).append (.singleton a) fun c hc _ _ hca => ha <| by
          obtain rfl : ' ' = c := by simpa using hc
          exact hca.1.symm
      have hrest := ih hts fun u hu => h u (List.mem_cons_of_mem _ hu)
      rw [join_cons_of_ne_nil _ t hts,
        show t ++ [' ', a, a, ' '] ++ join [' ', a, a, ' '] ts
            = t ++ [' '] ++ a :: a :: ' ' :: join [' ', a, a, ' '] ts by simp,
        splitPair_append_pair hgap, splitPair_cons_of_ne ha.symm, List.map_cons, hback,
        List.map_cons, ← hrest]
      rcases hs : splitPair a a (join [' ', a, a, ' '] ts) with _ | ⟨v, vs⟩
      · exact absurd hs (splitPair_ne_nil a a _)
      · rw [consFirst, List.map_cons, hfront, List.map_cons]

end Parley.Text
