import Parley.Proofs.Text.Pairs
import Parley.Proofs.Text.Strip

/-!
# Taking texts apart where they were put together

Each of these says that a cut lands where a piece was attached, provided the piece in front does not
contain the mark itself.
-/

namespace Parley.Text

variable {a b c : Char} {t : Text}

theorem cut_append (h : c ∉ t) (u : Text) : cut c (t ++ c :: u) = (t, some u) := by
  induction t with
  | nil => rw [List.nil_append, cut, if_pos rfl]
  | cons d t ih =>
    rw [List.mem_cons, not_or] at h
    rw [List.cons_append, cut, if_neg (Ne.symm h.1), ih h.2]

theorem cutPair_of_pairFree (h : PairFree a b t) : cutPair a b t = (t, none) := by
  fun_induction cutPair a b t with
  | case1 => rfl
  | case2 => rfl
  | case3 c d t hpair => exact absurd hpair (List.isChain_cons_cons.mp h).1
  | case4 c d t hpair rest ih =>
    simp only [rest, ih (List.isChain_cons_cons.mp h).2]

theorem cutPair_append_pair (h : PairFree a b (t ++ [a])) (u : Text) :
    cutPair a b (t ++ a :: b :: u) = (t, some u) := by
  induction t with
  | nil => rw [List.nil_append, cutPair, if_pos ⟨rfl, rfl⟩]
  | cons c t ih =>
    have hrest := ih (List.IsChain.tail h)
    cases t with
    | nil =>
      have hpair := (List.isChain_cons_cons.mp h).1
      rw [List.nil_append] at hrest
      rw [List.cons_append, List.nil_append, cutPair, if_neg hpair, hrest]
    | cons d t =>
      have hpair := (List.isChain_cons_cons.mp h).1
      rw [List.cons_append, List.cons_append, cutPair, if_neg hpair, ← List.cons_append, hrest]

theorem join_singleton (c : Char) (ts : List Text) : join [c] ts = [c].intercalate ts := by
  induction ts with
  | nil => rfl
  | cons t ts ih =>
    rcases eq_or_ne ts [] with rfl | hts
    · simp [join]
    · rw [join_cons_of_ne_nil _ t hts, ih, List.intercalate_cons_of_ne_nil hts]

theorem splitOn_join {ts : List Text} (hne : ts ≠ []) (h : ∀ t ∈ ts, c ∉ t) :
    (join [c] ts).splitOn c = ts := by
  rw [join_singleton, List.splitOn_intercalate c h hne]

/-- The pieces between the occurrences of `c` do not contain it. -/
theorem not_mem_of_mem_splitOn {u : Text} (h : u ∈ t.splitOn c) : c ∉ u := by
  induction t generalizing u with
  | nil =>
    rw [List.mem_singleton.mp h]
    exact List.not_mem_nil
  | cons d t ih =>
    rw [List.splitOn, List.splitOnP_cons_eq_if_modifyHead] at h
    split at h
    · rcases List.mem_cons.mp h with rfl | h
      · exact List.not_mem_nil
      · exact ih h
    · next hd =>
      -- `d` is no mark, so it goes in front of the first piece
      rcases hpieces : t.splitOnP (· == c) with _ | ⟨v, vs⟩
      · rw [hpieces] at h
        cases h
      · have hv (w : Text) (hw : w ∈ v :: vs) : c ∉ w := by
          rw [← hpieces] at hw
          exact ih hw
        rw [hpieces, List.modifyHead_cons] at h
        rcases List.mem_cons.mp h with rfl | h
        · rw [List.mem_cons, not_or]
          exact ⟨fun hcd => hd (beq_iff_eq.mpr hcd.symm), hv v List.mem_cons_self⟩
        · exact hv u (List.mem_cons_of_mem v h)

theorem keyword_cons_ne {d : Char} (h : c ≠ d) (t k : Text) : keyword (c :: t) ≠ d :: k := by
  rw [keyword, List.takeWhile_cons]
  split
  · exact fun hk => h (List.cons.inj hk).1
  · exact (List.cons_ne_nil _ _).symm

theorem keyword_append {k : Text} (h : k.any isBlank = false) (u : Text) :
    keyword (k ++ ' ' :: u) = k := by
  have hk : ∀ c ∈ k, (!isBlank c) = true := by simpa using h
  rw [keyword, List.takeWhile_append_of_pos hk, List.takeWhile_cons_of_neg (by decide),
    List.append_nil]

theorem argument_append {k : Text} (h : k.any isBlank = false) (u : Text) :
    argument (k ++ ' ' :: u) = strip u := by
  have hk : ∀ c ∈ k, (!isBlank c) = true := by simpa using h
  rw [argument, List.dropWhile_append_of_pos hk, List.dropWhile_cons_of_neg (by decide),
    strip_cons (by decide)]

end Parley.Text
