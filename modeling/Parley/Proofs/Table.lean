import Mathlib.Data.List.Nodup
import Parley.Table

/-!
# Tables and their entries

A table is looked up by key, but stories are written and checked entry by entry. These lemmas go
back and forth: what a key is bound to is its entry, and binding the last key again only changes the
last entry.
-/

namespace Parley

variable {κ α : Type} [DecidableEq κ] {k : κ} {v w : α} {es : List (κ × α)}

theorem lookup_eq_none_iff_not_mem_keys : es.lookup k = none ↔ k ∉ es.map Prod.fst := by
  induction es with
  | nil => simp
  | cons e es ih =>
    rw [Table.lookup_cons, List.map_cons, List.mem_cons, not_or, ← ih]
    by_cases h : k = e.1 <;> simp [h]

theorem lookup_eq_some_iff_mem (h : (es.map Prod.fst).Nodup) :
    es.lookup k = some v ↔ (k, v) ∈ es := by
  induction es with
  | nil => simp
  | cons e es ih =>
    rw [List.map_cons, List.nodup_cons] at h
    rw [Table.lookup_cons, List.mem_cons]
    by_cases hk : k = e.1
    · have hnot : (k, v) ∉ es := fun hm => h.1 (hk ▸ List.mem_map_of_mem hm)
      rw [if_pos hk, or_iff_left hnot, hk, Option.some_inj, Prod.ext_iff]
      exact ⟨fun hv => ⟨rfl, hv.symm⟩, fun hv => hv.2.symm⟩
    · have hne : (k, v) ≠ e := fun he => hk (he ▸ rfl)
      rw [if_neg hk, ih h.2, or_iff_right hne]

theorem lookup_concat_of_not_mem_keys (h : k ∉ es.map Prod.fst) :
    (es ++ [(k, v)]).lookup k = some v := by
  rw [List.lookup_append, lookup_eq_none_iff_not_mem_keys.mpr h, Option.none_or, Table.lookup_cons,
    if_pos rfl]

theorem bindEntry_of_not_mem_keys (h : k ∉ es.map Prod.fst) :
    bindEntry k v es = es ++ [(k, v)] := by
  induction es with
  | nil => rfl
  | cons e es ih =>
    rw [List.map_cons, List.mem_cons, not_or] at h
    rw [bindEntry, if_neg (Ne.symm h.1), ih h.2, List.cons_append]

theorem bindEntry_of_mem_keys (hnodup : (es.map Prod.fst).Nodup) (h : k ∈ es.map Prod.fst) :
    bindEntry k v es = es.map fun e => if e.1 = k then (k, v) else e := by
  induction es with
  | nil => cases h
  | cons e es ih =>
    rw [List.map_cons, List.nodup_cons] at hnodup
    rw [List.map_cons, List.mem_cons] at h
    rw [bindEntry, List.map_cons]
    by_cases hk : e.1 = k
    · -- the key comes up only once, so the other entries stay as they are
      have hrest : ∀ e' ∈ es, (if e'.1 = k then (k, v) else e') = e' := by
        intro e' he'
        refine if_neg fun hk' => hnodup.1 ?_
        rw [hk, ← hk']
        exact List.mem_map_of_mem he'
      rw [if_pos hk, if_pos hk, List.map_congr_left hrest, List.map_id']
    · rw [if_neg hk, if_neg hk, ih hnodup.2 (h.resolve_left (Ne.symm hk))]

/-- Binding a key to what it is bound to changes nothing. -/
theorem bindEntry_of_mem (hnodup : (es.map Prod.fst).Nodup) (h : (k, v) ∈ es) :
    bindEntry k v es = es := by
  induction es with
  | nil => cases h
  | cons e es ih =>
    rw [List.map_cons, List.nodup_cons] at hnodup
    rw [bindEntry]
    rcases List.mem_cons.mp h with rfl | hmem
    · rw [if_pos rfl]
    · have hne : e.1 ≠ k := fun hk => hnodup.1 (hk ▸ List.mem_map_of_mem hmem)
      rw [if_neg hne, ih hnodup.2 hmem]

theorem bindEntry_concat (h : k ∉ es.map Prod.fst) :
    bindEntry k w (es ++ [(k, v)]) = es ++ [(k, w)] := by
  induction es with
  | nil => rw [List.nil_append, bindEntry, if_pos rfl, List.nil_append]
  | cons e es ih =>
    rw [List.map_cons, List.mem_cons, not_or] at h
    rw [List.cons_append, bindEntry, if_neg (Ne.symm h.1), ih h.2, List.cons_append]

namespace Table

variable {t : Table κ α}

omit [DecidableEq κ] in
theorem eq_of_entries_eq {t u : Table κ α} (h : t.entries = u.entries) : t = u := by
  obtain ⟨es, hes⟩ := t
  obtain ⟨fs, hfs⟩ := u
  obtain rfl : es = fs := h
  rfl

/-- **A key is bound to what its entry says.** -/
theorem get?_eq_some_iff : t.get? k = some v ↔ (k, v) ∈ t.entries :=
  lookup_eq_some_iff_mem t.nodup_keys

omit [DecidableEq κ] in
theorem not_mem_keys_of_entries_eq_concat (h : t.entries = es ++ [(k, v)]) :
    k ∉ es.map Prod.fst := by
  have hnodup := t.nodup_keys
  rw [h, List.map_append, List.map_singleton] at hnodup
  exact fun hm => (List.nodup_append.mp hnodup).2.2 k hm k (List.mem_singleton_self k) rfl

theorem get?_of_entries_eq_concat (h : t.entries = es ++ [(k, v)]) : t.get? k = some v := by
  rw [get?, h, lookup_concat_of_not_mem_keys (not_mem_keys_of_entries_eq_concat h)]

theorem entries_put_of_entries_eq_concat (h : t.entries = es ++ [(k, v)]) :
    (t.put k w).entries = es ++ [(k, w)] := by
  change bindEntry k w t.entries = es ++ [(k, w)]
  rw [h, bindEntry_concat (not_mem_keys_of_entries_eq_concat h)]

theorem entries_put_of_not_mem_keys (h : k ∉ t.entries.map Prod.fst) :
    (t.put k v).entries = t.entries ++ [(k, v)] :=
  bindEntry_of_not_mem_keys h

end Table

end Parley
