/-!
# Tables

A table binds keys to values and remembers the order in which the keys were first bound. Binding a
key again keeps its place. Equality of tables therefore also compares the order; two tables that
bind the same keys to the same values agree on every `get?`.

## Implementation notes

The keys of a table are pairwise distinct by construction, so a key has one entry and `get?` may
stop at the first.
-/

namespace Parley

variable {κ : Type} {α : Type} [DecidableEq κ]

/-- The entries after binding `k` to `v`: in place when `k` is bound, at the end otherwise. -/
def bindEntry (k : κ) (v : α) : List (κ × α) → List (κ × α)
  | [] => [(k, v)]
  | e :: es => if e.1 = k then (k, v) :: es else e :: bindEntry k v es

theorem mem_keys_bindEntry {k k' : κ} {v : α} {es : List (κ × α)} :
    k' ∈ (bindEntry k v es).map Prod.fst ↔ k' = k ∨ k' ∈ es.map Prod.fst := by
  induction es with
  | nil => simp [bindEntry]
  | cons e es ih =>
    rw [bindEntry]
    split
    · next h => simp [h]
    · simp only [List.map_cons, List.mem_cons, ih]
      exact ⟨fun h => h.elim (.inr ∘ .inl) (·.elim .inl (.inr ∘ .inr)),
        fun h => h.elim (.inr ∘ .inl) (·.elim .inl (.inr ∘ .inr))⟩

theorem nodup_keys_bindEntry {k : κ} {v : α} {es : List (κ × α)} (h : (es.map Prod.fst).Nodup) :
    ((bindEntry k v es).map Prod.fst).Nodup := by
  induction es with
  | nil => simp [bindEntry]
  | cons e es ih =>
    rw [List.map_cons, List.nodup_cons] at h
    rw [bindEntry]
    split
    · next he => rw [List.map_cons, List.nodup_cons]; exact he ▸ h
    · next he =>
      rw [List.map_cons, List.nodup_cons, mem_keys_bindEntry]
      exact ⟨fun hm => hm.elim he h.1, ih h.2⟩

/-- Keys bound to values, in the order in which the keys were first bound. -/
structure Table (κ α : Type) where
  entries : List (κ × α)
  nodup_keys : (entries.map Prod.fst).Nodup

namespace Table

/-- The table that binds nothing. -/
def empty : Table κ α := ⟨[], List.nodup_nil⟩

/-- The bound keys, in order. -/
def keys (t : Table κ α) : List κ := t.entries.map Prod.fst

/-- How many keys are bound. -/
def size (t : Table κ α) : Nat := t.entries.length

/-- The value bound to a key. -/
def get? (t : Table κ α) (k : κ) : Option α := t.entries.lookup k

/-- The value bound to a key, or a default. -/
def getD (t : Table κ α) (k : κ) (v : α) : α := (t.get? k).getD v

/-- Whether a key is bound. -/
def contains (t : Table κ α) (k : κ) : Bool := (t.get? k).isSome

/-- Bind a key, in place when it was bound. -/
def put (t : Table κ α) (k : κ) (v : α) : Table κ α :=
  ⟨bindEntry k v t.entries, nodup_keys_bindEntry t.nodup_keys⟩

/-- Bind keys from left to right; of two values for one key the later stays. -/
def ofList (es : List (κ × α)) : Table κ α := es.foldl (fun t e => t.put e.1 e.2) empty

instance : Inhabited (Table κ α) := ⟨empty⟩

theorem lookup_cons (k : κ) (e : κ × α) (es : List (κ × α)) :
    (e :: es).lookup k = if k = e.1 then some e.2 else es.lookup k := by
  have unfolded : (e :: es).lookup k = bif k == e.1 then some e.2 else es.lookup k := by
    show (match k == e.1 with
      | true => some e.2
      | false => es.lookup k) = _
    cases k == e.1 <;> rfl
  rw [unfolded]
  by_cases h : k = e.1
  · rw [if_pos h, beq_iff_eq.2 h]
    rfl
  · rw [if_neg h, beq_eq_false_iff_ne.2 h]
    rfl

theorem lookup_bindEntry (k k' : κ) (v : α) (es : List (κ × α)) :
    (bindEntry k v es).lookup k' = if k' = k then some v else es.lookup k' := by
  induction es with
  | nil => simp [bindEntry, lookup_cons]
  | cons e es ih =>
    rw [bindEntry]
    by_cases he : e.1 = k
    · rw [if_pos he, lookup_cons, lookup_cons, he]
      by_cases h : k' = k <;> simp [h]
    · rw [if_neg he, lookup_cons, lookup_cons, ih]
      by_cases h : k' = e.1
      · simp [h, he]
      · simp [h]

@[simp] theorem get?_empty (k : κ) : (empty : Table κ α).get? k = none := rfl

@[simp] theorem get?_put (t : Table κ α) (k k' : κ) (v : α) :
    (t.put k v).get? k' = if k' = k then some v else t.get? k' :=
  lookup_bindEntry k k' v t.entries

end Table

end Parley
