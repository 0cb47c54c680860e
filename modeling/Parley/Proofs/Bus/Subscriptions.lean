import Mathlib.Data.List.Basic
import Mathlib.Data.List.Induction
import Parley.Proofs.Bus.Order

/-!
# Who is called, and in which order

Handlers subscribe to kinds of events, at any priority and as often as they like, and subscriptions
are removed by handler or by kind. What is left at any time says who is called: the subscriptions
that were made and that nothing removed since, higher priorities first, and those of one priority in
the order in which they were made.

A subscription is put in front of the first one with a lower priority. That is its place only if the
list is arranged already, and removing must not spoil the arrangement. So what is carried through
the calls is that the list is arranged, `IsCallingOrder`, together with what it is an arrangement
of. An arrangement is compared with the subscriptions priority by priority, which makes it the only
one: a permutation in descending order would leave open who comes first at equal priorities.

## Main definitions

* `IsCallingOrder` — an arrangement of subscriptions for calling
* `Registry.Call` — what can be done about subscriptions
* `Registry.live` — the subscriptions that were made and not removed since

## Main results

* `IsCallingOrder.unique` — subscriptions have one arrangement
* `Registry.isCallingOrder_handlers` — calls keep the handlers arranged
* `Host.isCallingOrder_run_quiet` — so they do when a host carries them out
-/

namespace Parley

variable {W χ κ δ η ε α : Type}

/-! ### Arrangements -/

/-- The subscriptions of one priority, in order. -/
def Subscription.ofPriority (p : Int) (ss : List (Subscription η)) : List (Subscription η) :=
  ss.filter fun s => s.priority = p

/-- Subscriptions arranged for calling. -/
structure IsCallingOrder (made called : List (Subscription η)) : Prop where
  /-- Higher priorities come first. -/
  descending : called.Pairwise fun s t => t.priority ≤ s.priority
  /-- Each priority has its subscriptions in the order in which they were made. -/
  ofPriority_eq (p : Int) : Subscription.ofPriority p called = Subscription.ofPriority p made

namespace Subscription

variable {p : Int} {s t : Subscription η} {ss : List (Subscription η)}

theorem ofPriority_append (p : Int) (ss ts : List (Subscription η)) :
    ofPriority p (ss ++ ts) = ofPriority p ss ++ ofPriority p ts :=
  List.filter_append ..

theorem ofPriority_cons_of_eq (h : s.priority = p) (ss : List (Subscription η)) :
    ofPriority p (s :: ss) = s :: ofPriority p ss :=
  List.filter_cons_of_pos (decide_eq_true h)

theorem ofPriority_cons_of_ne (h : s.priority ≠ p) (ss : List (Subscription η)) :
    ofPriority p (s :: ss) = ofPriority p ss :=
  List.filter_cons_of_neg (by simpa using h)

theorem ofPriority_eq_nil (h : ∀ s ∈ ss, s.priority < p) : ofPriority p ss = [] := by
  refine List.filter_eq_nil_iff.mpr fun s hs => ?_
  have hlt := h s hs
  simp only [decide_eq_true_eq]
  omega

theorem mem_insert : t ∈ s.insert ss ↔ t = s ∨ t ∈ ss := by
  induction ss with
  | nil => simp [insert]
  | cons x xs ih =>
    rw [insert]
    split
    · exact List.mem_cons
    · rw [List.mem_cons, ih, List.mem_cons]
      tauto

theorem descending_insert (s : Subscription η)
    (h : ss.Pairwise fun s t => t.priority ≤ s.priority) :
    (s.insert ss).Pairwise fun s t => t.priority ≤ s.priority := by
  induction ss with
  | nil => exact List.pairwise_singleton ..
  | cons x xs ih =>
    obtain ⟨hx, hxs⟩ := List.pairwise_cons.mp h
    rw [insert]
    split
    · next hlt =>
      refine List.pairwise_cons.mpr ⟨fun t ht => ?_, h⟩
      rcases List.mem_cons.mp ht with rfl | ht
      · omega
      · have hle := hx t ht
        omega
    · next hle =>
      refine List.pairwise_cons.mpr ⟨fun t ht => ?_, ih hxs⟩
      rcases mem_insert.mp ht with rfl | ht
      · omega
      · exact hx t ht

/-- In a list in descending order, a subscription is put behind all others of its priority. -/
theorem ofPriority_insert (p : Int) (s : Subscription η)
    (h : ss.Pairwise fun s t => t.priority ≤ s.priority) :
    ofPriority p (s.insert ss) = ofPriority p ss ++ ofPriority p [s] := by
  induction ss with
  | nil => rfl
  | cons x xs ih =>
    obtain ⟨hx, hxs⟩ := List.pairwise_cons.mp h
    rw [insert]
    split
    · next hlt =>
      by_cases hp : s.priority = p
      · -- everything from here on has a lower priority
        have hnone : ofPriority p (x :: xs) = [] := by
          refine ofPriority_eq_nil fun t ht => ?_
          rcases List.mem_cons.mp ht with rfl | ht
          · omega
          · have hle := hx t ht
            omega
        rw [ofPriority_cons_of_eq hp, ofPriority_cons_of_eq hp, hnone]
        rfl
      · rw [ofPriority_cons_of_ne hp, ofPriority_cons_of_ne hp]
        exact (List.append_nil _).symm
    · by_cases hp : x.priority = p
      · rw [ofPriority_cons_of_eq hp, ofPriority_cons_of_eq hp, ih hxs, List.cons_append]
      · rw [ofPriority_cons_of_ne hp, ofPriority_cons_of_ne hp, ih hxs]

/-- The first of the subscriptions in descending order has the highest priority. -/
theorem priority_le_of_ofPriority_eq {ts : List (Subscription η)}
    (h : (t :: ts).Pairwise fun s t => t.priority ≤ s.priority)
    (hsame : ofPriority s.priority (t :: ts) = ofPriority s.priority (s :: ss)) :
    s.priority ≤ t.priority := by
  have hs : s ∈ ofPriority s.priority (t :: ts) := by
    rw [hsame, ofPriority_cons_of_eq rfl]
    exact List.mem_cons_self
  rcases List.mem_cons.mp (List.mem_of_mem_filter hs) with rfl | hs
  · exact Int.le_refl _
  · exact (List.pairwise_cons.mp h).1 s hs

end Subscription

namespace IsCallingOrder

open Subscription

variable {made called called' : List (Subscription η)}

theorem nil : IsCallingOrder ([] : List (Subscription η)) [] := ⟨.nil, fun _ => rfl⟩

theorem insert (h : IsCallingOrder made called) (s : Subscription η) :
    IsCallingOrder (made ++ [s]) (s.insert called) where
  descending := descending_insert s h.descending
  ofPriority_eq p := by rw [ofPriority_insert p s h.descending, h.ofPriority_eq, ofPriority_append]

theorem filter (h : IsCallingOrder made called) (f : Subscription η → Bool) :
    IsCallingOrder (made.filter f) (called.filter f) where
  descending := h.descending.filter f
  ofPriority_eq p := by
    have hsame := congrArg (List.filter f) (h.ofPriority_eq p)
    simpa only [ofPriority, List.filter_filter, Bool.and_comm] using hsame

/-- An arrangement has the same subscriptions, each as often as it was made. -/
theorem perm (h : IsCallingOrder made called) : called.Perm made := by
  classical
  refine List.perm_iff_count.mpr fun s => ?_
  have hcount (ss : List (Subscription η)) : (ofPriority s.priority ss).count s = ss.count s :=
    List.count_filter (decide_eq_true rfl)
  rw [← hcount, h.ofPriority_eq, hcount]

/-- **Subscriptions have one arrangement.** -/
theorem unique (h : IsCallingOrder made called) (h' : IsCallingOrder made called') :
    called = called' := by
  have hsame (p : Int) : ofPriority p called = ofPriority p called' :=
    (h.ofPriority_eq p).trans (h'.ofPriority_eq p).symm
  have hdescending := h.descending
  have hdescending' := h'.descending
  clear h h'
  induction called generalizing called' with
  | nil =>
    cases called' with
    | nil => rfl
    | cons t ts =>
      have hnone := hsame t.priority
      rw [ofPriority_cons_of_eq rfl] at hnone
      cases hnone
  | cons s ss ih =>
    cases called' with
    | nil =>
      have hnone := hsame s.priority
      rw [ofPriority_cons_of_eq rfl] at hnone
      cases hnone
    | cons t ts =>
      have hst := priority_le_of_ofPriority_eq hdescending' (hsame s.priority).symm
      have hts := priority_le_of_ofPriority_eq hdescending (hsame t.priority)
      have hp : t.priority = s.priority := Int.le_antisymm hts hst
      have hfirst := hsame s.priority
      rw [ofPriority_cons_of_eq rfl, ofPriority_cons_of_eq hp, List.cons.injEq] at hfirst
      obtain ⟨rfl, -⟩ := hfirst
      refine congrArg (s :: ·) (ih (fun p => ?_) hdescending.of_cons hdescending'.of_cons)
      have hrest := hsame p
      by_cases h : s.priority = p
      · rw [ofPriority_cons_of_eq h, ofPriority_cons_of_eq h] at hrest
        exact (List.cons.inj hrest).2
      · rwa [ofPriority_cons_of_ne h, ofPriority_cons_of_ne h] at hrest

end IsCallingOrder

/-! ### Calls -/

variable [DecidableEq κ] [DecidableEq η]

namespace Registry

/-- What can be done about subscriptions. -/
inductive Call (κ η : Type) where
  | subscribe (kinds : List κ) (s : Subscription η)
  | unsubscribe (kind : κ) (handler : η)
  | clear (kind : Option κ)

namespace Call

/-- What a call does to a registry. -/
def apply (r : Registry κ η) : Call κ η → Registry κ η
  | subscribe kinds s => r.subscribeAll kinds s
  | unsubscribe kind handler => r.unsubscribe kind handler
  | clear kind => r.clear kind

/-- The subscriptions to a kind that a call makes: one for each time that the kind is named. -/
def made (kind : κ) : Call κ η → List (Subscription η)
  | subscribe kinds s => List.replicate (kinds.count kind) s
  | unsubscribe .. => []
  | clear _ => []

/-- Whether a call removes a subscription to a kind, made earlier. -/
def removes (kind : κ) (s : Subscription η) : Call κ η → Bool
  | subscribe .. => false
  | unsubscribe kind' handler => decide (kind' = kind ∧ handler = s.handler)
  | clear (some kind') => decide (kind' = kind)
  | clear none => true

end Call

/-- The subscriptions to a kind that calls made and that no later call removed, in the order in
which they were made. -/
def live (kind : κ) : List (Call κ η) → List (Subscription η)
  | [] => []
  | call :: later =>
    (call.made kind).filter (fun s => later.all fun l => !l.removes kind s) ++ live kind later

theorem live_concat (kind : κ) (calls : List (Call κ η)) (call : Call κ η) :
    live kind (calls ++ [call]) =
      (live kind calls).filter (fun s => !call.removes kind s) ++ call.made kind := by
  induction calls with
  | nil => simp [live]
  | cons first rest ih =>
    rw [List.cons_append, live, ih, live, List.filter_append, List.filter_filter,
      List.append_assoc]
    simp [Bool.and_comm]

variable {r : Registry κ η} {kind kind' : κ} {made : List (Subscription η)}

omit [DecidableEq η] in
theorem handlers_change (r : Registry κ η) (kind kind' : κ)
    (f : List (Subscription η) → List (Subscription η)) :
    (r.change kind f).handlers kind' =
      if kind' = kind then f (r.handlers kind') else r.handlers kind' := by
  have hget : Table.get? (r.change kind f) kind' =
      if kind' = kind then some (f (r.handlers kind)) else Table.get? r kind' := Table.get?_put ..
  show (Table.get? (r.change kind f) kind').getD [] = _
  rw [hget]
  by_cases h : kind' = kind
  · rw [if_pos h, if_pos h, h]
    rfl
  · rw [if_neg h, if_neg h]
    rfl

omit [DecidableEq η] in
theorem isCallingOrder_subscribeAll (kinds : List κ) (s : Subscription η)
    (h : IsCallingOrder made (r.handlers kind)) :
    IsCallingOrder (made ++ List.replicate (kinds.count kind) s)
      ((r.subscribeAll kinds s).handlers kind) := by
  induction kinds generalizing r made with
  | nil => simpa [subscribeAll] using h
  | cons k ks ih =>
    have hfirst : (r.subscribe k s).handlers kind =
        if kind = k then s.insert (r.handlers kind) else r.handlers kind := handlers_change ..
    by_cases hk : kind = k
    · rw [if_pos hk] at hfirst
      have hrest := ih (hfirst ▸ h.insert s)
      rw [hk, List.count_cons_self, List.replicate_succ]
      rwa [List.append_assoc, hk] at hrest
    · rw [if_neg hk] at hfirst
      rw [List.count_cons_of_ne (Ne.symm hk)]
      exact ih (hfirst ▸ h)

theorem isCallingOrder_unsubscribe (k : κ) (handler : η)
    (h : IsCallingOrder made (r.handlers kind)) :
    IsCallingOrder (made.filter fun s => !(Call.unsubscribe k handler).removes kind s)
      ((r.unsubscribe k handler).handlers kind) := by
  have hleft : (r.unsubscribe k handler).handlers kind =
      if kind = k then (r.handlers kind).filter (fun s => s.handler != handler)
      else r.handlers kind := handlers_change ..
  by_cases hk : kind = k
  · have hsame : (fun s : Subscription η => !(Call.unsubscribe k handler).removes kind s) =
        fun s => s.handler != handler := by
      funext s
      simp [Call.removes, hk, bne, eq_comm, beq_eq_decide]
    rw [hleft, if_pos hk, hsame]
    exact h.filter _
  · have hall : (fun s : Subscription η => !(Call.unsubscribe k handler).removes kind s) =
        fun _ => true := by
      funext s
      simp [Call.removes, Ne.symm hk]
    rw [hleft, if_neg hk, hall, List.filter_true]
    exact h

theorem isCallingOrder_clear (k : Option κ) (h : IsCallingOrder made (r.handlers kind)) :
    IsCallingOrder (made.filter fun s => !(Call.clear k).removes kind s)
      ((r.clear k).handlers kind) := by
  cases k with
  | none =>
    rw [show made.filter (fun s => !(Call.clear none).removes kind s) = [] from
      List.filter_false made]
    exact .nil
  | some k =>
    have hleft : (r.clear (some k)).handlers kind =
        if kind = k then [] else r.handlers kind := handlers_change ..
    by_cases hk : kind = k
    · rw [hleft, if_pos hk]
      simpa [Call.removes, hk] using IsCallingOrder.nil
    · rw [hleft, if_neg hk]
      simpa [Call.removes, Ne.symm hk] using h

/-- A call keeps the handlers of a kind arranged. -/
theorem isCallingOrder_apply (h : IsCallingOrder made (r.handlers kind)) (call : Call κ η) :
    IsCallingOrder (made.filter (fun s => !call.removes kind s) ++ call.made kind)
      ((call.apply r).handlers kind) := by
  cases call with
  | subscribe kinds s =>
    have hkept : made.filter (fun t => !(Call.subscribe kinds s).removes kind t) = made :=
      List.filter_true made
    rw [hkept]
    exact isCallingOrder_subscribeAll kinds s h
  | unsubscribe k handler =>
    rw [Call.made, List.append_nil]
    exact isCallingOrder_unsubscribe k handler h
  | clear k =>
    rw [Call.made, List.append_nil]
    exact isCallingOrder_clear k h

/-- **Handlers are arranged**, whatever calls are made. -/
theorem isCallingOrder_handlers (kind : κ) (calls : List (Call κ η)) :
    IsCallingOrder (live kind calls) ((calls.foldl Call.apply empty).handlers kind) := by
  induction calls using List.reverseRecOn with
  | nil => exact .nil
  | append_singleton calls call ih =>
    rw [live_concat, List.foldl_concat]
    exact isCallingOrder_apply ih call

/-- A handler that leaves and comes back is the last one of its priority. -/
example :
    (([.subscribe [true] ⟨0, 1⟩, .subscribe [true, false] ⟨0, 2⟩, .unsubscribe true 1,
        .subscribe [true, true] ⟨5, 3⟩, .subscribe [true] ⟨0, 1⟩] : List (Call Bool Nat)).foldl
      Call.apply empty).handlers true = [⟨5, 3⟩, ⟨5, 3⟩, ⟨0, 2⟩, ⟨0, 1⟩] := by decide

end Registry

/-! ### Hosts -/

namespace Host

variable [DecidableEq χ] {c : χ} {publisher : Publisher W χ κ δ η ε}

/-- A call as a turn on a channel. -/
def callTurn (c : χ) : Registry.Call κ η → HostTurn W χ κ δ η ε Unit
  | .subscribe kinds s => HostTurn.subscribe c kinds s
  | .unsubscribe kind handler => HostTurn.unsubscribe c kind handler
  | .clear kind => HostTurn.clear c kind

theorem perform_callTurn (call : Registry.Call κ η) (next : Unit → HostTurn W χ κ δ η ε α)
    (h : Host W χ κ δ η) :
    ((callTurn c call >>= next) h.world).perform publisher h =
      (next () h.world).perform publisher (h.changeRegistry c call.apply) := by
  cases call <;> rfl

variable (publisher) in
/-- Calls are carried out one after the other, and nothing else happens. -/
theorem perform_each_callTurn (calls : List (Registry.Call κ η))
    (next : Unit → HostTurn W χ κ δ η ε α) (h : Host W χ κ δ η) :
    ∃ h', ((Turn.each (callTurn c) calls >>= next) h.world).perform publisher h =
        (next () h'.world).perform publisher h' ∧
      (h'.channel c).registry = calls.foldl Registry.Call.apply (h.channel c).registry := by
  induction calls generalizing h with
  | nil => exact ⟨h, rfl, rfl⟩
  | cons call calls ih =>
    obtain ⟨h', hperform, hregistry⟩ := ih (h.changeRegistry c call.apply)
    refine ⟨h', ?_, ?_⟩
    · rw [Turn.each, bind_assoc, perform_callTurn]
      exact hperform
    · rw [hregistry, changeRegistry, channel_changeChannel]
      rfl

/-- **Handlers are called in order of priority**, and in the order of subscription where priorities
are equal. Whatever calls are made on a new channel, the handlers of a kind are the one arrangement
of the subscriptions to it that were made and not removed since, and counting them counts those. -/
theorem isCallingOrder_run_quiet (listeners : Listeners W χ κ δ η ε) (supply : Nat) (w : W) (c : χ)
    (calls : List (Registry.Call κ η)) (kind : κ) :
    let r := run listeners supply
      (do
        Turn.each (callTurn c) calls
        HostTurn.count c kind) (quiet w)
    r.1 = .returned (Registry.live kind calls).length ∧
      ∀ ss, IsCallingOrder (Registry.live kind calls) ss ↔
        (r.2.channel c).registry.handlers kind = ss := by
  obtain ⟨h, hperform, hregistry⟩ := perform_each_callTurn (publish listeners supply) calls
    (fun _ => HostTurn.count c kind) (quiet w)
  have hrun : run listeners supply
      (do
        Turn.each (callTurn c) calls
        HostTurn.count c kind) (quiet w) =
      (.returned ((h.channel c).registry.count kind), h) := hperform
  have harranged : IsCallingOrder (Registry.live kind calls)
      ((h.channel c).registry.handlers kind) := by
    rw [hregistry]
    exact Registry.isCallingOrder_handlers kind calls
  rw [hrun]
  refine ⟨congrArg Outcome.returned harranged.perm.length_eq, fun ss => ⟨harranged.unique, ?_⟩⟩
  rintro rfl
  exact harranged

end Host

end Parley
