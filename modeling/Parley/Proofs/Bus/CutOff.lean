import Parley.Proofs.Bus.Order

/-!
# Deliveries that are cut off

A call that aborts ends the delivery it happens in, and with it the publication that brought the
delivery about. It is the last call that is made: the listeners next in line are not called, and
what waits is not delivered. A call that fails without aborting does nothing of the kind.

So a publication on an idle channel that does not come back has done what one that comes back does,
up to a certain call. The deliveries before are as they always are. The last delivery has called
some of those who listen, each of whom came back and left the event to be heard by others, and the
next one aborted.

## Main definitions

* `Delivery.CutOff` — a delivery that is cut off
* `Host.CutOff` — deliveries in order, the last of which is cut off

## Main results

* `Host.exists_cutOff_of_publish` — only an abort keeps a publication from coming back, and it does
  so at once
-/

namespace Parley

variable {W χ κ δ η ε α : Type} [DecidableEq χ] [DecidableEq κ] [DecidableEq η]
  {listeners : Listeners W χ κ δ η ε} {publisher : Publisher W χ κ δ η ε} {c : χ} {next : Nat}
  {past : List (Entry χ η)} {h h' : Host W χ κ δ η} {ticket : Nat} {kind : κ} {u : Upset ε}

/-! ### Deliveries that are cut off -/

variable (listeners c) in
/-- A delivery that is cut off: some calls came back, and the next one aborts and leaves `h'`. -/
structure Delivery.CutOff (d : Delivery W χ κ δ η) (s : Subscription η) (message : Text)
    (h' : Host W χ κ δ η) : Prop where
  kind_eq : d.found.events[d.ticket]?.map Event.kind = some d.kind
  /-- Every call before it came back, and left the event to be heard by others. -/
  called : Host.Called listeners c d.ticket d.kind (d.found.record (.dispatched c d.ticket))
    d.called d.called
  unconsumed (hcalled : d.called ≠ []) : (d.left listeners c).isConsumed d.ticket = false
  of_first : d.called ++ [s] <+: (d.found.channel c).registry.handlers d.kind
  aborts : Host.call listeners c d.ticket d.kind s (d.left listeners c) =
    (.failed (.abort message), h')

namespace Host

theorem call_ne_error (s : Subscription η) (h : Host W χ κ δ η) (e : ε) :
    (call listeners c ticket kind s h).1 ≠ .failed (.error e) := by
  rw [call]
  split
  · intro hreturned
    cases hreturned
  · next hne =>
    intro hfailed
    exact hne e _ (Prod.ext hfailed rfl)

variable [Subsingleton χ]

/-- The calls that are made for an event, up to one that aborts. -/
theorem exists_cutOff_of_callAll (hh : h.Delivering c next past) {ss : List (Subscription η)}
    (hr : callAll listeners publisher c ticket kind ss h = (.failed u, h')) :
    ∃ message called s, u = .abort message ∧ called ++ [s] <+: ss ∧
      Called listeners c ticket kind h called called ∧
      (called ≠ [] → (callEach listeners c ticket kind called h).isConsumed ticket = false) ∧
      call listeners c ticket kind s (callEach listeners c ticket kind called h) =
        (.failed (.abort message), h') := by
  induction ss generalizing h past with
  | nil => cases hr
  | cons s ss ih =>
    have hcalled : (call listeners c ticket kind s h).2.Delivering c next _ := hh.call s
    rw [callAll_cons hh] at hr
    split at hr
    · rename_i g hcall
      rw [hcall] at hcalled
      split at hr
      · cases hr
      · rename_i hfree
        rw [Bool.not_eq_true] at hfree
        obtain ⟨message, called, t, rfl, hfirst, hrest, hunconsumed, haborts⟩ := ih hcalled hr
        refine ⟨message, s :: called, t, rfl, List.cons_prefix_cons.mpr ⟨rfl, hfirst⟩,
          hrest.cons hcall hfree, fun _ => ?_, ?_⟩
        · rw [callEach_cons hcall]
          by_cases hnone : called = []
          · rw [hnone]
            exact hfree
          · exact hunconsumed hnone
        · rw [callEach_cons hcall]
          exact haborts
    · cases u with
      | error e => exact absurd (congrArg Prod.fst hr) (call_ne_error s h e)
      | abort message =>
        exact ⟨message, [], s, rfl, List.prefix_append [s] ss, called_nil, absurd rfl, hr⟩

/-- A delivery that does not come to its end. -/
theorem exists_cutOff_of_dispatch (hh : h.Delivering c (ticket + 1) past)
    (hr : dispatch listeners publisher c ticket h = (.failed u, h')) :
    ∃ message, ∃ d : Delivery W χ κ δ η, ∃ s, u = .abort message ∧ d.ticket = ticket ∧
      d.found = h ∧ d.CutOff listeners c s message h' := by
  have hticket : ticket < h.events.size := hh.next_le
  rw [dispatch, Array.getElem?_eq_getElem hticket] at hr
  obtain ⟨message, called, s, rfl, hfirst, hcalled, hunconsumed, haborts⟩ :=
    exists_cutOff_of_callAll (hh.record _) hr
  refine ⟨message, ⟨ticket, h.events[ticket].kind, h, called⟩, s, rfl, rfl, rfl, ?_, hcalled,
    hunconsumed, hfirst, haborts⟩
  rw [Array.getElem?_eq_getElem hticket]
  rfl

variable (listeners c) in
/-- Deliveries that come one after the other and begin on `h`, the last of which is cut off by a
call that leaves `h'`. Nothing was delivered after that call. -/
structure CutOff (h : Host W χ κ δ η) (ds : List (Delivery W χ κ δ η)) (d : Delivery W χ κ δ η)
    (s : Subscription η) (message : Text) (h' : Host W χ κ δ η) : Prop where
  proper : ∀ d ∈ ds, d.Proper listeners c
  begins : (ds ++ [d]).head?.map Delivery.found = some h
  follows : (ds ++ [d]).IsChain fun d d' => d'.found = (d.left listeners c).pop c
  cutOff : d.CutOff listeners c s message h'
  dealings : h'.dealings =
    h.dealings ++ (ds ++ [d]).flatMap (Delivery.entries c) ++ [.called c d.ticket s.handler]

section

variable {d d' : Delivery W χ κ δ η} {ds : List (Delivery W χ κ δ η)} {s : Subscription η}
  {message : Text}

theorem cutOff_nil (hd : d.found.Delivering c next past)
    (hcut : d.CutOff listeners c s message h') :
    CutOff listeners c d.found [] d s message h' where
  proper := List.forall_mem_nil _
  begins := rfl
  follows := .singleton d
  cutOff := hcut
  dealings := by
    have hlast : (call listeners c d.ticket d.kind s (d.left listeners c)).2.dealings =
        past ++ d.entries c ++ [.called c d.ticket s.handler] :=
      ((hd.left listeners).call s).dealings_eq
    rw [hcut.aborts] at hlast
    rw [hlast, hd.dealings_eq, List.nil_append, List.flatMap_singleton]

theorem CutOff.cons (hd : d.found.Delivering c next past) (hproper : d.Proper listeners c)
    (hds : CutOff listeners c ((d.left listeners c).pop c) ds d' s message h') :
    CutOff listeners c d.found (d :: ds) d' s message h' where
  proper := List.forall_mem_cons.mpr ⟨hproper, hds.proper⟩
  begins := rfl
  follows := by
    obtain ⟨first, rest, hfirst⟩ : ∃ first rest, ds ++ [d'] = first :: rest :=
      List.exists_cons_of_ne_nil (List.concat_ne_nil d' ds)
    have hbegins := hds.begins
    have hfollows := hds.follows
    rw [hfirst] at hbegins hfollows
    rw [List.cons_append, hfirst]
    exact List.isChain_cons_cons.mpr ⟨Option.some.inj hbegins, hfollows⟩
  cutOff := hds.cutOff
  dealings := by
    have hleft : ((d.left listeners c).pop c).dealings = past ++ d.entries c :=
      (hd.left listeners).dealings_eq
    rw [hds.dealings, hleft, hd.dealings_eq, List.cons_append, List.flatMap_cons]
    simp only [List.append_assoc]

/-- After a delivery come the deliveries of what waits, up to one that is cut off. -/
theorem exists_cutOff_of_drain (hd : d.found.Delivering c (d.ticket + 1) past)
    (hproper : d.Proper listeners c) {n : Nat}
    (hr : drain listeners publisher c n (d.left listeners c) = (.failed u, h')) :
    ∃ message ds d' s, u = .abort message ∧
      CutOff listeners c d.found (d :: ds) d' s message h' ∧
      (d :: (ds ++ [d'])).map Delivery.ticket = List.range' d.ticket (ds.length + 2) := by
  generalize hleft : d.left listeners c = g at hr
  fun_induction drain listeners publisher c n g generalizing d past with
  | case1 | case2 => cases hr
  | case3 g ticket rest n hqueue _ f hdispatch ih =>
    rw [← hleft] at hqueue hdispatch
    obtain ⟨rfl, hpop⟩ := (hd.left listeners).pop hqueue
    rw [pop_of_queue_eq hqueue] at hdispatch
    obtain ⟨d', hticket, hfound, hleft', hproper'⟩ := exists_proper_of_dispatch hpop hdispatch
    rw [← hfound, ← hticket] at hpop
    obtain ⟨message, ds, last, s, hu, hds, htickets⟩ := ih hpop hproper' hleft' hr
    rw [hfound] at hds
    rw [hticket] at htickets
    refine ⟨message, d' :: ds, last, s, hu, hds.cons hd hproper, ?_⟩
    rw [List.cons_append, List.map_cons, htickets, List.length_cons, ← List.range'_succ]
  | case4 g ticket rest n hqueue hne =>
    rw [← hleft] at hqueue hr
    obtain ⟨rfl, hpop⟩ := (hd.left listeners).pop hqueue
    rw [pop_of_queue_eq hqueue] at hr
    obtain ⟨message, last, s, hu, hticket, hfound, hcut⟩ := exists_cutOff_of_dispatch hpop hr
    rw [← hfound] at hpop
    have hlast := cutOff_nil hpop hcut
    rw [hfound] at hlast
    refine ⟨message, [], last, s, hu, hlast.cons hd hproper, ?_⟩
    rw [List.nil_append, List.map_cons, List.map_singleton, hticket]
    rfl

end

/-- A publication that does not come back. -/
theorem exists_cutOff_of_publish (hh : (h.occupy c).Delivering c (ticket + 1) past)
    {supply : Nat} (hr : publish listeners supply c ticket h = (.failed u, h')) :
    ∃ message ds d s g, u = .abort message ∧
      CutOff listeners c (h.occupy c) ds d s message g ∧ h' = g.release c ∧
      (ds ++ [d]).map Delivery.ticket = List.range' ticket (ds.length + 1) := by
  obtain ⟨n, g, rfl, ⟨f, hdispatch, hdrain⟩ | ⟨-, hdispatch⟩⟩ := exists_of_publish hr (by simp)
  · obtain ⟨d, rfl, hfound, rfl, hproper⟩ := exists_proper_of_dispatch hh hdispatch
    rw [← hfound] at hh ⊢
    obtain ⟨message, ds, last, s, hu, hds, htickets⟩ := exists_cutOff_of_drain hh hproper hdrain
    exact ⟨message, d :: ds, last, s, g, hu, hds, rfl, htickets⟩
  · obtain ⟨message, d, s, hu, rfl, hfound, hd⟩ := exists_cutOff_of_dispatch hh hdispatch
    rw [← hfound] at hh ⊢
    exact ⟨message, [], d, s, g, hu, cutOff_nil hh hd, rfl, rfl⟩

end Host

end Parley
