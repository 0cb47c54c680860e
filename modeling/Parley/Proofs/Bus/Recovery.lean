import Parley.Proofs.Bus.CutOff

/-!
# Channels recover

Whether a publication comes back or is cut off, its channel is idle afterwards. That says that
nothing is left of the delivery, and not yet what comes of it. For this the host is compared with a
new one, `Host.renewed`: the same world with the same events, the same subscriptions, and nothing
else. Whatever turn is taken next, it goes the same way on both, and everything delivered in it was
published in it. So what is called for the next event depends on the event, on who is subscribed and
on what they do, and never on what was going on before.

## Main definitions

* `Host.renewed` — a new host with the same subscriptions
* `Host.AsNew` — two hosts that differ only in what they have on record of earlier
* `Host.Recovered` — how a publication ends, and what it leaves

## Main results

* `Host.AsNew.run` — a turn goes the same way on two such hosts
* `Host.recovered_publish` — a channel recovers from every publication

## Implementation notes

As in the theory of order, a host has one channel here. A host whose supply ran out stands for no
end of the program, but the channel is idle even then.
-/

namespace Parley

variable {W χ κ δ η ε α : Type} [DecidableEq χ] [DecidableEq κ] {c : χ} {first ticket : Nat}
  {past : List (Entry χ η)} {h h' : Host W χ κ δ η}

/-- The event that an entry is about, unless it is a remark. -/
def Entry.ticket? : Entry χ η → Option Nat
  | dispatched _ ticket => some ticket
  | called _ ticket _ => some ticket
  | remark _ => none

namespace Host

/-- A new host with the same subscriptions, in the same world with the same events. -/
def renewed (h : Host W χ κ δ η) (c : χ) : Host W χ κ δ η :=
  (⟨h.world, .empty, h.events, #[]⟩ : Host W χ κ δ η).changeRegistry c fun _ =>
    (h.channel c).registry

/-- The host `h` is as `h'` is, but for the record `past` of what happened earlier. What waits and
what `h'` has on record was published since: no ticket is before `first`. -/
structure AsNew (c : χ) (first : Nat) (past : List (Entry χ η)) (h h' : Host W χ κ δ η) : Prop where
  world_eq : h.world = h'.world
  events_eq : h.events = h'.events
  channel_eq : h.channel c = h'.channel c
  journal_eq : h.journal.toList = past ++ h'.journal.toList
  le_next : first ≤ h'.nextTicket
  le_waiting : ∀ ticket ∈ (h'.channel c).queue, first ≤ ticket
  le_recorded : ∀ e ∈ h'.journal.toList, ∀ ticket ∈ e.ticket?, first ≤ ticket

namespace AsNew

theorem withWorld (hh : AsNew c first past h h') (w : W) :
    AsNew c first past { h with world := w } { h' with world := w } :=
  { hh with world_eq := rfl }

theorem nextTicket_eq (hh : AsNew c first past h h') : h.nextTicket = h'.nextTicket :=
  congrArg Array.size hh.events_eq

theorem isConsumed_eq (hh : AsNew c first past h h') (ticket : Nat) :
    h.isConsumed ticket = h'.isConsumed ticket := by
  rw [isConsumed, isConsumed, hh.events_eq]

theorem record (hh : AsNew c first past h h') {e : Entry χ η}
    (he : ∀ ticket ∈ e.ticket?, first ≤ ticket) :
    AsNew c first past (h.record e) (h'.record e) :=
  { hh with
    journal_eq := by simp [Host.record, hh.journal_eq]
    le_recorded := by
      simp only [Host.record, Array.toList_push, List.mem_append, List.mem_singleton]
      rintro e' (he' | rfl)
      · exact hh.le_recorded e' he'
      · exact he }

theorem post (hh : AsNew c first past h h') (kind : κ) (data : δ) :
    AsNew c first past (h.post kind data) (h'.post kind data) :=
  { hh with
    events_eq := by rw [Host.post, Host.post, hh.events_eq]
    le_next := hh.le_next.trans ((Nat.le_succ _).trans_eq (nextTicket_post ..).symm) }

theorem changeEvent (hh : AsNew c first past h h') (ticket : Nat) (f : Event κ δ → Event κ δ) :
    AsNew c first past (h.changeEvent ticket f) (h'.changeEvent ticket f) :=
  { hh with
    events_eq := by rw [Host.changeEvent, Host.changeEvent, hh.events_eq]
    le_next := hh.le_next.trans_eq (nextTicket_changeEvent ..).symm }

theorem changeChannel (hh : AsNew c first past h h') {f : Channel κ η → Channel κ η}
    (hf : ∀ ticket ∈ (f (h'.channel c)).queue, first ≤ ticket) :
    AsNew c first past (h.changeChannel c f) (h'.changeChannel c f) :=
  { hh with
    channel_eq := by rw [channel_changeChannel, channel_changeChannel, hh.channel_eq]
    le_waiting := by
      rw [channel_changeChannel]
      exact hf }

theorem enqueue (hh : AsNew c first past h h') (hticket : first ≤ ticket) :
    AsNew c first past (h.enqueue c ticket) (h'.enqueue c ticket) := by
  refine hh.changeChannel fun t ht => ?_
  rcases List.mem_append.mp ht with ht | ht
  · exact hh.le_waiting t ht
  · obtain rfl := List.mem_singleton.mp ht
    exact hticket

theorem pop (hh : AsNew c first past h h') : AsNew c first past (h.pop c) (h'.pop c) :=
  hh.changeChannel fun ticket hticket => hh.le_waiting ticket (List.mem_of_mem_tail hticket)

theorem occupy (hh : AsNew c first past h h') :
    AsNew c first past (h.occupy c) (h'.occupy c) :=
  hh.changeChannel hh.le_waiting

theorem release (hh : AsNew c first past h h') :
    AsNew c first past (h.release c) (h'.release c) :=
  hh.changeChannel (List.forall_mem_nil _)

theorem changeRegistry (hh : AsNew c first past h h') (f : Registry κ η → Registry κ η) :
    AsNew c first past (h.changeRegistry c f) (h'.changeRegistry c f) :=
  hh.changeChannel hh.le_waiting

end AsNew

/-- An idle host is as a new one. -/
theorem asNew_renewed (hidle : (h.channel c).IsIdle) :
    AsNew c h.nextTicket h.journal.toList h (h.renewed c) where
  world_eq := rfl
  events_eq := rfl
  channel_eq := by
    have hchannel : h.channel c = ⟨(h.channel c).registry, [], false⟩ := by
      rw [← hidle.queue_eq, ← hidle.free]
    rw [renewed, Host.changeRegistry, channel_changeChannel]
    exact hchannel
  journal_eq := (List.append_nil _).symm
  le_next := Nat.le_refl _
  le_waiting := by
    rw [renewed, Host.changeRegistry, channel_changeChannel]
    exact List.forall_mem_nil _
  le_recorded := List.forall_mem_nil _

end Host

/-! ### Turns on hosts that are as good as new -/

/-- Two turns that come out alike: with the same outcome, and on hosts that are as new. -/
structure Host.EndsAsNew (c : χ) (first : Nat) (past : List (Entry χ η))
    (r r' : Outcome ε α × Host W χ κ δ η) : Prop where
  outcome_eq : r.1 = r'.1
  asNew : AsNew c first past r.2 r'.2

/-- Go on with something after a delivery that comes back. -/
def Host.goOn (f : Host W χ κ δ η → Outcome ε Unit × Host W χ κ δ η) :
    Outcome ε Unit × Host W χ κ δ η → Outcome ε Unit × Host W χ κ δ η
  | (.returned _, h) => f h
  | r => r

theorem Host.EndsAsNew.goOn {f : Host W χ κ δ η → Outcome ε Unit × Host W χ κ δ η}
    (hf : ∀ h h', AsNew c first past h h' → EndsAsNew c first past (f h) (f h'))
    {r r' : Outcome ε Unit × Host W χ κ δ η} (hr : EndsAsNew c first past r r') :
    EndsAsNew c first past (goOn f r) (goOn f r') := by
  obtain ⟨o, h⟩ := r
  obtain ⟨o', h'⟩ := r'
  obtain ⟨rfl, hh⟩ := hr
  cases o with
  | returned => exact hf h h' hh
  | failed | exhausted => exact ⟨rfl, hh⟩

/-- Deliveries come out alike on hosts that are as new. -/
def Publisher.ComesOutAsNew (c : χ) (first : Nat) (past : List (Entry χ η))
    (publisher : Publisher W χ κ δ η ε) : Prop :=
  ∀ ticket h h', first ≤ ticket → h.AsNew c first past h' →
    Host.EndsAsNew c first past (publisher c ticket h) (publisher c ticket h')

variable [DecidableEq η] [Subsingleton χ] {publisher : Publisher W χ κ δ η ε}
  {listeners : Listeners W χ κ δ η ε} {kind : κ}

namespace Host

/-- A turn comes out the same way on a host that is as new, if deliveries do. -/
theorem AsNew.perform (hpublisher : publisher.ComesOutAsNew c first past)
    (p : Play W (Command χ κ δ η) Command.Reply (Upset ε) α) (hh : h.AsNew c first past h') :
    EndsAsNew c first past (p.perform publisher h) (p.perform publisher h') := by
  induction p generalizing h h' with
  | done w a => exact ⟨rfl, hh.withWorld w⟩
  | fail w u => exact ⟨rfl, hh.withWorld w⟩
  | pause w o k ih =>
    have hleft := hh.withWorld w
    cases o with
    | publish c' kind data =>
      obtain rfl : c = c' := Subsingleton.elim c c'
      have hposted := hleft.post kind data
      have hbusy : (h.channel c).busy = (h'.channel c).busy := congrArg _ hh.channel_eq
      cases hfree : (h'.channel c).busy with
      | true =>
        rw [Play.perform_publish_of_busy (hbusy.trans hfree), Play.perform_publish_of_busy hfree,
          hh.nextTicket_eq]
        exact ih _ _ (hposted.enqueue hh.le_next)
      | false =>
        have hends := hpublisher h'.nextTicket _ _ hh.le_next hposted
        rw [Play.perform_publish_of_free (hbusy.trans hfree), Play.perform_publish_of_free hfree,
          hh.nextTicket_eq]
        generalize publisher c h'.nextTicket ({ h with world := w }.post kind data) = r at hends ⊢
        generalize publisher c h'.nextTicket ({ h' with world := w }.post kind data) = r' at hends ⊢
        obtain ⟨o, g⟩ := r
        obtain ⟨o', g'⟩ := r'
        obtain ⟨rfl, hg⟩ := hends
        cases o with
        | returned =>
          have hworld : g.world = g'.world := hg.world_eq
          show EndsAsNew c first past ((k h'.nextTicket g.world).perform publisher g) _
          rw [hworld]
          exact ih _ _ hg
        | failed | exhausted => exact ⟨rfl, hg⟩
    | subscribe c' _ _ | unsubscribe c' _ _ | clear c' _ =>
      obtain rfl : c = c' := Subsingleton.elim c c'
      exact ih _ _ (hleft.changeRegistry _)
    | consume ticket | amend ticket f => exact ih _ _ (hleft.changeEvent ticket _)
    | count c' kind =>
      obtain rfl : c = c' := Subsingleton.elim c c'
      rw [Play.perform, Play.perform, hh.channel_eq]
      exact ih _ _ hleft
    | inspect ticket =>
      have hfound : h.events[ticket]? = h'.events[ticket]? := by rw [hh.events_eq]
      rw [Play.perform, Play.perform, hfound]
      exact ih _ _ hleft
    | remark r => exact ih _ _ (hleft.record (by rintro _ ⟨⟩))

theorem AsNew.callAll (hpublisher : publisher.ComesOutAsNew c first past) (hticket : first ≤ ticket)
    (ss : List (Subscription η)) (hh : h.AsNew c first past h') :
    EndsAsNew c first past (callAll listeners publisher c ticket kind ss h)
      (callAll listeners publisher c ticket kind ss h') := by
  induction ss generalizing h h' with
  | nil => exact ⟨rfl, hh⟩
  | cons s ss ih =>
    have hcalled := AsNew.perform hpublisher (listeners.react s.handler ticket h'.world)
      (hh.record (e := .called c ticket s.handler) fun t ht => Option.some.inj ht ▸ hticket)
    rw [Host.callAll, Host.callAll, hh.world_eq]
    generalize (listeners.react s.handler ticket h'.world).perform publisher
      (h.record (.called c ticket s.handler)) = r at hcalled ⊢
    generalize (listeners.react s.handler ticket h'.world).perform publisher
      (h'.record (.called c ticket s.handler)) = r' at hcalled ⊢
    obtain ⟨o, g⟩ := r
    obtain ⟨o', g'⟩ := r'
    obtain ⟨rfl, hg⟩ := hcalled
    -- a call that comes back or fails goes on to the next one, unless the event is consumed
    have hgoesOn {g g' : Host W χ κ δ η} (hg : g.AsNew c first past g') :
        EndsAsNew c first past
          (if g.isConsumed ticket then (.returned (), g)
            else Host.callAll listeners publisher c ticket kind ss g)
          (if g'.isConsumed ticket then (.returned (), g')
            else Host.callAll listeners publisher c ticket kind ss g') := by
      rw [hg.isConsumed_eq]
      split
      · exact ⟨rfl, hg⟩
      · exact ih hg
    rcases o with _ | (e | message) | _
    · exact hgoesOn hg
    · exact hgoesOn (hg.record (by rintro _ ⟨⟩))
    · exact ⟨rfl, hg⟩
    · exact ⟨rfl, hg⟩

variable (listeners) in
theorem comesOutAsNew_dispatch (hpublisher : publisher.ComesOutAsNew c first past) :
    (dispatch listeners publisher).ComesOutAsNew c first past := by
  intro ticket h h' hticket hh
  have hfound : h.events[ticket]? = h'.events[ticket]? := by rw [hh.events_eq]
  rw [dispatch, dispatch, hfound, hh.channel_eq]
  cases h'.events[ticket]? with
  | none => exact ⟨rfl, hh⟩
  | some e =>
    exact (hh.record (e := .dispatched c ticket) fun t ht =>
      Option.some.inj ht ▸ hticket).callAll hpublisher hticket _

omit [Subsingleton χ] in
theorem drain_of_queue_eq_nil (hqueue : (h.channel c).queue = []) (n : Nat) :
    drain listeners publisher c n h = (.returned (), h) := by
  unfold drain
  rw [hqueue]

omit [Subsingleton χ] in
theorem drain_zero_of_queue_eq_cons {rest : List Nat}
    (hqueue : (h.channel c).queue = ticket :: rest) :
    drain listeners publisher c 0 h = (.exhausted, h) := by
  unfold drain
  rw [hqueue]

omit [Subsingleton χ] in
theorem drain_succ_of_queue_eq_cons {rest : List Nat}
    (hqueue : (h.channel c).queue = ticket :: rest) (n : Nat) :
    drain listeners publisher c (n + 1) h =
      goOn (drain listeners publisher c n) (dispatch listeners publisher c ticket (h.pop c)) := by
  rw [← pop_of_queue_eq hqueue]
  conv_lhs => unfold drain
  rw [hqueue]
  rfl

omit [Subsingleton χ] in
theorem publish_succ (supply ticket : Nat) (h : Host W χ κ δ η) :
    publish listeners (supply + 1) c ticket h =
      let r := goOn (drain listeners (publish listeners supply) c (supply + 1))
        (dispatch listeners (publish listeners supply) c ticket (h.occupy c))
      (r.1, r.2.release c) :=
  rfl

variable (listeners) in
theorem AsNew.drain (hpublisher : publisher.ComesOutAsNew c first past) (n : Nat)
    (hh : h.AsNew c first past h') :
    EndsAsNew c first past (drain listeners publisher c n h)
      (drain listeners publisher c n h') := by
  have hqueue_eq : (h.channel c).queue = (h'.channel c).queue := congrArg _ hh.channel_eq
  induction n generalizing h h' with
  | zero =>
    cases hqueue : (h'.channel c).queue with
    | nil =>
      rw [drain_of_queue_eq_nil hqueue, drain_of_queue_eq_nil (hqueue_eq.trans hqueue)]
      exact ⟨rfl, hh⟩
    | cons ticket rest =>
      rw [drain_zero_of_queue_eq_cons hqueue,
        drain_zero_of_queue_eq_cons (hqueue_eq.trans hqueue)]
      exact ⟨rfl, hh⟩
  | succ n ih =>
    cases hqueue : (h'.channel c).queue with
    | nil =>
      rw [drain_of_queue_eq_nil hqueue, drain_of_queue_eq_nil (hqueue_eq.trans hqueue)]
      exact ⟨rfl, hh⟩
    | cons ticket rest =>
      have hticket : first ≤ ticket := hh.le_waiting ticket (hqueue ▸ List.mem_cons_self)
      rw [drain_succ_of_queue_eq_cons hqueue,
        drain_succ_of_queue_eq_cons (hqueue_eq.trans hqueue)]
      have hdispatched := comesOutAsNew_dispatch listeners hpublisher ticket _ _ hticket hh.pop
      exact hdispatched.goOn fun g g' hg => ih hg (congrArg _ hg.channel_eq)

variable (listeners) in
theorem comesOutAsNew_publish (supply : Nat) :
    (publish listeners supply).ComesOutAsNew c first past := by
  induction supply with
  | zero => exact fun _ _ _ _ hh => ⟨rfl, hh⟩
  | succ supply ih =>
    intro ticket h h' hticket hh
    rw [publish_succ, publish_succ]
    have hdispatched := comesOutAsNew_dispatch listeners ih ticket _ _ hticket hh.occupy
    have hdelivered := hdispatched.goOn fun _ _ hg => hg.drain listeners ih (supply + 1)
    exact ⟨hdelivered.outcome_eq, hdelivered.asNew.release⟩

variable (listeners) in
/-- **A turn goes the same way on a host that is as new.** -/
theorem AsNew.run (hh : h.AsNew c first past h') (supply : Nat) (m : HostTurn W χ κ δ η ε α) :
    EndsAsNew c first past (run listeners supply m h) (run listeners supply m h') := by
  rw [Host.run, Host.run, hh.world_eq]
  exact AsNew.perform (comesOutAsNew_publish listeners supply) _ hh

/-! ### Recovery -/

variable (listeners) in
/-- How a publication on a channel of `h` ends, and what it leaves. -/
structure Recovered (c : χ) (kind : κ) (data : δ) (h : Host W χ κ δ η)
    (r : Outcome ε Nat × Host W χ κ δ η) : Prop where
  /-- It comes back, with every call, or is cut off by a call that aborts. It never fails otherwise,
  and its channel is released as it was left by the last call. -/
  ends :
    (∃ ds g, r.1 = .returned h.nextTicket ∧
      InOrder listeners c ((h.post kind data).occupy c) ds g ∧ r.2 = g.release c ∧
      ds.map Delivery.ticket = List.range' h.nextTicket (r.2.nextTicket - h.nextTicket)) ∨
    (∃ message ds d s g, r.1 = .failed (.abort message) ∧
      CutOff listeners c ((h.post kind data).occupy c) ds d s message g ∧ r.2 = g.release c ∧
      (ds ++ [d]).map Delivery.ticket = List.range' h.nextTicket (ds.length + 1)) ∨
    r.1 = .exhausted
  /-- Nobody is being called, and nothing waits. -/
  idle : (r.2.channel c).IsIdle
  /-- Whatever turn is taken next, it goes as on a new host with the same subscriptions. -/
  asNew {β : Type} (m : HostTurn W χ κ δ η ε β) (supply : Nat) :
    EndsAsNew c r.2.nextTicket r.2.journal.toList (run listeners supply m r.2)
      (run listeners supply m (r.2.renewed c))

/-- **A channel recovers from every publication**, whatever its handlers do. A failure never leaves
the publication. An abort leaves it at once, no handler is called after it, and nothing that was
waiting then is ever delivered. What is called next depends on what is published next, on the
subscriptions and on the handlers. -/
theorem recovered_publish (hidle : (h.channel c).IsIdle) (supply : Nat) (kind : κ) (data : δ) :
    Recovered listeners c kind data h (run listeners supply (HostTurn.publish c kind data) h) := by
  have hleft : ((run listeners supply (HostTurn.publish c kind data) h).2.channel c).IsIdle :=
    idle_run hidle supply _
  refine ⟨?_, hleft, fun m supply' => (asNew_renewed hleft).run listeners supply' m⟩
  have hbegins := delivering_occupy hidle kind data
  rw [run_publish_of_free hidle.free]
  rcases hpublish : publish listeners supply c h.nextTicket (h.post kind data) with ⟨_ | u | _, g⟩
  · obtain ⟨ds, f, hds, rfl, htickets⟩ := exists_inOrder_of_publish hbegins hpublish
    exact .inl ⟨ds, f, rfl, hds, rfl, htickets⟩
  · obtain ⟨message, ds, d, s, f, rfl, hds, rfl, htickets⟩ :=
      exists_cutOff_of_publish hbegins hpublish
    exact .inr (.inl ⟨message, ds, d, s, f, rfl, hds, rfl, htickets⟩)
  · exact .inr (.inr rfl)

/-- Two listeners: one passes on what it hears, twice, and fails, the other aborts. -/
def alarm : Listeners Unit Unit Bool Nat Bool Unit where
  react
    | true, _ => do
      let _ ← HostTurn.publish () false 1
      let _ ← HostTurn.publish () false 2
      Turn.fail (.error ())
    | false, _ => Turn.fail (.abort "abort".toList)
  label _ := []

/-- An event that is passed on twice, and an abort when it is heard for the first time. -/
theorem recovered_publish_alarm :
    let h : Host Unit Unit Bool Nat Bool := (Host.quiet ()).changeRegistry () fun r =>
      (r.subscribe true ⟨0, true⟩).subscribe false ⟨0, false⟩
    let r := run alarm 3 (HostTurn.publish () true 0) h
    (h.channel ()).IsIdle ∧ r.1 = .failed (.abort "abort".toList) ∧
      Recovered alarm () true 0 h r := by
  intro h r
  have hidle : (h.channel ()).IsIdle := ⟨rfl, rfl⟩
  have haborted : r.1 = .failed (.abort "abort".toList) := by decide +kernel
  exact ⟨hidle, haborted, recovered_publish hidle 3 true 0⟩

end Host

end Parley
