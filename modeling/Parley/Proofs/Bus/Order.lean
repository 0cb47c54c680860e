import Mathlib.Data.List.Infix
import Parley.Proofs.Bus.Invariants

/-!
# The order of delivery

Listeners that publish while an event is delivered do not interrupt the delivery: what they publish
waits. So the deliveries that one publication brings about come one after the other, and there is
one for each event that is published meanwhile, in the order of publication.

The state that carries this through a delivery is `Host.Delivering`: the events that wait are those
from a certain ticket on, all of them and in order. Whatever listeners do leaves the front of the
queue as it is, and every event they publish takes the next ticket and goes to the back.

A delivery itself is described by the calls it made. They are those of the subscriptions that its
event found, up to the first call that left the event consumed. What the calls did is said by
calling the handlers again, one by one, with `Host.call`.

## Main definitions

* `Host.call`, `Host.callEach` — a call of one handler, and of several
* `Host.Called` — which of the handlers that listen are called
* `Delivery` — the delivery of one event, and the calls it made
* `Host.InOrder` — deliveries that bring to the listeners what was published, in order

## Main results

* `Host.idle_run` — nothing waits on a host between turns
* `Host.inOrder_publish` — what a publication brings about is delivered in order

## Implementation notes

Tickets are given to the events of all channels. All of this is therefore about hosts with one
channel, where consecutive tickets are consecutive publications on it.
-/

namespace Parley

variable {W χ κ δ η ε α : Type}

/-- Whether an entry tells of a delivery, and is not a remark. -/
def Entry.isDealing : Entry χ η → Bool
  | remark _ => false
  | _ => true

/-- No delivery. On a channel that is busy it is as good as any other, since it never comes to
that. -/
def Publisher.never : Publisher W χ κ δ η ε := fun _ _ h => (.exhausted, h)

/-- The delivery of an event: the host that it began with, and the subscriptions it called. -/
structure Delivery (W χ κ δ η : Type) where
  ticket : Nat
  kind : κ
  found : Host W χ κ δ η
  called : List (Subscription η)

/-- A channel that is free, and on which nothing waits. -/
structure Channel.IsIdle (ch : Channel κ η) : Prop where
  free : ch.busy = false
  queue_eq : ch.queue = []

theorem eq_nil_or_eq_cons_of_prefix_cons {as bs : List α} {a b : α} (h : as ++ [a] <+: b :: bs) :
    as = [] ∧ a = b ∨ ∃ cs, as = b :: cs ∧ cs ++ [a] <+: bs := by
  cases as with
  | nil => exact .inl ⟨rfl, (List.cons_prefix_cons.mp h).1⟩
  | cons c cs =>
    rw [List.cons_append, List.cons_prefix_cons] at h
    exact .inr ⟨cs, by rw [h.1], h.2⟩

namespace Host

/-- What was delivered, and to whom: the journal without the remarks. -/
def dealings (h : Host W χ κ δ η) : List (Entry χ η) := h.journal.toList.filter Entry.isDealing

theorem dealings_record (h : Host W χ κ δ η) (e : Entry χ η) :
    (h.record e).dealings = h.dealings ++ [e].filter Entry.isDealing := by
  simp [dealings, record]

@[simp] theorem nextTicket_post (h : Host W χ κ δ η) (kind : κ) (data : δ) :
    (h.post kind data).nextTicket = h.nextTicket + 1 :=
  Array.size_push _

@[simp] theorem nextTicket_changeEvent (h : Host W χ κ δ η) (ticket : Nat)
    (f : Event κ δ → Event κ δ) : (h.changeEvent ticket f).nextTicket = h.nextTicket :=
  Array.size_modify

variable [DecidableEq χ] [DecidableEq κ]

@[simp] theorem channel_changeChannel (h : Host W χ κ δ η) (c : χ)
    (f : Channel κ η → Channel κ η) : (h.changeChannel c f).channel c = f (h.channel c) := by
  simp [channel, changeChannel, Table.getD]

/-- Take the next event that waits. -/
def pop (h : Host W χ κ δ η) (c : χ) : Host W χ κ δ η :=
  h.changeChannel c fun ch => { ch with queue := ch.queue.tail }

/-! ### While a delivery is going on -/

/-- A delivery is going on; the events that wait are those from `next` on, and what was delivered
so far is `past`. -/
structure Delivering (c : χ) (next : Nat) (past : List (Entry χ η)) (h : Host W χ κ δ η) :
    Prop where
  busy : (h.channel c).busy = true
  next_le : next ≤ h.nextTicket
  queue_eq : (h.channel c).queue = List.range' next (h.nextTicket - next)
  dealings_eq : h.dealings = past

variable {c : χ} {next : Nat} {past : List (Entry χ η)} {h h' : Host W χ κ δ η}

theorem Delivering.congr (hh : h.Delivering c next past)
    (hbusy : (h'.channel c).busy = (h.channel c).busy)
    (hqueue : (h'.channel c).queue = (h.channel c).queue) (hnext : h'.nextTicket = h.nextTicket)
    (hdealings : h'.dealings = h.dealings) : h'.Delivering c next past where
  busy := hbusy.trans hh.busy
  next_le := hnext ▸ hh.next_le
  queue_eq := by rw [hqueue, hnext, hh.queue_eq]
  dealings_eq := hdealings.trans hh.dealings_eq

theorem Delivering.record (hh : h.Delivering c next past) (e : Entry χ η) :
    (h.record e).Delivering c next (past ++ [e].filter Entry.isDealing) :=
  { hh.congr rfl rfl rfl rfl with dealings_eq := by rw [dealings_record, hh.dealings_eq] }

theorem Delivering.enqueue (hh : h.Delivering c next past) (kind : κ) (data : δ) :
    ((h.post kind data).enqueue c h.nextTicket).Delivering c next past where
  busy := by
    rw [Host.enqueue, channel_changeChannel]
    exact hh.busy
  next_le := (hh.next_le.trans (Nat.le_succ _)).trans_eq (nextTicket_post ..).symm
  queue_eq := by
    have hwaiting : ((h.post kind data).channel c).queue = _ := hh.queue_eq
    have hticket : next + (h.nextTicket - next) = h.nextTicket := Nat.add_sub_of_le hh.next_le
    have hmore : h.nextTicket + 1 - next = h.nextTicket - next + 1 := Nat.sub_add_comm hh.next_le
    show ((Host.changeChannel _ c _).channel c).queue =
      List.range' next ((h.post kind data).nextTicket - next)
    rw [channel_changeChannel, hwaiting, nextTicket_post, hmore, List.range'_1_concat, hticket]
  dealings_eq := hh.dealings_eq

theorem Delivering.remark (hh : h.Delivering c next past) (r : Remark) :
    (h.record (.remark r)).Delivering c next past := by
  simpa [Entry.isDealing] using hh.record (.remark r)

theorem Delivering.changeRegistry (hh : h.Delivering c next past)
    (f : Registry κ η → Registry κ η) : (h.changeRegistry c f).Delivering c next past := by
  refine hh.congr ?_ ?_ rfl rfl
  · rw [Host.changeRegistry, channel_changeChannel]
  · rw [Host.changeRegistry, channel_changeChannel]

theorem Delivering.changeEvent (hh : h.Delivering c next past) (ticket : Nat)
    (f : Event κ δ → Event κ δ) : (h.changeEvent ticket f).Delivering c next past :=
  hh.congr rfl rfl (nextTicket_changeEvent ..) rfl

/-- The event whose turn it is has the next ticket. -/
theorem Delivering.pop {ticket : Nat} {rest : List Nat} (hh : h.Delivering c next past)
    (hqueue : (h.channel c).queue = ticket :: rest) :
    ticket = next ∧ (h.pop c).Delivering c (next + 1) past := by
  have hwaiting := hh.queue_eq
  obtain ⟨n, hn⟩ : ∃ n, h.nextTicket - next = n + 1 := by
    refine Nat.exists_eq_succ_of_ne_zero fun hzero => ?_
    rw [hqueue, hzero, List.range'_zero] at hwaiting
    cases hwaiting
  rw [hqueue, hn, List.range'_succ, List.cons.injEq] at hwaiting
  refine ⟨hwaiting.1, ?_, ?_, ?_, hh.dealings_eq⟩
  · rw [Host.pop, channel_changeChannel]
    exact hh.busy
  · show next + 1 ≤ h.nextTicket
    omega
  · have hrest : h.nextTicket - (next + 1) = n := by omega
    rw [Host.pop, channel_changeChannel]
    show (h.channel c).queue.tail = List.range' (next + 1) (h.nextTicket - (next + 1))
    rw [hqueue, List.tail_cons, hwaiting.2, hrest]

/-- A delivery begins with one event published and none waiting. -/
theorem delivering_occupy (hidle : (h.channel c).IsIdle) (kind : κ) (data : δ) :
    ((h.post kind data).occupy c).Delivering c (h.nextTicket + 1) h.dealings where
  busy := by rw [occupy, channel_changeChannel]
  next_le := (nextTicket_post ..).ge
  queue_eq := by
    have hnext : ((h.post kind data).occupy c).nextTicket = h.nextTicket + 1 := nextTicket_post ..
    rw [hnext, Nat.sub_self, List.range'_zero, occupy, channel_changeChannel]
    exact hidle.queue_eq
  dealings_eq := rfl

end Host

/-! ### What listeners can do meanwhile -/

variable [DecidableEq χ] [DecidableEq κ] [DecidableEq η]
  {listeners : Listeners W χ κ δ η ε} {publisher : Publisher W χ κ δ η ε} {c : χ} {next : Nat}
  {past : List (Entry χ η)} {h h' : Host W χ κ δ η}

/-- What is published on a busy channel waits. -/
theorem Play.perform_publish_of_busy (hbusy : (h.channel c).busy = true) (w : W) (kind : κ)
    (data : δ) (k : (Command.publish c kind data).Reply → W →
      Play W (Command χ κ δ η) Command.Reply (Upset ε) α) :
    Play.perform publisher (.pause w (.publish c kind data) k) h =
      (k h.nextTicket w).perform publisher
        (({ h with world := w }.post kind data).enqueue c h.nextTicket) := by
  rw [Play.perform]
  exact if_pos hbusy

/-- What is published on a free channel is delivered at once. -/
theorem Play.perform_publish_of_free (hfree : (h.channel c).busy = false) (w : W) (kind : κ)
    (data : δ) (k : (Command.publish c kind data).Reply → W →
      Play W (Command χ κ δ η) Command.Reply (Upset ε) α) :
    Play.perform publisher (.pause w (.publish c kind data) k) h =
      match publisher c h.nextTicket ({ h with world := w }.post kind data) with
      | (.returned _, h') => (k h.nextTicket h'.world).perform publisher h'
      | (.failed u, h') => (.failed u, h')
      | (.exhausted, h') => (.exhausted, h') := by
  rw [Play.perform]
  exact if_neg (Bool.eq_false_iff.mp hfree)

namespace Host

variable [Subsingleton χ]

variable (publisher) in
/-- A turn that is taken during a delivery delivers nothing, no matter how events are delivered on a
free channel. What it publishes waits. -/
theorem Delivering.perform (hh : h.Delivering c next past)
    (p : Play W (Command χ κ δ η) Command.Reply (Upset ε) α) :
    p.perform publisher h = p.perform .never h ∧
      (p.perform .never h).2.Delivering c next past := by
  induction p generalizing h with
  | done w a => exact ⟨rfl, hh.congr rfl rfl rfl rfl⟩
  | fail w u => exact ⟨rfl, hh.congr rfl rfl rfl rfl⟩
  | pause w o k ih =>
    have hleft : { h with world := w }.Delivering c next past := hh.congr rfl rfl rfl rfl
    cases o with
    | publish c' kind data =>
      obtain rfl : c = c' := Subsingleton.elim c c'
      rw [Play.perform_publish_of_busy hh.busy, Play.perform_publish_of_busy hh.busy]
      exact ih _ _ (hleft.enqueue kind data)
    | subscribe c' _ _ | unsubscribe c' _ _ | clear c' _ =>
      obtain rfl : c = c' := Subsingleton.elim c c'
      exact ih _ _ (hleft.changeRegistry _)
    | consume ticket | amend ticket f => exact ih _ _ (hleft.changeEvent ticket _)
    | count | inspect => exact ih _ _ hleft
    | remark r => exact ih _ _ (hleft.remark r)

/-! ### Calls -/

variable (listeners c) in
/-- Call one handler for an event. A failure goes on record, and the call comes back. -/
def call (ticket : Nat) (kind : κ) (s : Subscription η) (h : Host W χ κ δ η) :
    Outcome ε Unit × Host W χ κ δ η :=
  match (listeners.react s.handler ticket h.world).perform .never
    (h.record (.called c ticket s.handler)) with
  | (.failed (.error _), h) =>
    (.returned (), h.record (.remark (.handlerFailed (listeners.label kind))))
  | r => r

variable (listeners c) in
/-- The host after calling handlers, one after the other. -/
def callEach (ticket : Nat) (kind : κ) (ss : List (Subscription η)) (h : Host W χ κ δ η) :
    Host W χ κ δ η :=
  ss.foldl (fun h s => (call listeners c ticket kind s h).2) h

variable {ticket : Nat} {kind : κ}

theorem Delivering.call (hh : h.Delivering c next past) (s : Subscription η) :
    (call listeners c ticket kind s h).2.Delivering c next
      (past ++ [.called c ticket s.handler]) := by
  have hcalled := ((hh.record (.called c ticket s.handler)).perform .never
    (listeners.react s.handler ticket h.world)).2
  rw [Host.call]
  split
  · rename_i hr
    rw [hr] at hcalled
    exact hcalled.remark _
  · exact hcalled

theorem Delivering.callEach (hh : h.Delivering c next past) (ss : List (Subscription η)) :
    (callEach listeners c ticket kind ss h).Delivering c next
      (past ++ ss.map fun s => .called c ticket s.handler) := by
  induction ss generalizing h past with
  | nil => simpa [Host.callEach] using hh
  | cons s ss ih => simpa [Host.callEach] using ih (hh.call s)

theorem callAll_cons (hh : h.Delivering c next past) (s : Subscription η)
    (ss : List (Subscription η)) :
    callAll listeners publisher c ticket kind (s :: ss) h =
      match call listeners c ticket kind s h with
      | (.returned _, h) =>
        if h.isConsumed ticket then (.returned (), h)
        else callAll listeners publisher c ticket kind ss h
      | r => r := by
  rw [callAll, ((hh.record (.called c ticket s.handler)).perform publisher _).1, call]
  generalize (listeners.react s.handler ticket h.world).perform .never _ = r
  obtain ⟨_ | (_ | _) | _, g⟩ := r <;> rfl

variable (listeners c) in
/-- Which handlers are called for an event, of those that listen: the first ones, up to a call that
leaves the event consumed. Every one of the calls comes back. -/
structure Called (ticket : Nat) (kind : κ) (h : Host W χ κ δ η)
    (listening called : List (Subscription η)) : Prop where
  of_first : called <+: listening
  comes_back (ss : List (Subscription η)) (s : Subscription η) (hss : ss ++ [s] <+: called) :
    (call listeners c ticket kind s (callEach listeners c ticket kind ss h)).1 = .returned ()
  goes_on (ss : List (Subscription η)) (s : Subscription η) (hss : ss ++ [s] <+: called)
    (hmore : ss ++ [s] ≠ called) :
    (callEach listeners c ticket kind (ss ++ [s]) h).isConsumed ticket = false
  stops (hfew : called ≠ listening) : ∃ ss s, called = ss ++ [s] ∧
    (callEach listeners c ticket kind called h).isConsumed ticket = true

section

omit [Subsingleton χ]

variable {s : Subscription η} {ss called : List (Subscription η)}

theorem called_nil : Called listeners c ticket kind h [] [] where
  of_first := List.prefix_rfl
  comes_back ss s hss := absurd (List.prefix_nil.mp hss) (List.concat_ne_nil s ss)
  goes_on ss s hss := absurd (List.prefix_nil.mp hss) (List.concat_ne_nil s ss)
  stops hfew := absurd rfl hfew

theorem callEach_cons (hcall : call listeners c ticket kind s h = (.returned (), h')) :
    callEach listeners c ticket kind (s :: ss) h = callEach listeners c ticket kind ss h' := by
  rw [callEach, List.foldl_cons, hcall]
  rfl

/-- A call that leaves the event consumed is the last one. -/
theorem called_singleton (hcall : call listeners c ticket kind s h = (.returned (), h'))
    (hconsumed : h'.isConsumed ticket = true) : Called listeners c ticket kind h (s :: ss) [s] := by
  have honly {rs : List (Subscription η)} {r : Subscription η} (hrs : rs ++ [r] <+: [s]) :
      rs = [] ∧ r = s :=
    (eq_nil_or_eq_cons_of_prefix_cons hrs).resolve_right fun ⟨qs, _, hqs⟩ =>
      List.concat_ne_nil r qs (List.prefix_nil.mp hqs)
  refine ⟨List.prefix_append [s] ss, fun rs r hrs => ?_, fun rs r hrs hmore => ?_, fun _ => ?_⟩
  · obtain ⟨rfl, rfl⟩ := honly hrs
    exact congrArg Prod.fst hcall
  · obtain ⟨rfl, rfl⟩ := honly hrs
    exact absurd rfl hmore
  · refine ⟨[], s, rfl, ?_⟩
    rw [callEach_cons hcall]
    exact hconsumed

/-- After a call that does not leave the event consumed comes the next one. -/
theorem Called.cons (hcall : call listeners c ticket kind s h = (.returned (), h'))
    (hfree : h'.isConsumed ticket = false) (hcalled : Called listeners c ticket kind h' ss called) :
    Called listeners c ticket kind h (s :: ss) (s :: called) := by
  refine ⟨List.cons_prefix_cons.mpr ⟨rfl, hcalled.of_first⟩, fun rs r hrs => ?_,
    fun rs r hrs hmore => ?_, fun hfew => ?_⟩
  · obtain ⟨rfl, rfl⟩ | ⟨qs, rfl, hqs⟩ := eq_nil_or_eq_cons_of_prefix_cons hrs
    · exact congrArg Prod.fst hcall
    · rw [callEach_cons hcall]
      exact hcalled.comes_back qs r hqs
  · obtain ⟨rfl, rfl⟩ | ⟨qs, rfl, hqs⟩ := eq_nil_or_eq_cons_of_prefix_cons hrs
    · rw [List.nil_append, callEach_cons hcall]
      exact hfree
    · rw [List.cons_append, callEach_cons hcall]
      exact hcalled.goes_on qs r hqs fun hsame => hmore (congrArg (s :: ·) hsame)
  · obtain ⟨rs, r, hlast, hconsumed⟩ := hcalled.stops fun hsame => hfew (congrArg (s :: ·) hsame)
    refine ⟨s :: rs, r, congrArg (s :: ·) hlast, ?_⟩
    rw [callEach_cons hcall]
    exact hconsumed

end

/-- The calls that are made for an event that comes to its end. -/
theorem exists_called_of_callAll (hh : h.Delivering c next past) {ss : List (Subscription η)}
    (hr : callAll listeners publisher c ticket kind ss h = (.returned (), h')) :
    ∃ called, Called listeners c ticket kind h ss called ∧
      callEach listeners c ticket kind called h = h' := by
  induction ss generalizing h past with
  | nil => exact ⟨[], called_nil, congrArg Prod.snd hr⟩
  | cons s ss ih =>
    have hcalled : (call listeners c ticket kind s h).2.Delivering c next _ := hh.call s
    rw [callAll_cons hh] at hr
    split at hr
    · rename_i g hcall
      rw [hcall] at hcalled
      split at hr
      · rename_i hconsumed
        refine ⟨[s], called_singleton hcall hconsumed, ?_⟩
        rw [callEach_cons hcall]
        exact congrArg Prod.snd hr
      · rename_i hfree
        obtain ⟨called, hrest, hleft⟩ := ih hcalled hr
        refine ⟨s :: called, hrest.cons hcall (Bool.eq_false_iff.mpr hfree), ?_⟩
        rw [callEach_cons hcall]
        exact hleft
    · rename_i hcall
      exact absurd hr (hcall () h')

end Host

/-! ### Deliveries -/

namespace Delivery

/-- What a delivery puts on record. -/
def entries (c : χ) (d : Delivery W χ κ δ η) : List (Entry χ η) :=
  .dispatched c d.ticket :: d.called.map fun s => .called c d.ticket s.handler

variable (listeners c) in
/-- The host after the calls of a delivery. -/
def left (d : Delivery W χ κ δ η) : Host W χ κ δ η :=
  Host.callEach listeners c d.ticket d.kind d.called (d.found.record (.dispatched c d.ticket))

variable (listeners c) in
/-- The calls of a delivery are those of the subscriptions that its event found. -/
structure Proper (d : Delivery W χ κ δ η) : Prop where
  kind_eq : d.found.events[d.ticket]?.map Event.kind = some d.kind
  called : Host.Called listeners c d.ticket d.kind (d.found.record (.dispatched c d.ticket))
    ((d.found.channel c).registry.handlers d.kind) d.called

end Delivery

namespace Host

variable [Subsingleton χ]

variable (listeners) in
theorem Delivering.left {d : Delivery W χ κ δ η} (hd : d.found.Delivering c next past) :
    (d.left listeners c).Delivering c next (past ++ d.entries c) := by
  rw [Delivery.entries, ← List.singleton_append, ← List.append_assoc]
  exact (hd.record (.dispatched c d.ticket)).callEach d.called

/-- A delivery that comes to its end. -/
theorem exists_proper_of_dispatch (hh : h.Delivering c (ticket + 1) past)
    (hr : dispatch listeners publisher c ticket h = (.returned (), h')) :
    ∃ d : Delivery W χ κ δ η, d.ticket = ticket ∧ d.found = h ∧ d.left listeners c = h' ∧
      d.Proper listeners c := by
  have hticket : ticket < h.events.size := hh.next_le
  rw [dispatch, Array.getElem?_eq_getElem hticket] at hr
  obtain ⟨called, hcalled, hleft⟩ := exists_called_of_callAll (hh.record _) hr
  refine ⟨⟨ticket, h.events[ticket].kind, h, called⟩, rfl, rfl, hleft, ?_, hcalled⟩
  rw [Array.getElem?_eq_getElem hticket]
  rfl

variable (listeners c) in
/-- Deliveries that come one after the other and lead from `h` to `h'`. Each begins on what the one
before has left, with the next event that waits, and nothing else was delivered in between. -/
structure InOrder (h : Host W χ κ δ η) (ds : List (Delivery W χ κ δ η)) (h' : Host W χ κ δ η) :
    Prop where
  proper : ∀ d ∈ ds, d.Proper listeners c
  begins : ds.head?.map Delivery.found = some h
  follows : ds.IsChain fun d d' => d'.found = (d.left listeners c).pop c
  ends : ds.getLast?.map (Delivery.left listeners c) = some h'
  dealings : h'.dealings = h.dealings ++ ds.flatMap (Delivery.entries c)

theorem inOrder_singleton {d : Delivery W χ κ δ η} (hd : d.found.Delivering c next past)
    (hproper : d.Proper listeners c) :
    InOrder listeners c d.found [d] (d.left listeners c) where
  proper := List.forall_mem_singleton.mpr hproper
  begins := rfl
  follows := .singleton d
  ends := rfl
  dealings := by rw [(hd.left listeners).dealings_eq, hd.dealings_eq, List.flatMap_singleton]

theorem InOrder.cons {d d' : Delivery W χ κ δ η} {ds : List (Delivery W χ κ δ η)}
    (hd : d.found.Delivering c next past) (hproper : d.Proper listeners c)
    (hds : InOrder listeners c ((d.left listeners c).pop c) (d' :: ds) h') :
    InOrder listeners c d.found (d :: d' :: ds) h' where
  proper := List.forall_mem_cons.mpr ⟨hproper, hds.proper⟩
  begins := rfl
  follows := List.isChain_cons_cons.mpr ⟨Option.some.inj hds.begins, hds.follows⟩
  ends := hds.ends
  dealings := by
    have hleft : ((d.left listeners c).pop c).dealings = past ++ d.entries c :=
      (hd.left listeners).dealings_eq
    rw [hds.dealings, hleft, hd.dealings_eq, List.append_assoc]
    rfl

omit [DecidableEq η] [Subsingleton χ] in
theorem pop_of_queue_eq {rest : List Nat} (hqueue : (h.channel c).queue = ticket :: rest) :
    h.changeChannel c (fun ch => { ch with queue := rest }) = h.pop c := by
  rw [pop, changeChannel, changeChannel, hqueue, List.tail_cons]

/-- After a delivery come the deliveries of what waits, until nothing does. -/
theorem exists_inOrder_of_drain {d : Delivery W χ κ δ η}
    (hd : d.found.Delivering c (d.ticket + 1) past) (hproper : d.Proper listeners c) {n : Nat}
    (hr : drain listeners publisher c n (d.left listeners c) = (.returned (), h')) :
    ∃ ds, InOrder listeners c d.found (d :: ds) h' ∧ d.ticket < h'.nextTicket ∧
      (d :: ds).map Delivery.ticket = List.range' d.ticket (h'.nextTicket - d.ticket) := by
  generalize hleft : d.left listeners c = g at hr
  fun_induction drain listeners publisher c n g generalizing d past with
  | case1 n g hqueue =>
    obtain rfl : g = h' := congrArg Prod.snd hr
    rw [← hleft] at hqueue ⊢
    have hlt : d.ticket < (d.left listeners c).nextTicket := (hd.left listeners).next_le
    have hwaiting := (hd.left listeners).queue_eq
    rw [hqueue, eq_comm, List.range'_eq_nil_iff] at hwaiting
    have hone : (d.left listeners c).nextTicket - d.ticket = 1 := by omega
    refine ⟨[], inOrder_singleton hd hproper, hlt, ?_⟩
    rw [hone]
    rfl
  | case2 => cases hr
  | case3 g ticket rest n hqueue _ f hdispatch ih =>
    -- the event that waits first has the ticket after that of `d`, since none was passed over
    rw [← hleft] at hqueue hdispatch
    obtain ⟨rfl, hpop⟩ := (hd.left listeners).pop hqueue
    rw [pop_of_queue_eq hqueue] at hdispatch
    obtain ⟨d', hticket, hfound, hleft', hproper'⟩ := exists_proper_of_dispatch hpop hdispatch
    rw [← hfound, ← hticket] at hpop
    obtain ⟨ds, hds, hlt, htickets⟩ := ih hpop hproper' hleft' hr
    rw [hfound] at hds
    rw [hticket] at hlt htickets
    have hmore : h'.nextTicket - d.ticket = h'.nextTicket - (d.ticket + 1) + 1 := by omega
    refine ⟨d' :: ds, hds.cons hd hproper, Nat.lt_of_succ_lt hlt, ?_⟩
    rw [List.map_cons, htickets, hmore, List.range'_succ]
  | case4 g ticket rest n hqueue hne => exact absurd hr (hne () h')

omit [Subsingleton χ] in
/-- A delivery dispatches its event, goes on with what waits if that came back, and releases the
channel. -/
theorem exists_of_publish {o : Outcome ε Unit} {supply : Nat}
    (hr : publish listeners supply c ticket h = (o, h')) (ho : o ≠ .exhausted) :
    ∃ n g, h' = g.release c ∧
      ((∃ f, dispatch listeners (publish listeners n) c ticket (h.occupy c) = (.returned (), f) ∧
          drain listeners (publish listeners n) c (n + 1) f = (o, g)) ∨
        o ≠ .returned () ∧
          dispatch listeners (publish listeners n) c ticket (h.occupy c) = (o, g)) := by
  cases supply with
  | zero => exact absurd (congrArg Prod.fst hr).symm ho
  | succ n =>
    unfold publish at hr
    extract_lets r at hr
    obtain ⟨houtcome, rfl⟩ := Prod.mk.inj hr
    have hdelivered : r = (o, r.2) := Prod.ext houtcome rfl
    refine ⟨n, r.2, rfl, ?_⟩
    generalize r.2 = g at hdelivered ⊢
    simp only [r] at hdelivered
    split at hdelivered
    · next hdispatch => exact .inl ⟨_, hdispatch, hdelivered⟩
    · next hne =>
      refine .inr ⟨?_, hdelivered⟩
      rintro rfl
      exact hne () g hdelivered

/-- The delivery of an event, and of all that is published meanwhile. -/
theorem exists_inOrder_of_publish (hh : (h.occupy c).Delivering c (ticket + 1) past)
    {supply : Nat} (hr : publish listeners supply c ticket h = (.returned (), h')) :
    ∃ ds g, InOrder listeners c (h.occupy c) ds g ∧ h' = g.release c ∧
      ds.map Delivery.ticket = List.range' ticket (h'.nextTicket - ticket) := by
  obtain ⟨n, g, rfl, ⟨f, hdispatch, hdrain⟩ | ⟨hne, -⟩⟩ := exists_of_publish hr nofun
  · obtain ⟨d, rfl, hfound, rfl, hproper⟩ := exists_proper_of_dispatch hh hdispatch
    rw [← hfound] at hh ⊢
    obtain ⟨ds, hds, -, htickets⟩ := exists_inOrder_of_drain hh hproper hdrain
    exact ⟨d :: ds, g, hds, rfl, htickets⟩
  · exact absurd rfl hne

/-! ### Publications -/

omit [Subsingleton χ] in
/-- However a delivery on an idle channel ends, the channel is idle afterwards. -/
theorem idle_publish (hidle : (h.channel c).IsIdle) (supply ticket : Nat) :
    ((publish listeners supply c ticket h).2.channel c).IsIdle := by
  cases supply with
  | zero => exact hidle
  | succ supply =>
    simp only [publish, release, channel_changeChannel]
    exact ⟨rfl, rfl⟩

theorem idle_perform
    (hpublisher : ∀ ticket (h : Host W χ κ δ η), (h.channel c).IsIdle →
      ((publisher c ticket h).2.channel c).IsIdle)
    (hidle : (h.channel c).IsIdle) (p : Play W (Command χ κ δ η) Command.Reply (Upset ε) α) :
    ((p.perform publisher h).2.channel c).IsIdle := by
  induction p generalizing h with
  | done w a => exact hidle
  | fail w u => exact hidle
  | pause w o k ih =>
    cases o with
    | publish c' kind data =>
      obtain rfl : c = c' := Subsingleton.elim c c'
      have hdelivered := hpublisher h.nextTicket ({ h with world := w }.post kind data) hidle
      rw [Play.perform_publish_of_free hidle.free]
      split
      · rename_i hr
        rw [hr] at hdelivered
        exact ih _ _ hdelivered
      · rename_i hr
        rw [hr] at hdelivered
        exact hdelivered
      · rename_i hr
        rw [hr] at hdelivered
        exact hdelivered
    | subscribe c' _ _ | unsubscribe c' _ _ | clear c' _ =>
      obtain rfl : c = c' := Subsingleton.elim c c'
      refine ih _ _ ?_
      rw [changeRegistry, channel_changeChannel]
      exact ⟨hidle.free, hidle.queue_eq⟩
    | count | inspect | consume | amend | remark => exact ih _ _ hidle

/-- **Nothing waits between turns.** -/
theorem idle_run (hidle : (h.channel c).IsIdle) (supply : Nat) (m : HostTurn W χ κ δ η ε α) :
    ((run listeners supply m h).2.channel c).IsIdle :=
  idle_perform (fun ticket _ hidle => idle_publish hidle supply ticket) hidle (m h.world)

omit [Subsingleton χ] in
theorem run_publish_of_free (hfree : (h.channel c).busy = false) (supply : Nat) (kind : κ)
    (data : δ) :
    run listeners supply (HostTurn.publish c kind data) h =
      match publish listeners supply c h.nextTicket (h.post kind data) with
      | (.returned _, h') => (.returned h.nextTicket, h')
      | (.failed u, h') => (.failed u, h')
      | (.exhausted, h') => (.exhausted, h') :=
  Play.perform_publish_of_free hfree h.world kind data fun ticket w => .done w ticket

/-- **What a publication brings about is delivered in order.** If a publication on an idle channel
comes back, then every event that was published meanwhile has been delivered, once and in the order
of publication, each when the one before was done, and to those who were listening by then. -/
theorem inOrder_publish (hidle : (h.channel c).IsIdle) {supply : Nat} {kind : κ} {data : δ}
    {t : Nat}
    (hrun : run listeners supply (HostTurn.publish c kind data) h = (.returned t, h')) :
    ∃ ds g, InOrder listeners c ((h.post kind data).occupy c) ds g ∧ h' = g.release c ∧
      ds.map Delivery.ticket = List.range' h.nextTicket (h'.nextTicket - h.nextTicket) := by
  rw [run_publish_of_free hidle.free] at hrun
  split at hrun
  · rename_i g hpublish
    obtain rfl : g = h' := congrArg Prod.snd hrun
    exact exists_inOrder_of_publish (delivering_occupy hidle kind data) hpublish
  · cases hrun
  · cases hrun

/-- Two listeners: one passes on what it hears, leaves and fails, the other hides what it hears. -/
def errands : Listeners Unit Unit Bool Nat Bool Unit where
  react
    | true, _ => do
      let first ← HostTurn.publish () false 1
      let _ ← HostTurn.publish () false (first + 1)
      HostTurn.unsubscribe () false true
      Turn.fail (.error ())
    | false, ticket => HostTurn.consume ticket
  label _ := []

/-- An event that is passed on twice. -/
theorem inOrder_publish_errands :
    let h := (Host.quiet ()).changeRegistry () fun r =>
      (r.subscribeAll [true, false] ⟨0, false⟩).subscribe true ⟨5, true⟩
    let r := run errands 3 (HostTurn.publish () true 0) h
    ((h.channel ()).IsIdle ∧ r = (.returned 0, r.2)) ∧
      ∃ ds g, InOrder errands () ((h.post true 0).occupy ()) ds g ∧ r.2 = g.release () ∧
        ds.map Delivery.ticket = List.range' h.nextTicket (r.2.nextTicket - h.nextTicket) := by
  intro h r
  have hidle : (h.channel ()).IsIdle := ⟨rfl, rfl⟩
  have hreturned : r.1 = .returned 0 := by decide +kernel
  have hrun : r = (.returned 0, r.2) := Prod.ext hreturned rfl
  exact ⟨⟨hidle, hrun⟩, inOrder_publish hidle hrun⟩

end Host

end Parley
