import Parley.Turn

/-!
# How turns come out that nobody listens to

A turn that nobody listens to says something and comes to a result, or fails. `Turn.Yields` is a
contract about all three: what may be said, how the turn may fail and in which state, and what holds
of a result. Failing is one of the ways to come out, so a contract speaks of stories that cannot be
read as well as of those that can.

`Turn.Abides` holds a turn to a pact with listeners, which may only tell in which states it fails;
this one tells why, and needs no listeners.

## Main definitions

* `Terms` — what may be said, and how a turn may fail
* `Turn.Yields`

## Main results

* `Turn.Yields.bind` — one turn after another
* `Turn.Yields.keeps`, `Turn.Yields.fails_of_error` — what a contract says of the outcome
-/

namespace Parley

/-- What a turn may say, and with what it may fail in which state. -/
structure Terms (σ ω ε : Type) where
  allows : ω → Prop
  fails : σ → ε → Prop

namespace Turn

variable {σ ω ε α β : Type}

/-- Taken in a state with nobody listening, the turn keeps to the terms and makes `Q` true of its
result and the state it leaves. -/
def Yields (t : Terms σ ω ε) (m : Turn σ ω (fun _ => Unit) ε α) (s : σ) (Q : α → σ → Prop) : Prop :=
  (∀ o ∈ (m.alone s).1, t.allows o) ∧
    match (m.alone s).2 with
    | (s', .ok a) => Q a s'
    | (s', .error e) => t.fails s' e

variable {t : Terms σ ω ε} {s : σ} {R : α → σ → Prop} {Q : β → σ → Prop}

theorem yields_pure {a : α} (h : R a s) :
    (pure a : Turn σ ω (fun _ => Unit) ε α).Yields t s R := ⟨nofun, h⟩

theorem yields_say {o : ω} (h : t.allows o) :
    (say o : Turn σ ω (fun _ => Unit) ε Unit).Yields t s fun _ s' => s' = s :=
  ⟨List.forall_mem_singleton.mpr h, rfl⟩

theorem yields_fail {e : ε} (h : t.fails s e) :
    (fail e : Turn σ ω (fun _ => Unit) ε α).Yields t s R := ⟨nofun, h⟩

theorem Yields.get_bind {f : σ → Turn σ ω (fun _ => Unit) ε β} (hf : (f s).Yields t s Q) :
    (get >>= f).Yields t s Q := hf

theorem Yields.modify_bind {g : σ → σ} {f : Unit → Turn σ ω (fun _ => Unit) ε β}
    (hf : (f ()).Yields t (g s) Q) : (modify g >>= f).Yields t s Q := hf

theorem Yields.mono {m : Turn σ ω (fun _ => Unit) ε α} {t' : Terms σ ω ε} {R' : α → σ → Prop}
    (hm : m.Yields t s R) (hallows : ∀ o, t.allows o → t'.allows o)
    (hfails : ∀ s' e, t.fails s' e → t'.fails s' e) (hR : ∀ a s', R a s' → R' a s') :
    m.Yields t' s R' := by
  rw [Yields] at hm ⊢
  rcases h : m.alone s with ⟨os, s', e | a⟩ <;> rw [h] at hm
  · exact ⟨fun o ho => hallows o (hm.1 o ho), hfails _ _ hm.2⟩
  · exact ⟨fun o ho => hallows o (hm.1 o ho), hR _ _ hm.2⟩

theorem Yields.fails_of_error {m : Turn σ ω (fun _ => Unit) ε α} {e : ε} (hm : m.Yields t s R)
    (h : (m.alone s).2.2 = .error e) : t.fails (m.alone s).2.1 e := by
  have hresult := hm.2
  rw [← Prod.eta (m.alone s).2, h] at hresult
  exact hresult

/-- What a turn keeps that keeps it also where it fails. -/
theorem Yields.keeps {m : Turn σ ω (fun _ => Unit) ε α} {I : σ → Prop}
    (hm : m.Yields t s fun _ => I) (hfails : ∀ s' e, t.fails s' e → I s') : I (m.alone s).2.1 := by
  rcases h : (m.alone s).2.2 with e | a
  · exact hfails _ e (hm.fails_of_error h)
  · have hresult := hm.2
    rw [← Prod.eta (m.alone s).2, h] at hresult
    exact hresult

/-- The second of two turns may rely on what the first makes true. -/
theorem Yields.bind {m : Turn σ ω (fun _ => Unit) ε α} {f : α → Turn σ ω (fun _ => Unit) ε β}
    (hm : m.Yields t s R) (hf : ∀ a s', R a s' → (f a).Yields t s' Q) : (m >>= f).Yields t s Q := by
  rw [Yields] at hm ⊢
  rw [alone_bind]
  rcases h : m.alone s with ⟨os, s', e | a⟩ <;> rw [h] at hm
  · exact hm
  · obtain ⟨hsaid, hresult⟩ := hf a s' hm.2
    exact ⟨fun o ho => (List.mem_append.mp ho).elim (hm.1 o) (hsaid o), hresult⟩

/-- A turn after one that leaves the state as it is. -/
theorem Yields.still_bind {m : Turn σ ω (fun _ => Unit) ε α}
    {f : α → Turn σ ω (fun _ => Unit) ε β} (hm : m.Yields t s fun _ s' => s' = s)
    (hf : ∀ a, (f a).Yields t s Q) : (m >>= f).Yields t s Q :=
  hm.bind fun a _ hs => hs ▸ hf a

theorem Yields.map {m : Turn σ ω (fun _ => Unit) ε α} {f : α → β}
    (hm : m.Yields t s fun a s' => Q (f a) s') : (f <$> m).Yields t s Q := by
  rw [Yields] at hm ⊢
  rw [alone_map]
  rcases h : m.alone s with ⟨os, s', e | a⟩ <;> rw [h] at hm
  · exact hm
  · exact hm

end Turn

end Parley
