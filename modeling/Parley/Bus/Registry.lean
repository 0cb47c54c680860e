import Parley.Table

/-!
# Subscriptions

Which handlers are called for which kind of event, and in which order: higher priorities first, and
among equal priorities in the order of subscription. A handler may be subscribed several times.
-/

namespace Parley

variable {κ η : Type}

/-- A handler and how early it is called. -/
structure Subscription (η : Type) where
  priority : Int
  handler : η
  deriving DecidableEq, Repr

/-- Put a subscription in front of the first one with a lower priority. -/
def Subscription.insert (s : Subscription η) : List (Subscription η) → List (Subscription η)
  | [] => [s]
  | x :: xs => if x.priority < s.priority then s :: x :: xs else x :: s.insert xs

/-- The subscriptions to each kind of event, in calling order. -/
def Registry (κ η : Type) : Type := Table κ (List (Subscription η))

namespace Registry

variable [DecidableEq κ]

/-- Nobody listens. -/
def empty : Registry κ η := Table.empty

/-- The subscriptions to a kind. -/
def handlers (r : Registry κ η) (k : κ) : List (Subscription η) := Table.getD r k []

/-- How many subscriptions there are to a kind. -/
def count (r : Registry κ η) (k : κ) : Nat := (r.handlers k).length

/-- Change the subscriptions to one kind. -/
def change (r : Registry κ η) (k : κ) (f : List (Subscription η) → List (Subscription η)) :
    Registry κ η :=
  Table.put r k (f (r.handlers k))

/-- Subscribe to a kind. -/
def subscribe (r : Registry κ η) (k : κ) (s : Subscription η) : Registry κ η :=
  r.change k s.insert

/-- Subscribe to several kinds. -/
def subscribeAll (r : Registry κ η) (ks : List κ) (s : Subscription η) : Registry κ η :=
  ks.foldl (fun r k => r.subscribe k s) r

/-- Remove every subscription of a handler to a kind. -/
def unsubscribe [DecidableEq η] (r : Registry κ η) (k : κ) (h : η) : Registry κ η :=
  r.change k fun ss => ss.filter fun s => s.handler != h

/-- Remove all subscriptions to a kind, or all there are. -/
def clear (r : Registry κ η) : Option κ → Registry κ η
  | some k => r.change k fun _ => []
  | none => empty

end Registry

end Parley
