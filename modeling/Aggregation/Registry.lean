import Aggregation.Bag

/-! The registry: which group is collecting under each key.

A key maps to the id of one group. Removing names both, so that whoever holds the id of an old
group cannot evict a newer one that reused its key. -/
namespace Aggregation

structure Registry where
  live : Bag Nat

namespace Registry

def empty : Registry := ⟨Bag.empty⟩

def get? (r : Registry) (key : String) : Option Nat :=
  r.live.get? key

def contains (r : Registry) (key : String) : Bool :=
  (r.get? key).isSome

/-- The group under a key, and whether it is the one that was put there by this very call. -/
def getOrCreate (r : Registry) (key : String) (fresh : Nat) : (Nat × Bool) × Registry :=
  match r.get? key with
  | some id => ((id, false), r)
  | none => ((fresh, true), ⟨r.live.put key fresh⟩)

/-- Evict a key if it still maps to a given group; whether it did. -/
def remove (r : Registry) (key : String) (id : Nat) : Bool × Registry :=
  if r.get? key = some id then (true, ⟨r.live.erase key⟩) else (false, r)

def keys (r : Registry) : List String :=
  r.live.names

/-- The ids of the registered groups. -/
def ids (r : Registry) : List Nat :=
  r.live.entries.map Prod.snd

def size (r : Registry) : Nat :=
  r.live.entries.length

end Registry

end Aggregation
