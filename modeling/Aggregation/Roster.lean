import Aggregation.Group
import Aggregation.Registry

/-! The roster: every group ever created, and the registry of those that are live.

Groups are numbered from one in the order of their creation, so an id is never used again. A group
stays on the roster after its eviction: whoever was handed it may still ask it. -/
namespace Aggregation

structure Roster where
  /-- In order of creation. -/
  groups : List Group
  registry : Registry

namespace Roster

def empty : Roster := ⟨[], Registry.empty⟩

/-- The id of the next group. -/
def nextId (r : Roster) : Nat :=
  r.groups.length + 1

def group? (r : Roster) (id : Nat) : Option Group :=
  r.groups.find? fun g => g.id == id

/-- The live group under a key. -/
def registered? (r : Roster) (key : String) : Option Group :=
  (r.registry.get? key).bind r.group?

/-- Replace the group of the same id. -/
def update (r : Roster) (g : Group) : Roster :=
  {r with groups := r.groups.map fun h => if h.id = g.id then g else h}

/-- Add a new group and register it under a key. -/
def create (r : Roster) (key : String) (g : Group) : Roster :=
  ⟨r.groups ++ [g], (r.registry.getOrCreate key g.id).2⟩

/-- The live group under a key, made from the next id if there is none; whether it was made. -/
def getOrCreate (r : Roster) (key : String) (make : Nat → Group) : Group × Bool × Roster :=
  match r.registered? key with
  | some g => (g, false, r)
  | none =>
    let g := make r.nextId
    (g, true, r.create key g)

/-- Evict a key if it maps to a given group; whether it did. -/
def remove (r : Roster) (key : String) (id : Nat) : Bool × Roster :=
  let (removed, registry) := r.registry.remove key id
  (removed, {r with registry})

/-- The live groups, in the order in which they were registered. -/
def live (r : Roster) : List Group :=
  r.registry.ids.filterMap r.group?

end Roster

end Aggregation
