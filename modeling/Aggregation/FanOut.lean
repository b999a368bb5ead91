import Aggregation.Fault
import Aggregation.Message
import Aggregation.Position

/-! Fanning a message out into siblings, and finding the siblings again.

Each sibling carries two properties: its position among its siblings, which declares how many
there are, and its parent's id, which is the key they are collected under. The names of the two
may be scoped by an aggregator's id, so that aggregations inside one another do not collide. -/
namespace Aggregation

/-- A property's name within the scope of an aggregator; an empty id is none. -/
def inScope (base : String) (aggregator : Option String) : String :=
  match aggregator with
  | none => base
  | some id => if id.isEmpty then base else base ++ "." ++ id

/-- The name of the property that holds a message's position. -/
def sequenceProperty (aggregator : Option String) : String :=
  inScope "MESSAGE_SEQUENCE" aggregator

/-- The name of the property that holds a message's correlation key. -/
def correlationProperty (aggregator : Option String) : String :=
  inScope "AGGREGATE_CORRELATION" aggregator

namespace Message

/-- The position stamped on a message. A property that is no string is no position either, but
not an error. -/
def position (m : Message) (property : String) : Except Fault (Option Position) :=
  match m.property? property with
  | some (.str text) =>
    match Position.parse? text with
    | some p => .ok (some p)
    | none => .error (.malformedSequence text)
  | _ => .ok none

/-- The key a message is collected under. -/
def correlationKey? (m : Message) (aggregator : Option String) : Option String :=
  m.text? (correlationProperty aggregator)

/-! ### Siblings -/

/-- The id of a message's `index`-th sibling. -/
def siblingId (parent : String) (index : Nat) : String :=
  parent ++ "-" ++ Text.natText index

/-- The `index`-th of `count` copies of a message. -/
def sibling (m : Message) (count : Nat) (aggregator : Option String) (index : Nat) : Message :=
  ((m.withId (siblingId m.id index)).setProperty (sequenceProperty aggregator)
      (.str (Position.text ⟨index, count⟩))).setProperty
    (correlationProperty aggregator) (.str m.id)

/-- All copies of a message, in order; everything but id, position and key is the message's. -/
def fanOut (m : Message) (count : Nat) (aggregator : Option String) : List Message :=
  (List.range count).map fun i => m.sibling count aggregator (i + 1)

/-- Fanning out `depth` times, every message of one level into the next. -/
def fanOutDeep (count : Nat) (aggregator : Option String) : (depth : Nat) → List Message → List Message
  | 0, ms => ms
  | depth + 1, ms => fanOutDeep count aggregator depth (ms.flatMap fun m => m.fanOut count aggregator)

end Message

end Aggregation
