import Aggregation.FanOut
import Aggregation.Log.Record

/-! When a group is complete.

The rules are checked in a fixed order, and the first that holds is the trigger: the first message
declares how many siblings to expect and that many are there; a minimum is reached; a maximum is
reached; the deadline has come. -/
namespace Aggregation

/-- A point of the monotonic clock, in milliseconds. -/
abbrev Instant := Int

/-- The last point that the clock can name; it keeps seconds in 63 bits. -/
def Instant.last : Instant := 9223372036854775807999

/-- What caused a group to complete. -/
inductive Trigger where
  | declaredTotal
  | minCount
  | maxCount
  | timeout
  /-- On request, before the deadline. -/
  | forced
  deriving DecidableEq

def Trigger.name : Trigger → String
  | .declaredTotal => "declared_total"
  | .minCount => "min_count"
  | .maxCount => "max_count"
  | .timeout => "timeout"
  | .forced => "forced"

inductive Completion where
  | incomplete
  | complete (trigger : Trigger)
  deriving DecidableEq

/-- The thresholds a group is held against. -/
structure Policy where
  /-- The property that declares the total. -/
  property : String
  min : Option Nat
  max : Option Nat
  expiry : Option Instant

namespace Policy

/-- A count, if it is positive. -/
def threshold (n : Int) : Option Nat :=
  if 0 < n then some n.toNat else none

/-- Counts that are not positive are no thresholds. -/
def ofCounts (property : String) (min max : Int) (expiry : Option Instant) : Policy :=
  ⟨property, threshold min, threshold max, expiry⟩

/-- The total that a group's first message declares. -/
def declared? (p : Policy) (messages : List Message) : Option Nat :=
  match messages with
  | [] => none
  | first :: _ =>
    match first.position p.property with
    | .ok (some position) => some position.total
    | _ => none

/-- Whether a threshold is set and reached. -/
def reached (threshold : Option Nat) (count : Nat) : Bool :=
  match threshold with
  | some n => Nat.ble n count
  | none => false

def isExpired (p : Policy) (now : Instant) : Bool :=
  match p.expiry with
  | some deadline => decide (deadline ≤ now)
  | none => false

/-- The decision about some messages at a point of time. -/
def evaluate (p : Policy) (messages : List Message) (now : Instant) : Completion :=
  let count := messages.length
  if reached (p.declared? messages) count then .complete .declaredTotal
  else if reached p.min count then .complete .minCount
  else if reached p.max count then .complete .maxCount
  else if p.isExpired now then .complete .timeout
  else .incomplete

/-! ### What is said about a decision -/

def note (message : String) : Log.Record :=
  ⟨.debug, "conflux_runtime::policy", message, []⟩

/-- About the messages. -/
def collectedNote (p : Policy) : List Message → List Log.Record
  | [] => [note "No messages collected in current aggregation"]
  | first :: rest =>
    match first.position p.property with
    | .ok (some position) =>
      [note (Text.natText (rest.length + 1) ++ " messages of " ++ Text.natText position.total
        ++ " collected in current aggregation")]
    | .ok none => []
    | .error fault => [note ("Ignoring declared total: " ++ fault.text)]

/-- About the rule that decided. -/
def ruleNote (p : Policy) : Completion → List Log.Record
  | .complete .minCount =>
    [note ("Aggregation complete - minimum of " ++ Text.natText (p.min.getD 0) ++ " reached")]
  | .complete .maxCount =>
    [note ("Aggregation complete - maximum of " ++ Text.natText (p.max.getD 0) ++ " reached")]
  | .complete .timeout => [note "Aggregation complete - timed out"]
  | _ => []

/-- What an evaluation says. -/
def notes (p : Policy) (messages : List Message) (now : Instant) : List Log.Record :=
  p.collectedNote messages ++ p.ruleNote (p.evaluate messages now)

end Policy

end Aggregation
