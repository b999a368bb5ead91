import Aggregation.Roster
import Aggregation.Scheduler

/-! What happens in a coordinator, event by event.

Everything that can be observed of a run is an event: what sinks are handed, what is answered to a
call, and what is merely said. -/
namespace Aggregation

/-- What became of an admitted message. -/
inductive Outcome where
  /-- Recorded; the group is still collecting. -/
  | pending
  /-- Recorded, and its admission finalized the group. -/
  | completed (trigger : Trigger)
  /-- Not recorded; the group is full. -/
  | rejected
  /-- Not recorded; the group was completed meanwhile. -/
  | late (m : Message)
  /-- Not recorded; the message carries no key. -/
  | uncorrelated (m : Message)

/-- What a completion sink is handed. -/
structure Result where
  key : String
  messages : List Message
  trigger : Trigger

/-- Who waits for an answer: a call from outside, or a sink that admits a message of its own. -/
inductive Call where
  | outside (n : Nat)
  | fromSink (key : String)

inductive Answer where
  | outcome (o : Outcome)
  | outcomes (os : List Outcome)
  | flag (b : Bool)
  | count (n : Nat)

inductive Event where
  /-- A group was created. -/
  | opened (g : Group)
  /-- A completed group was evicted because its key is wanted again. -/
  | replaced (key : String) (id : Nat)
  /-- A deadline was dropped by a scheduler that is stopped. -/
  | dropped
  /-- A message was offered to a group, which is here as it was before. -/
  | offered (g : Group) (m : Message) (now : Instant)
  /-- A group's messages were handed to its sink. `registered` says whether its key was then
  registered again. -/
  | delivered (id : Nat) (result : Result) (recorded registered : Bool)
  | rejected (key : String) (fault : Fault)
  | late (key : String) (m : Message)
  | uncorrelated (m : Message)
  /-- There was no group to complete by force. -/
  | missing (key : String)
  | fired (d : Deadline)
  /-- A deadline fired for a group that is not registered any more. -/
  | stale (d : Deadline)
  | timedOut (key : String)
  /-- A fault was handed to the fault sink. -/
  | faulted (m : Message) (fault : Fault)
  /-- A fault had no fault sink to go to. -/
  | lost (m : Message) (fault : Fault)
  /-- A sink refused a result that has no message to go to the fault sink. -/
  | lostEmpty (key : String) (fault : Fault)
  | answered (call : Call) (answer : Answer)

end Aggregation
