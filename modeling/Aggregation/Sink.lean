import Aggregation.Coordinator.Conclusion
import Aggregation.DeadLetter

/-! Completion sinks and fault sinks.

A prompt sink answers as soon as it is asked, possibly after admitting a message of its own. A
channel keeps results until they are received and takes no more than its capacity; sinks that find
it full wait their turn, first come first served, and all fail once the channel is closed. -/
namespace Aggregation

/-! ### Completion sinks -/

/-- Which results a prompt sink refuses. -/
inductive Refusals where
  | all
  | only (keys : List String)

def Refusals.contains : Refusals → String → Bool
  | .all, _ => true
  | .only keys, key => keys.any fun k => decide (k = key)

structure PromptSink where
  refusals : Refusals
  /-- What a refusal says. -/
  cause : String
  /-- The keys for whose next result a message is admitted before answering. -/
  readmits : List String
  params : Params

namespace PromptSink

def readmitsKey (p : PromptSink) (key : String) : Bool :=
  p.readmits.any fun k => decide (k = key)

/-- The sink after its message for a key. -/
def withoutKey (p : PromptSink) (key : String) : PromptSink :=
  {p with readmits := p.readmits.filter fun k => !decide (k = key)}

/-- The message that a sink admits to a key. -/
def ownMessage (key : String) (now : Instant) : Message :=
  Message.ofAction (key ++ "-again") "op" (Timestamp.ofMillis now)

/-- What the sink does about a finalization: submit a message of its own, or answer. -/
def respond (p : PromptSink) (f : Finalization) (c : Coordinator) : PromptSink × Coordinator :=
  let key := f.result.key
  if p.readmitsKey key then
    (p.withoutKey key, c.submit (.fromSink key) key (ownMessage key c.now) p.params)
  else (p, c.conclude f.group (if p.refusals.contains key then some p.cause else none))

end PromptSink

structure Channel where
  capacity : Nat
  /-- Results not yet received, the oldest first. -/
  buffer : List Result
  /-- The groups whose results wait for room, the oldest first. -/
  waiting : List Nat
  closed : Bool

namespace Channel

def ofCapacity (capacity : Nat) : Channel :=
  ⟨capacity, [], [], false⟩

def hasRoom (ch : Channel) : Bool :=
  Nat.blt ch.buffer.length ch.capacity

def isWaiting (ch : Channel) (id : Nat) : Bool :=
  ch.waiting.any fun w => w == id

/-- What a send to a closed channel says. -/
def closedText (sink : String) : String :=
  "channel sink '" ++ sink ++ "' closed"

/-- Send the result of a finalization that is not waiting yet. -/
def send (ch : Channel) (f : Finalization) (c : Coordinator) : Channel × Coordinator :=
  if ch.closed then (ch, c.conclude f.group (some (closedText f.outlet.sink)))
  else if ch.waiting.isEmpty && ch.hasRoom then
    ({ch with buffer := ch.buffer ++ [f.result]}, c.conclude f.group none)
  else ({ch with waiting := ch.waiting ++ [f.group]}, c)

/-- Let the one go on that has waited longest, if the channel is closed or has room. -/
def release? (ch : Channel) (c : Coordinator) : Option (Channel × Coordinator) :=
  match ch.waiting with
  | [] => none
  | id :: rest =>
    if ch.closed || ch.hasRoom then
      let ch := {ch with waiting := rest}
      match c.inFlight.find? fun f => f.group == id with
      | none => some (ch, c)
      | some f =>
        if ch.closed then some (ch, c.conclude id (some (closedText f.outlet.sink)))
        else some ({ch with buffer := ch.buffer ++ [f.result]}, c.conclude id none)
    else none

/-- Take results out, up to a number. -/
def receive (ch : Channel) (most : Nat) : List Result × Channel :=
  (ch.buffer.take most, {ch with buffer := ch.buffer.drop most})

/-- Nobody receives any more; what was not received is gone. -/
def close (ch : Channel) : Channel :=
  {ch with buffer := [], closed := true}

end Channel

inductive Sink where
  | prompt (p : PromptSink)
  | channel (ch : Channel)

/-! ### Fault sinks -/

inductive FaultSink where
  /-- Takes note and does nothing. -/
  | recorder
  /-- Writes to the log. -/
  | logger
  /-- Writes to a dead letter file. -/
  | letters (q : DeadLetters)

/-- What the logging fault sink says. -/
def FaultSink.logNote (m : Message) (fault : Fault) : Log.Record :=
  ⟨.warn, "conflux_runtime::sink", "Aggregation fault: " ++ fault.text,
    [("message_id", .plain m.id), ("kind", .quoted fault.kind)]⟩

/-- Hand a fault to a fault sink. -/
def FaultSink.take (sink : FaultSink) (now : Instant) (m : Message) (fault : Fault) (s : Storage) :
    List Log.Record × FaultSink × Storage :=
  match sink with
  | .recorder => ([], sink, s)
  | .logger => ([logNote m fault], sink, s)
  | .letters q =>
    let (failure, q, s) := q.write (Timestamp.ofMillis now) m fault s
    ((failure.map (DeadLetters.failureNote q.path)).toList, .letters q, s)

end Aggregation
