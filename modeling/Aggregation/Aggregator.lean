import Aggregation.Coordinator.Notes
import Aggregation.Sink

/-! An aggregator: a coordinator at work with its sinks and its storage.

Every operation is carried through until nothing more can happen without the passage of time or a
call from outside: results in flight are handed to the completion sink, what it answers is acted
upon, and deadlines that fired are handled one by one. -/
namespace Aggregation

structure Aggregator where
  core : Coordinator
  sink : Sink
  faults : Option FaultSink
  storage : Storage

namespace Aggregator

/-! ### Carrying work through -/

/-- The newest finalization that the sink has not been asked about. -/
def unasked? (a : Aggregator) : Option Finalization :=
  match a.sink with
  | .prompt _ => a.core.inFlight.head?
  | .channel ch => a.core.inFlight.find? fun f => !ch.isWaiting f.group

/-- Ask the sink about a finalization. Groups whose sink takes no note are concluded at once. -/
def ask (a : Aggregator) (f : Finalization) : Aggregator :=
  if !f.outlet.recorded then {a with core := a.core.conclude f.group none}
  else
    match a.sink with
    | .prompt p =>
      let (p, core) := p.respond f a.core
      {a with core, sink := .prompt p}
    | .channel ch =>
      let (ch, core) := ch.send f a.core
      {a with core, sink := .channel ch}

/-- Let the sink go on with one that waits, if it can. -/
def release? (a : Aggregator) : Option Aggregator :=
  match a.sink with
  | .prompt _ => none
  | .channel ch =>
    (ch.release? a.core).map fun (ch, core) => {a with core, sink := .channel ch}

/-- The next thing that can happen by itself, if there is one. -/
def next? (a : Aggregator) : Option Aggregator :=
  match a.unasked? with
  | some f => some (a.ask f)
  | none =>
    match a.release? with
    | some a => some a
    | none =>
      match a.core.expired with
      | [] => none
      | _ :: _ => some {a with core := a.core.expireNext}

def run : (fuel : Nat) → Aggregator → Aggregator
  | 0, a => a
  | fuel + 1, a =>
    match a.next? with
    | some a => run fuel a
    | none => a

/-- What a caller has left to do after the finalization it waits for. -/
def left : Caller → Nat
  | .siblings _ _ _ rest => rest.length
  | .drain _ _ rest => rest.length
  | _ => 0

/-- Asking and releasing for each finalization, and for each that may follow it. -/
def owed : List Finalization → Nat
  | [] => 0
  | f :: rest => 2 * (left f.caller + 1) + owed rest

/-- A bound on how much can happen by itself: what is owed to finalizations, and three steps for
each deadline and each message of the sink's own, which may lead to a finalization. -/
def workload (a : Aggregator) : Nat :=
  let own := match a.sink with
    | .prompt p => p.readmits.length
    | .channel _ => 0
  owed a.core.inFlight + 3 * a.core.expired.length + 3 * own

/-- Carry everything through. -/
def settle (a : Aggregator) : Aggregator :=
  a.run a.workload

/-- Act on the coordinator and carry everything through. -/
def act (a : Aggregator) (f : Coordinator → Coordinator) : Aggregator :=
  {a with core := f a.core}.settle

/-! ### The channel's receiving end -/

/-- Receive results, if there is a channel that is not closed. -/
def receive (a : Aggregator) (most : Nat) : Option (List Result) × Aggregator :=
  match a.sink with
  | .prompt _ => (none, a)
  | .channel ch =>
    if ch.closed then (none, a)
    else
      let (results, ch) := ch.receive most
      (some results, {a with sink := .channel ch}.settle)

def close (a : Aggregator) : Aggregator :=
  match a.sink with
  | .prompt _ => a
  | .channel ch => {a with sink := .channel ch.close}.settle

/-! ### Taking note -/

/-- Let the fault sink and the log take note of events. -/
def observe (a : Aggregator) : List Event → List Log.Record × Aggregator
  | [] => ([], a)
  | e :: rest =>
    let said := e.notes a.core.scheduler.name
    let (more, a) : List Log.Record × Aggregator :=
      match e, a.faults with
      | .faulted m fault, some sink =>
        let (said, sink, storage) := sink.take a.core.now m fault a.storage
        (said, {a with faults := some sink, storage})
      | _, _ => ([], a)
    let (later, a) := observe a rest
    (said ++ more ++ later, a)

/-- What has happened since the last flush, and what was said about it. -/
def flush (a : Aggregator) : List Event × List Log.Record × Aggregator :=
  let events := a.core.history
  let (records, a) := {a with core := {a.core with history := []}}.observe events
  (events, records, a)

end Aggregator

end Aggregation
