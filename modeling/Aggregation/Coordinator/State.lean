import Aggregation.Coordinator.Event
import Aggregation.Metrics

/-! The state of a coordinator.

A coordinator holds its groups, its scheduler, its metrics if it keeps any, and the finalizations
in flight: groups that were claimed and handed to the completion sink, which has not answered yet.
With each finalization goes what is to be done once the sink has answered. -/
namespace Aggregation

/-- What a coordinator is built with. -/
structure Settings where
  name : String
  /-- The name of its completion sink. -/
  sink : String
  /-- The id that scopes the properties it reads. -/
  aggregator : Option String
  hasFaultSink : Bool

/-- What goes on when a finalization concludes. -/
inductive Caller where
  | admission (call : Call)
  /-- One of several messages admitted in turn. -/
  | siblings (call : Call) (params : Params) (done : List Outcome) (rest : List Message)
  | force (call : Call)
  /-- One of several groups completed by force, by their ids. -/
  | drain (call : Call) (done : Nat) (rest : List Nat)
  | expiry

/-- A group that was claimed and handed to its sink. -/
structure Finalization where
  group : Nat
  outlet : Outlet
  result : Result
  caller : Caller

structure Coordinator where
  settings : Settings
  now : Instant
  roster : Roster
  scheduler : Scheduler
  metrics : Option Metrics
  /-- Finalizations whose sink has not answered, the newest first. -/
  inFlight : List Finalization
  /-- Deadlines that fired and are not handled yet. -/
  expired : List Deadline
  /-- What has happened, the oldest first. -/
  history : List Event

namespace Coordinator

/-- The id in force: the one asked for, else the sink's; an empty one is none. -/
def effectiveId (asked sink : Option String) : Option String :=
  match asked.or sink with
  | some id => if id.isEmpty then none else some id
  | none => none

def start (settings : Settings) (metrics : Bool) (now : Instant) : Coordinator :=
  { settings, now, roster := Roster.empty
    scheduler := Scheduler.start (settings.name ++ "-expiry")
    metrics := if metrics then some Metrics.empty else none
    inFlight := [], expired := [], history := [] }

/-- Where the groups of this coordinator go. -/
def outlet (c : Coordinator) : Outlet :=
  ⟨c.settings.sink, true, c.settings.hasFaultSink⟩

def record (c : Coordinator) (e : Event) : Coordinator :=
  {c with history := c.history ++ [e]}

def count (c : Coordinator) (f : Metrics → Metrics) : Coordinator :=
  {c with metrics := c.metrics.map f}

/-- The live group under a key. -/
def group? (c : Coordinator) (key : String) : Option Group :=
  c.roster.registered? key

def setGroup (c : Coordinator) (g : Group) : Coordinator :=
  {c with roster := c.roster.update g}

def evict (c : Coordinator) (key : String) (id : Nat) : Coordinator :=
  {c with roster := (c.roster.remove key id).2}

/-- Ask the scheduler for a deadline. -/
def schedule (c : Coordinator) (d : Deadline) : Coordinator :=
  let after := {c with scheduler := c.scheduler.schedule d}
  if c.scheduler.stopped then after.record .dropped else after

end Coordinator

end Aggregation
