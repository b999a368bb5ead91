import Aggregation.Aggregator
import Aggregation.Config

/-! Aggregators built from configurations. -/
namespace Aggregation.Config

/-- Where results go, under a name and perhaps with an id of its own. -/
structure Destination where
  name : String
  id : Option String
  sink : Sink

/-- Where faults go: into the dead letter file, which is opened, if there is one. -/
def openFaults (c : Config) (s : Storage) : Except Problem (Option FaultSink × Storage) :=
  match c.deadLetterFile with
  | none => .ok (none, s)
  | some path =>
    match DeadLetters.openFile path s with
    | .ok (q, s) => .ok (some (.letters q), s)
    | .error failure => .error (.unreadable path failure)

/-- An aggregator, scoped by an id if one is asked for and by the destination's otherwise. -/
def build (c : Config) (asked : Option String) (target : Destination) (s : Storage) (now : Instant) :
    Except Problem Aggregator :=
  match c.openFaults s with
  | .error e => .error e
  | .ok (faults, storage) =>
    let settings : Settings :=
      ⟨c.name, target.name, Coordinator.effectiveId asked target.id, faults.isSome⟩
    .ok ⟨Coordinator.start settings c.metrics now, target.sink, faults, storage⟩

/-- An aggregator for all aggregates. -/
def aggregator (c : Config) : Destination → Storage → Instant → Except Problem Aggregator :=
  c.build none

/-- An aggregator for one aggregate, with that aggregate's completion settings. -/
def aggregatorOf (c : Config) (name : String) (target : Destination) (s : Storage) (now : Instant) :
    Except Problem (Aggregator × Params) :=
  match c.aggregate name with
  | .error e => .error e
  | .ok a =>
    match c.build a.id target s now with
    | .error e => .error e
    | .ok built => .ok (built, a.params)

end Aggregation.Config
