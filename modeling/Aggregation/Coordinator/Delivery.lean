import Aggregation.Coordinator.State

/-! Handing a claimed group to its completion sink, and faults to the fault sink. -/
namespace Aggregation.Coordinator

/-- Evict a claimed group and hand its messages to its sink. The finalization is in flight until
the sink answers. -/
def deliver (c : Coordinator) (g : Group) (trigger : Trigger) (caller : Caller) : Coordinator :=
  let c := (c.evict g.key g.id).count fun m => m.recordCompleted trigger g.messages.length
  let result : Result := ⟨g.key, g.messages, trigger⟩
  let registered := c.roster.registry.contains g.key
  let c := c.record (.delivered g.id result g.outlet.recorded registered)
  {c with inFlight := ⟨g.id, g.outlet, result, caller⟩ :: c.inFlight}

/-- Report a fault about a message. -/
def fault (c : Coordinator) (outlet : Outlet) (m : Message) (f : Fault) : Coordinator :=
  (c.count fun metrics => metrics.recordFault f.kind).record
    (if outlet.hasFaultSink then .faulted m f else .lost m f)

/-- Report that a group's sink refused its messages, with the message that came last. -/
def reportRefusal (c : Coordinator) (g : Group) (cause : String) : Coordinator :=
  let f := Fault.sinkFailed g.key g.outlet.sink cause []
  match g.last with
  | .ok m => c.fault g.outlet m f
  | .error _ => (c.count fun metrics => metrics.recordFault f.kind).record (.lostEmpty g.key f)

end Aggregation.Coordinator
