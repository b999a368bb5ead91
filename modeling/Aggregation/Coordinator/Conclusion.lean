import Aggregation.Coordinator.Admission
import Aggregation.Coordinator.Forcing

/-! Concluding a finalization once its sink has answered.

A refusal is reported, the group is cleared either way, and whoever claimed the group goes on:
with an answer, with the next sibling or with the next group. -/
namespace Aggregation.Coordinator

/-- What the caller of a finalization does next. -/
def resume (c : Coordinator) (trigger : Trigger) : Caller → Coordinator
  | .admission call => c.record (.answered call (.outcome (.completed trigger)))
  | .siblings call params done rest => submitEach call params (done ++ [.completed trigger]) rest c
  | .force call => c.record (.answered call (.flag true))
  | .drain call done rest => forceEach call (done + 1) rest c
  | .expiry => c

/-- Report a sink's refusal, if it refused, and release the group's messages. -/
def release (c : Coordinator) (id : Nat) (refusal : Option String) : Coordinator :=
  match c.roster.group? id with
  | none => c
  | some g =>
    let c := match refusal with
      | some cause => c.reportRefusal g cause
      | none => c
    c.setGroup g.clear

/-- The sink of a finalization in flight has answered. -/
def conclude (c : Coordinator) (id : Nat) (refusal : Option String) : Coordinator :=
  match c.inFlight.find? fun f => f.group == id with
  | none => c
  | some f =>
    let c := {c with inFlight := c.inFlight.eraseP fun f => f.group == id}
    (c.release id refusal).resume f.result.trigger f.caller

end Aggregation.Coordinator
