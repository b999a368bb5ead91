import Aggregation.Coordinator.Event

/-! What a coordinator says about the events of a run. -/
namespace Aggregation.Event

def note (level : Log.Level) (message : String) (details : List (String × Log.Detail)) : Log.Record :=
  ⟨level, "conflux_runtime::coordinator", message, details⟩

def startedNote (name : String) : Log.Record :=
  note .info ("Aggregation coordinator '" ++ name ++ "' started") []

/-- What is said about an event, the fault sink's own words apart. `scheduler` is the scheduler's
name. -/
def notes (scheduler : String) : Event → List Log.Record
  | .opened g =>
    [note .debug "Created aggregation group" [("key", .quoted g.key), ("group_id", .number g.id)]]
  | .replaced key id =>
    [note .debug "Replacing completed aggregation group"
      [("key", .quoted key), ("group_id", .number id)]]
  | .dropped => [Scheduler.droppedNote scheduler]
  | .offered g m now => g.offerNotes m now
  | .delivered _ result _ _ =>
    [note .debug "Aggregation complete"
      [("key", .plain result.key), ("messages", .number result.messages.length),
       ("trigger", .plain result.trigger.name)]]
  | .rejected key fault => [note .warn fault.text [("key", .quoted key)]]
  | .late key m =>
    [note .warn "Aggregation already completed - message not aggregated"
      [("key", .quoted key), ("message_id", .plain m.id)]]
  | .uncorrelated m =>
    [note .debug "Message carries no correlation key" [("message_id", .plain m.id)]]
  | .missing key =>
    [note .debug "No aggregation group to force complete" [("key", .quoted key)]]
  | .fired d => [Scheduler.firedNote d]
  | .stale d =>
    [note .debug "Deadline for an already finalized group"
      [("key", .plain d.key), ("group_id", .number d.group)]]
  | .timedOut key => [note .warn "Aggregation timeout occurred" [("key", .plain key)]]
  | .faulted _ _ => []
  | .lost m fault =>
    [note .error ("No fault handler found - [Message Dropped]: " ++ fault.text)
      [("message_id", .plain m.id)]]
  | .lostEmpty key fault =>
    [note .error ("No messages were aggregated - [Message Dropped]: " ++ fault.text)
      [("key", .plain key)]]
  | .answered _ _ => []

end Aggregation.Event
