import Aggregation.Text.Digits

/-! What can go wrong while messages are aggregated.

None of these ends anything but the aggregation of the message or group it is about. -/
namespace Aggregation

inductive Fault where
  /-- A message came to a group that holds as many as it may. -/
  | groupFull (key : String) (limit : Nat) (messageId : String)
  /-- A sequence property whose text is no position. -/
  | malformedSequence (text : String)
  /-- A completion sink refused a group's messages. `deeper` lists the causes of the cause. -/
  | sinkFailed (key sink cause : String) (deeper : List String)
  /-- A message was asked of a group that holds none. -/
  | emptyGroup (key : String)

namespace Fault

/-- A stable label. -/
def kind : Fault → String
  | .groupFull .. => "group_full"
  | .malformedSequence .. => "malformed_sequence"
  | .sinkFailed .. => "sink_failed"
  | .emptyGroup .. => "empty_group"

/-- The key of the group that the fault belongs to. -/
def key? : Fault → Option String
  | .groupFull key _ _ => some key
  | .malformedSequence _ => none
  | .sinkFailed key _ _ _ => some key
  | .emptyGroup key => some key

def text : Fault → String
  | .groupFull key limit messageId =>
    "Aggregation group '" ++ key ++ "' is full (" ++ Text.natText limit ++ " messages), message "
      ++ messageId ++ " rejected"
  | .malformedSequence text => "Malformed message sequence metadata: '" ++ text ++ "'"
  | .sinkFailed key sink cause _ =>
    "Completion sink '" ++ sink ++ "' failed for group '" ++ key ++ "': " ++ cause
  | .emptyGroup key => "Aggregation group '" ++ key ++ "' has no messages"

/-- The texts of the causes, the nearest first. -/
def causes : Fault → List String
  | .sinkFailed _ _ cause deeper => cause :: deeper
  | _ => []

end Fault

end Aggregation
