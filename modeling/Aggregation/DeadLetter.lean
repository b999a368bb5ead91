import Aggregation.Fault
import Aggregation.Log.Record
import Aggregation.Message
import Aggregation.Storage

/-! Dead letters: messages that could not be aggregated, kept in a file.

Each message is one line of JSON: when and why it was put away, the key of its group, and the
message itself. A queue counts the lines written through it since it was opened; a write that
fails is counted nowhere and stops nothing. -/
namespace Aggregation

/-- A dead letter file that was opened. -/
structure DeadLetters where
  path : String
  count : Nat

namespace DeadLetters

/-- The line of a message, without its end. -/
def line (now : Timestamp) (m : Message) (fault : Fault) : List Char :=
  Json.Writer.braced
    [("timestamp", Json.Writer.quoted now.rfc3339),
     ("key", Json.Writer.stringOrNull fault.key?),
     ("kind", Json.Writer.string fault.kind),
     ("error", Json.Writer.string fault.text),
     ("message", m.written)]

/-- Open a file, creating it if it is not there. -/
def openFile (path : String) (s : Storage) : Except Storage.Failure (DeadLetters × Storage) :=
  match s.openForAppend path with
  | .ok s => .ok (⟨path, 0⟩, s)
  | .error failure => .error failure

/-- Append a message's line. The answer is what went wrong, if anything did. -/
def write (q : DeadLetters) (now : Timestamp) (m : Message) (fault : Fault) (s : Storage) :
    Option Storage.Failure × DeadLetters × Storage :=
  match s.append q.path (line now m fault ++ ['\n']) with
  | .ok s => (none, {q with count := q.count + 1}, s)
  | .error failure => (some failure, q, s)

/-- What is said about a write that failed. -/
def failureNote (path : String) (failure : Storage.Failure) : Log.Record :=
  ⟨.error, "conflux_runtime::dead_letter",
    "Failed to write dead letter " ++ path ++ ": " ++ failure.text, []⟩

end DeadLetters

end Aggregation
