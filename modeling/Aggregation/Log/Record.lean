/-! What the library says about its own work: a level, the part that speaks, a message and named
details. How records are chosen and laid out is for a subscriber; what happens never depends on
them. -/
namespace Aggregation.Log

/-- How much a record matters. -/
inductive Level where
  | trace
  | debug
  | info
  | warn
  | error
  deriving DecidableEq

def Level.name : Level → String
  | .trace => "TRACE"
  | .debug => "DEBUG"
  | .info => "INFO"
  | .warn => "WARN"
  | .error => "ERROR"

/-- A detail: text that a layout may put in quotes, text that stands as it is, or a number. -/
inductive Detail where
  | quoted (text : String)
  | plain (text : String)
  | number (n : Nat)

structure Record where
  level : Level
  target : String
  message : String
  details : List (String × Detail)

end Aggregation.Log
