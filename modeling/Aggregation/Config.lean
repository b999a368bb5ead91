import Aggregation.Bag
import Aggregation.Group
import Aggregation.Storage

/-! Configurations: a coordinator's name, metrics and dead letter file, completion settings for
each of its aggregates, and logging. Everything that is not said has a default. -/
namespace Aggregation

namespace Config

/-- Completion settings of one aggregate. -/
structure Aggregate where
  /-- Scopes the properties that the coordinator reads. -/
  id : Option String
  /-- Milliseconds; zero is no timeout. -/
  timeout : Nat
  min : Int
  max : Int
  deriving DecidableEq

def Aggregate.default : Aggregate := ⟨none, 0, 0, 0⟩

def Aggregate.params (a : Aggregate) : Params :=
  ⟨a.timeout, a.min, a.max⟩

structure Logging where
  /-- A level, or the directives of a filter. -/
  level : String
  format : String
  timestamps : Bool
  deriving DecidableEq

def Logging.default : Logging := ⟨"info", "text", true⟩

end Config

structure Config where
  name : String
  metrics : Bool
  deadLetterFile : Option String
  aggregates : Bag Config.Aggregate
  logging : Config.Logging

namespace Config

def default : Config :=
  ⟨"aggregator", false, none, Bag.empty, Logging.default⟩

/-- What can be wrong with a configuration. -/
inductive Problem where
  /-- A file could not be read, or not be opened. -/
  | unreadable (path : String) (failure : Storage.Failure)
  | malformed
  | unknownAggregate (name : String)

def Problem.text : Problem → String
  | .unreadable path failure => "Failed to read " ++ path ++ ": " ++ failure.text
  | .malformed => "Failed to parse config"
  | .unknownAggregate name => "Unknown aggregate: " ++ name

/-- Settings of an aggregate by its name. -/
def aggregate (c : Config) (name : String) : Except Problem Aggregate :=
  match c.aggregates.get? name with
  | some a => .ok a
  | none => .error (.unknownAggregate name)

/-! ### Fields

A format reads a configuration from named values. Names that are not known are skipped; a known
name must not come twice. -/

/-- How often a name occurs. -/
def occurrences {α : Type} (name : String) (fields : List (String × α)) : Nat :=
  (fields.filter fun field => decide (field.1 = name)).length

/-- Whether no known name occurs twice. -/
def unrepeated {α : Type} (known : List String) (fields : List (String × α)) : Bool :=
  known.all fun name => Nat.ble (occurrences name fields) 1

/-- The value of a field, read by a format's reader, or its default. -/
def field {α β : Type} {m : Type → Type} [Monad m] (fields : List (String × α)) (name : String)
    (read : α → m β) (default : β) : m β :=
  match Entries.get? name fields with
  | some a => read a
  | none => pure default

def names : List String :=
  ["name", "metrics_enabled", "dead_letter_file", "aggregates", "logging"]

def Aggregate.names : List String :=
  ["id", "timeout_ms", "min_messages", "max_messages"]

def Logging.names : List String :=
  ["level", "format", "timestamps"]

/-- The least and the greatest signed 64-bit integer. -/
def signedRange : Int × Int := (-9223372036854775808, 9223372036854775807)

/-- The greatest unsigned 64-bit integer. -/
def unsignedLimit : Nat := 18446744073709551615

end Config

end Aggregation
