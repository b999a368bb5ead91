import Aggregation.Config
import Aggregation.Toml.Document

/-! Configurations in TOML.

Settings stand in a table, or in an array in the order of their names. A date where settings are
expected says nothing, and leaves every default. -/
namespace Aggregation.Config.Toml
open Aggregation.Toml

/-! ### Single values -/

def text : Item → Option String
  | .string s => some s
  | _ => none

def truth : Item → Option Bool
  | .boolean b => some b
  | _ => none

def signed : Item → Option Int
  | .integer n => some n
  | _ => none

def unsigned : Item → Option Nat
  | .integer (.ofNat n) => some n
  | _ => none

/-! ### Settings -/

/-- The values of settings by their names. -/
def fields (known : List String) : Item → Option Entries
  | .table _ es => some es
  | .array vs => some (known.zip vs)
  | .tables (last :: earlier) =>
    some (known.zip ((last :: earlier).reverse.map (.table .headed)))
  | .moment => some []
  | _ => none

def aggregateOf (v : Item) : Option Aggregate := do
  let fs ← fields Aggregate.names v
  return {
    id := ← field fs "id" (fun v => (text v).map some) none
    timeout := ← field fs "timeout_ms" unsigned 0
    min := ← field fs "min_messages" signed 0
    max := ← field fs "max_messages" signed 0 }

/-- Aggregates by name; only a table names them. -/
def aggregatesOf : Item → Option (Bag Aggregate)
  | .table _ es =>
    (es.mapM fun e => (aggregateOf e.2).map fun a => (e.1, a)).map Bag.ofList
  | _ => none

def loggingOf (v : Item) : Option Logging := do
  let fs ← fields Logging.names v
  return {
    level := ← field fs "level" text Logging.default.level
    format := ← field fs "format" text Logging.default.format
    timestamps := ← field fs "timestamps" truth Logging.default.timestamps }

def configOf (fs : Entries) : Option Config := do
  return {
    name := ← field fs "name" text default.name
    metrics := ← field fs "metrics_enabled" truth default.metrics
    deadLetterFile := ← field fs "dead_letter_file" (fun v => (text v).map some) none
    aggregates := ← field fs "aggregates" aggregatesOf Bag.empty
    logging := ← field fs "logging" loggingOf Logging.default }

/-- The configuration that a text spells. -/
def parse? (cs : List Char) : Option Config :=
  (document? cs).bind configOf

end Aggregation.Config.Toml
