import Aggregation.Config
import Aggregation.Yaml.Node

/-! Configurations in YAML.

What a scalar means depends on what is expected of it. Any scalar is a string; truth values and
numbers must be plain; a plain scalar that is empty or a word for null is no value where a value
may be missing, and an empty one is an empty mapping where a mapping is expected. -/
namespace Aggregation.Config.Yaml
open Aggregation.Yaml

/-! ### Numbers -/

/-- What a digit counts in a base. -/
def digitIn? (base : Nat) (c : Char) : Option Nat :=
  match Text.hexValue? c with
  | some n => if n < base then some n else none
  | none => none

/-- A nonempty run of digits in a base. -/
def naturalIn? (base : Nat) (cs : List Char) : Option Nat :=
  if cs.isEmpty then none
  else (cs.mapM (digitIn? base)).map fun values => values.foldl (fun n v => base * n + v) 0

/-- Whether digits start with a zero that is not alone. -/
def hasLeadingZero (cs : List Char) : Bool :=
  let body := match cs with
    | '-' :: rest => rest
    | '+' :: rest => rest
    | _ => cs
  match body with
  | '0' :: rest => !rest.isEmpty && rest.all Text.isDigit
  | _ => false

def startsSigned : List Char → Bool
  | '+' :: _ => true
  | '-' :: _ => true
  | _ => false

/-- A number without a sign of its own: hexadecimal, octal or binary after a mark, else decimal. -/
def magnitude? : List Char → Option Nat
  | '0' :: 'x' :: rest => naturalIn? 16 rest
  | '0' :: 'o' :: rest => naturalIn? 8 rest
  | '0' :: 'b' :: rest => naturalIn? 2 rest
  | cs => naturalIn? 10 cs

/-- An unsigned number after an optional plus sign. -/
def unsigned? (cs : List Char) : Option Nat :=
  let body := match cs with
    | '+' :: rest => rest
    | _ => cs
  if startsSigned body || hasLeadingZero cs then none
  else
    match magnitude? body with
    | some n => if n ≤ unsignedLimit then some n else none
    | none => none

/-- A number after an optional sign. -/
def signed? (cs : List Char) : Option Int :=
  let size := match cs with
    | '+' :: rest => if startsSigned rest then none else (magnitude? rest).map fun n => (n : Int)
    | '-' :: rest => (magnitude? rest).map fun n => -(n : Int)
    | _ => (magnitude? cs).map fun n => (n : Int)
  if hasLeadingZero cs then none
  else
    match size with
    | some n => if signedRange.1 ≤ n && n ≤ signedRange.2 then some n else none
    | none => none

/-! ### Scalars -/

def nullTag : List Char := "tag:yaml.org,2002:null".toList
def boolTag : List Char := "tag:yaml.org,2002:bool".toList
def intTag : List Char := "tag:yaml.org,2002:int".toList

/-- Reading may fail, and it may follow no more aliases than are left. -/
abbrev Reading := StateT Nat Option

/-- The node itself, or the one that an alias stands for. -/
def resolve (d : Document) (n : Node) : Reading Node :=
  match n with
  | .alias id => fun left =>
    match left, d.target? id with
    | left + 1, some n => some (n, left)
    | _, _ => none
  | n => pure n

def text (d : Document) (n : Node) : Reading String := do
  match ← resolve d n with
  | .scalar _ _ cs => pure (String.ofList cs)
  | _ => failure

def isNullWord (cs : List Char) : Bool :=
  cs == ['~'] || cs == ['n', 'u', 'l', 'l'] || cs == ['N', 'u', 'l', 'l'] || cs == ['N', 'U', 'L', 'L']

/-- A string that may be missing. -/
def optionalText (d : Document) (n : Node) : Reading (Option String) := do
  match ← resolve d n with
  | .scalar tag .plain cs =>
    match tag with
    | none => pure (if cs.isEmpty || isNullWord cs then none else some (String.ofList cs))
    | some tag =>
      if tag == nullTag then (if isNullWord cs then pure none else failure)
      else pure (some (String.ofList cs))
  | .scalar _ _ cs => pure (some (String.ofList cs))
  | _ => failure

/-- The characters of a scalar that may be more than a string: it is plain, or a block that is
tagged as what is expected. -/
def typed (d : Document) (expected : List Char) (n : Node) : Reading (List Char) := do
  match ← resolve d n with
  | .scalar _ .plain cs => pure cs
  | .scalar (some tag) .literal cs => if tag == expected then pure cs else failure
  | _ => failure

def truth (d : Document) (n : Node) : Reading Bool := do
  let word := String.ofList (← typed d boolTag n)
  if word = "true" || word = "True" || word = "TRUE" then pure true
  else if word = "false" || word = "False" || word = "FALSE" then pure false
  else failure

def unsigned (d : Document) (n : Node) : Reading Nat := do
  StateT.lift (unsigned? (← typed d intTag n))

def signed (d : Document) (n : Node) : Reading Int := do
  StateT.lift (signed? (← typed d intTag n))

/-! ### Mappings -/

/-- The fields of a mapping, or of nothing where a mapping could be. -/
def entries (d : Document) (n : Node) : Reading (List (String × Node)) := do
  match ← resolve d n with
  | .mapping es => es.mapM fun e => (text d e.1).map fun k => (k, e.2)
  | .scalar _ .plain [] => pure []
  | _ => failure

/-- The fields of a mapping in which no known name comes twice. -/
def fields (d : Document) (known : List String) (n : Node) : Reading (List (String × Node)) := do
  let fields ← entries d n
  if unrepeated known fields then pure fields else failure

def aggregateOf (d : Document) (n : Node) : Reading Aggregate := do
  let fs ← fields d Aggregate.names n
  return {
    id := ← field fs "id" (optionalText d) none
    timeout := ← field fs "timeout_ms" (unsigned d) 0
    min := ← field fs "min_messages" (signed d) 0
    max := ← field fs "max_messages" (signed d) 0 }

/-- Aggregates by name; of a repeated name the last settings count. -/
def aggregatesOf (d : Document) (n : Node) : Reading (Bag Aggregate) := do
  let es ← entries d n
  let read ← es.mapM fun e => (aggregateOf d e.2).map fun a => (e.1, a)
  return Bag.ofList read

def loggingOf (d : Document) (n : Node) : Reading Logging := do
  let fs ← fields d Logging.names n
  return {
    level := ← field fs "level" (text d) Logging.default.level
    format := ← field fs "format" (text d) Logging.default.format
    timestamps := ← field fs "timestamps" (truth d) Logging.default.timestamps }

def configOf (d : Document) (n : Node) : Reading Config := do
  let fs ← fields d names n
  return {
    name := ← field fs "name" (text d) default.name
    metrics := ← field fs "metrics_enabled" (truth d) default.metrics
    deadLetterFile := ← field fs "dead_letter_file" (optionalText d) none
    aggregates := ← field fs "aggregates" (aggregatesOf d) Bag.empty
    logging := ← field fs "logging" (loggingOf d) Logging.default }

/-- The configuration that a text spells. For every part of its tree it may follow a hundred
aliases. -/
def parse? (cs : List Char) : Option Config :=
  match document? cs with
  | none => none
  | some d =>
    match d.root with
    | none => some default
    | some n => (configOf d n).run' (100 * n.parts)

end Aggregation.Config.Yaml
