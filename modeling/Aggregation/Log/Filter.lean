import Aggregation.Decimal.Reading
import Aggregation.Log.Pattern
import Aggregation.Log.Record
import Aggregation.Text.Blank
import Aggregation.Text.Digits
import Aggregation.Text.Order
import Aggregation.Text.Split

/-! Filters: which records are wanted.

A filter is a list of directives such as `warn` or `store::writer=debug`, separated by commas. Of
the directives that apply to a record the most specific one says down to which level it is wanted;
a record to which none applies is not wanted, so an empty filter wants nothing. -/
namespace Aggregation.Log

/-- How much detail a level is: errors are one, traces five. -/
def Level.detail : Level → Nat
  | .error => 1
  | .warn => 2
  | .info => 3
  | .debug => 4
  | .trace => 5

structure Directive where
  /-- What the target must begin with. -/
  target : Option String
  /-- A detail that must be there. -/
  required : Option String
  /-- Whether it asks for a surrounding span or for a detail's value. No record is in a span, so
  then it applies to none. -/
  conditional : Bool
  /-- The greatest detail of level that is wanted, zero being none. -/
  most : Nat
  deriving DecidableEq

structure Filter where
  directives : List Directive

namespace Directive

/-! ### Reading -/

/-- A level by its name, in letters of any case, or by its number. -/
def level? (cs : List Char) : Option Nat :=
  match Text.unsigned? 18446744073709551615 cs with
  | some n => if n ≤ 5 then some n else none
  | none =>
    match (String.ofList cs).map Char.toLower with
    | "" => some 1
    | "off" => some 0
    | "error" => some 1
    | "warn" => some 2
    | "info" => some 3
    | "debug" => some 4
    | "trace" => some 5
    | _ => none

/-- Characters that a target begins with: letters, numbers and three marks. -/
def startsTarget (c : Char) : Bool :=
  Text.isAlphanumeric c || c == '-' || c == ':' || c == '_'

/-- Whether the value of a detail can be asked for: a number, or a pattern for its text. -/
def isValue (cs : List Char) : Bool :=
  (Decimal.ofText? (String.ofList cs)).isSome || Pattern.isPattern cs

/-- What may follow a target or a bracket: nothing, or an equals sign and a level. If the level is
left out, everything is wanted. -/
def suffix (d : Directive) (cs : List Char) : Option Directive :=
  match cs with
  | '=' :: [] => some {d with most := 5}
  | '=' :: level => (level? level).map fun n => {d with most := n}
  | _ => if cs.all Text.isBlank then some {d with most := 5} else none

/-- A detail and whether its value is asked for. What follows a second equals sign means nothing. -/
def detail? (cs : List Char) : Option (String × Bool) :=
  let name := cs.takeWhile (· != '=')
  match cs.drop name.length with
  | [] => if cs.isEmpty then none else some (String.ofList name, false)
  | _ :: value =>
    if isValue (value.takeWhile (· != '=')) then some (String.ofList name, true) else none

/-- A bracket after its opening: a span's name, a detail between braces, or both. -/
def bracket (target : Option String) (cs : List Char) : Option Directive :=
  let name := cs.takeWhile fun c => c != ']' && c != '\x7b'
  match cs.drop name.length with
  | ']' :: rest => suffix ⟨target, none, true, 0⟩ rest
  | '\x7b' :: rest =>
    let inner := rest.takeWhile (· != '\x7d')
    match detail? inner, rest.drop inner.length with
    | some (detail, valued), '\x7d' :: ']' :: rest =>
      suffix ⟨target, some detail, !name.isEmpty || valued, 0⟩ rest
    | _, _ => none
  | _ => none

/-- A directive. Blanks before or after it are part of its target, and a level must have none. -/
def parse? (cs : List Char) : Option Directive :=
  let blanks := cs.takeWhile Text.isBlank
  match cs.drop blanks.length with
  | [] => none
  | '[' :: rest =>
    let target := if blanks.isEmpty then none else some (String.ofList blanks)
    bracket target rest
  | c :: rest =>
    if !startsTarget c then none
    else
      let name := (c :: rest).takeWhile fun c => c != '=' && c != '['
      let target := some (String.ofList (blanks ++ name))
      match (c :: rest).drop name.length with
      | [] =>
        match level? cs with
        | some n => some ⟨none, none, false, n⟩
        | none => some ⟨target, none, false, 5⟩
      | '[' :: rest => bracket target rest
      | rest => if blanks.isEmpty then suffix ⟨target, none, false, 0⟩ rest else none

/-! ### Choosing -/

/-- Whether a directive applies to a record. The message is a detail like any other. -/
def applies (d : Directive) (r : Record) : Bool :=
  !d.conditional &&
    (match d.target with
     | none => true
     | some target => r.target.startsWith target) &&
    match d.required with
    | none => true
    | some name => decide (name = "message") || r.details.any fun detail => decide (detail.1 = name)

/-- How specific a directive is: by the length of its target, then by its detail. -/
def specificity (d : Directive) : Nat :=
  let target := match d.target with
    | none => 0
    | some target => 1 + target.utf8ByteSize
  2 * target + (if d.required.isSome then 1 else 0)

/-- Whether a directive goes before one that was given earlier: it is at least as specific, and
its detail's name comes no earlier. -/
def outranks (later earlier : Directive) : Bool :=
  if later.specificity = earlier.specificity then
    Text.precedes (earlier.required.getD "").toList (later.required.getD "").toList
  else Nat.blt earlier.specificity later.specificity

end Directive

namespace Filter

/-- The filter that a text spells, unless one of its directives is malformed. Pieces between commas
that are empty say nothing. -/
def parse? (text : String) : Option Filter :=
  let pieces := (Text.split ',' text.toList).filter fun piece => !piece.isEmpty
  (pieces.mapM Directive.parse?).map Filter.mk

/-- Everything down to information. -/
def informative : Filter :=
  ⟨[⟨none, none, false, 3⟩]⟩

/-- The directive that decides about a record. -/
def deciding? (f : Filter) (r : Record) : Option Directive :=
  (f.directives.filter fun d => d.applies r).foldl
    (fun best d =>
      match best with
      | none => some d
      | some earlier => if d.outranks earlier then some d else best)
    none

def wants (f : Filter) (r : Record) : Bool :=
  match f.deciding? r with
  | some d => Nat.ble r.level.detail d.most
  | none => false

/-- The filter in force: what the environment asks for, else what the settings ask for, else down
to information. What cannot be read is not asked for. -/
def chosen (environment : Option String) (settings : String) : Filter :=
  ((environment.bind parse?).or (parse? settings)).getD informative

end Filter

end Aggregation.Log
