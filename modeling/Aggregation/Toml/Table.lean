import Aggregation.Bag
import Aggregation.Toml.Text

/-! Values and tables of TOML, and how the statements of a document build them.

A table arises in one of four ways, and its origin decides what may still be added to it. No name
is ever given twice. -/
namespace Aggregation.Toml

/-- How a table arose. -/
inductive Origin where
  /-- It was written as a value, and is closed. -/
  | written
  /-- A header named it, or it is the document itself. -/
  | headed
  /-- It stands on the way to a table that a header named. -/
  | passed
  /-- It stands on the way to a value that a key with points named. -/
  | dotted
  deriving DecidableEq

inductive Item where
  | string (s : String)
  | integer (n : Int)
  | float
  | boolean (b : Bool)
  /-- A date, a time of day, or both. -/
  | moment
  | array (items : List Item)
  | table (origin : Origin) (entries : List (String × Item))
  /-- Tables that share a header, the last one first. -/
  | tables (entries : List (List (String × Item)))

/-- What stands in a table, in order. -/
abbrev Entries := List (String × Item)

namespace Entries

/-- Whether a path may lead on through a table: tables that arise on the way are headed for with
`made`. A key with points does not reach into a table that a header named. -/
def passable (made origin : Origin) : Bool :=
  match origin with
  | .written => false
  | .headed => made != .dotted
  | .passed => true
  | .dotted => true

/-- Change the table that a path leads to. Tables that are missing on the way arise; of tables
that share a header the path goes through the last. -/
def alter (made : Origin) (change : Origin → Entries → Option Entries) :
    List String → Origin → Entries → Option Entries
  | [], origin, es => change origin es
  | name :: path, _, es =>
    match Aggregation.Entries.get? name es with
    | none =>
      (alter made change path made []).map fun inner => es ++ [(name, .table made inner)]
    | some (.table origin inner) =>
      if passable made origin then
        (alter made change path origin inner).map fun inner =>
          Aggregation.Entries.put name (.table origin inner) es
      else none
    | some (.tables (last :: earlier)) =>
      (alter made change path .headed last).map fun last =>
        Aggregation.Entries.put name (.tables (last :: earlier)) es
    | some _ => none

/-- Add a value. A key with points ends in a table that such keys made, and in no other. -/
def assign (k : Key) (value : Item) : Origin → Entries → Option Entries :=
  alter .dotted (fun origin es =>
    if (origin == .dotted) == k.path.isEmpty then none
    else
      match Aggregation.Entries.get? k.last es with
      | none => some (es ++ [(k.last, value)])
      | some _ => none) k.path

/-- Name a table by a header. One that was only passed so far moves to the end. -/
def head (k : Key) : Entries → Option Entries :=
  alter .passed (fun _ es =>
    match Aggregation.Entries.get? k.last es with
    | none => some (es ++ [(k.last, .table .headed [])])
    | some (.table .passed inner) =>
      some (Aggregation.Entries.erase k.last es ++ [(k.last, .table .headed inner)])
    | some _ => none) k.path .headed

/-- Begin another table that shares a header. -/
def begin (k : Key) : Entries → Option Entries :=
  alter .passed (fun _ es =>
    match Aggregation.Entries.get? k.last es with
    | none => some (es ++ [(k.last, .tables [[]])])
    | some (.tables earlier) =>
      some (Aggregation.Entries.put k.last (.tables ([] :: earlier)) es)
    | some _ => none) k.path .headed

end Entries

end Aggregation.Toml
