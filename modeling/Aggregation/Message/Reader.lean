import Aggregation.Clock.Reader
import Aggregation.Message
import Aggregation.Value.Reader

/-! Reading a message from JSON.

A message is an object of named fields or an array of the fields in their declared order. The id
and the action must be there; a missing timestamp is the present, missing properties and a missing
payload are empty. An object may hold fields of other names, whose values are not looked at, but
none of the five twice. -/
namespace Aggregation.Message.Reader

/-- The fields of a message, in declared order. -/
inductive Field where
  | id
  | action
  | timestamp
  | properties
  | payload

def Field.all : List Field :=
  [.id, .action, .timestamp, .properties, .payload]

def Field.ofName? (name : String) : Option Field :=
  if name = "message_id" then some .id
  else if name = "action" then some .action
  else if name = "timestamp" then some .timestamp
  else if name = "properties" then some .properties
  else if name = "payload" then some .payload
  else none

/-- The fields read so far. -/
structure Draft where
  id : Option String
  action : Option String
  timestamp : Option Timestamp
  properties : Option (Bag Value)
  payload : Option Value

def Draft.empty : Draft :=
  ⟨none, none, none, none, none⟩

/-- A property bag from an object. -/
def bag? : Json → Option (Bag Value)
  | .object fields => (Value.ofFields? fields).map Bag.ofList
  | _ => none

/-- The draft with one more field, if the field is new and its value has the right kind. -/
def Draft.read (d : Draft) (field : Field) (value : Json) : Option Draft :=
  match field with
  | .id =>
    if d.id.isSome then none
    else value.text?.map fun s => {d with id := some s}
  | .action =>
    if d.action.isSome then none
    else value.text?.map fun s => {d with action := some s}
  | .timestamp =>
    if d.timestamp.isSome then none
    else (value.text?.bind Timestamp.parse?).map fun t => {d with timestamp := some t}
  | .properties =>
    if d.properties.isSome then none
    else (bag? value).map fun b => {d with properties := some b}
  | .payload =>
    if d.payload.isSome then none
    else (Value.ofJson? value).map fun v => {d with payload := some v}

def Draft.finish (now : Timestamp) (d : Draft) : Option Message :=
  match d.id, d.action with
  | some id, some action =>
    some ⟨id, action, d.timestamp.getD now, d.properties.getD Bag.empty, d.payload.getD .null⟩
  | _, _ => none

/-- The values of fields stand inside the message, which takes one level of nesting. -/
def shallow (value : Json) : Bool :=
  Nat.blt value.depth Json.depthLimit

def Draft.readFields (d : Draft) : List (String × Json) → Option Draft
  | [] => some d
  | (name, value) :: rest =>
    match Field.ofName? name with
    | none => d.readFields rest
    | some field =>
      if shallow value then
        match d.read field value with
        | some d => d.readFields rest
        | none => none
      else none

def Draft.readItems (d : Draft) : List Field → List Json → Option Draft
  | _, [] => some d
  | [], _ :: _ => none
  | field :: fields, value :: rest =>
    if shallow value then
      match d.read field value with
      | some d => d.readItems fields rest
      | none => none
    else none

def ofJson? (now : Timestamp) (tree : Json) : Option Message :=
  match tree with
  | .array items => (Draft.empty.readItems Field.all items).bind (Draft.finish now)
  | _ => (tree.fields?.bind Draft.empty.readFields).bind (Draft.finish now)

end Reader

/-- The message that a JSON text spells, `now` being the present. -/
def parse? (now : Timestamp) (text : String) : Option Message :=
  (Json.parse? text).bind (Reader.ofJson? now)

end Aggregation.Message
