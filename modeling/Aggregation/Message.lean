import Aggregation.Clock.Timestamp
import Aggregation.Value

/-! Messages: an id, the action they are meant for, the time at which they entered, a property bag
and a payload. -/
namespace Aggregation

structure Message where
  id : String
  action : String
  timestamp : Timestamp
  properties : Bag Value
  payload : Value

namespace Message

/-- A message without properties and payload. -/
def ofAction (id action : String) (timestamp : Timestamp) : Message :=
  ⟨id, action, timestamp, Bag.empty, .null⟩

def withId (m : Message) (id : String) : Message :=
  {m with id}

def withPayload (m : Message) (payload : Value) : Message :=
  {m with payload}

/-! ### Properties -/

def setProperty (m : Message) (name : String) (value : Value) : Message :=
  {m with properties := m.properties.put name value}

def property? (m : Message) (name : String) : Option Value :=
  m.properties.get? name

/-- A property, if it is a string. -/
def text? (m : Message) (name : String) : Option String :=
  (m.property? name).bind Value.str?

/-- The property and the message without it. -/
def removeProperty (m : Message) (name : String) : Option Value × Message :=
  (m.property? name, {m with properties := m.properties.erase name})

/-! ### Text -/

/-- JSON text, the fields in declared order. -/
def written (m : Message) : List Char :=
  Json.Writer.braced
    [("message_id", Json.Writer.string m.id),
     ("action", Json.Writer.string m.action),
     ("timestamp", Json.Writer.quoted m.timestamp.zulu),
     ("properties", Json.Writer.braced (Value.writtenEntries m.properties.entries)),
     ("payload", m.payload.written)]

def json (m : Message) : String :=
  String.ofList m.written

end Message

end Aggregation
