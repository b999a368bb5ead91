import Aggregation.Message.Reader
import Aggregation.Proofs.Clock.Timestamp
import Aggregation.Proofs.Value.ReadBack

/-! A message comes back from its JSON text.

The text of a message spells an object of its five fields, each of which is read back by itself:
texts by `Json.spells_string`, the timestamp by `Timestamp.parse?_zulu`, the properties and the
payload by `Value.exists_tree`. The object and the properties take two levels of the nesting that a
text may have, so values of 125 levels still fit. What is read is the message itself, with its
properties and all entries in their order (`parse?_json`). -/
namespace Aggregation

namespace Value

/-- A value that JSON text can carry in a message: it holds no double and nests at most 125 arrays
and maps, none of which repeats a name. -/
structure Portable (v : Value) : Prop where
  floatFree : v.FloatFree
  distinct : v.Distinct
  shallow : v.depth ≤ 125

/-- Entries whose values are portable spell fields that are read as those entries. -/
theorem exists_fields_of_portable {entries : List (String × Value)}
    (h : ∀ entry ∈ entries, entry.2.Portable) :
    ∃ fields, List.Forall₂ Json.SpellsField (writtenEntries entries) fields ∧
      Json.depthFields fields ≤ 125 ∧ ofFields? fields = some entries := by
  induction entries with
  | nil => exact ⟨[], .nil, Nat.zero_le _, rfl⟩
  | cons entry rest ih =>
    obtain ⟨name, value⟩ := entry
    have hvalue : value.Portable := h (name, value) (List.mem_cons_self ..)
    obtain ⟨tree, htree⟩ := exists_tree value hvalue.floatFree hvalue.distinct
    obtain ⟨fields, hspells, hdepth, hread⟩ := ih fun e he => h e (List.mem_cons_of_mem _ he)
    refine ⟨(some name, tree) :: fields, .cons ⟨rfl, htree.spells⟩ hspells, ?_, ?_⟩
    · rw [Json.depthFields, htree.depth]
      exact Nat.max_le.2 ⟨hvalue.shallow, hdepth⟩
    · simp only [ofFields?, htree.read, hread]

end Value

namespace Message

/-- A message that JSON text can carry: it entered in one of the years 1970 to 9999, not within a
leap second, and its values are portable. -/
structure Portable (m : Message) : Prop where
  year : 1970 ≤ m.timestamp.year ∧ m.timestamp.year ≤ 9999
  nanos : m.timestamp.nanos < 1000000000
  properties : ∀ entry ∈ m.properties.entries, entry.2.Portable
  payload : m.payload.Portable

namespace Reader

/-- A bag is read from the fields that its entries spell. -/
theorem bag?_of_fields {bag : Bag Value} {fields : List (Option String × Json)}
    (h : Value.ofFields? fields = some bag.entries) : bag? (.object fields) = some bag := by
  rw [bag?, h, Option.map_some, Bag.ofList_entries]

/-- One field is read after the other. -/
theorem Draft.readFields_cons (next : Draft) {d : Draft} {name : String} {field : Field}
    {value : Json}
    (hname : Field.ofName? name = some field) (hshallow : value.depth < Json.depthLimit)
    (hread : d.read field value = some next) (rest : List (String × Json)) :
    d.readFields ((name, value) :: rest) = next.readFields rest := by
  have hshallow : shallow value = true := Nat.ble_eq_true_of_le hshallow
  simp only [Draft.readFields, hname, hshallow, if_true, hread]

end Reader

/-- The JSON text of a portable message is read as that message, whatever the present is: with its
id, its action and its timestamp, with the same properties in the same order and the same
payload. -/
theorem parse?_json (now : Timestamp) {m : Message} (h : m.Portable) :
    parse? now m.json = some m := by
  obtain ⟨fields, hfields, hdepth, hread⟩ := Value.exists_fields_of_portable h.properties
  obtain ⟨tree, htree⟩ := Value.exists_tree m.payload h.payload.floatFree h.payload.distinct
  have htime : Timestamp.parse? (String.ofList m.timestamp.zulu) = some m.timestamp :=
    Timestamp.parse?_zulu ⟨Int.le_trans (by decide) h.year.1, h.year.2⟩ h.nanos
  have hspells : Json.Spells m.written (.object
      [(some "message_id", .string (some m.id)), (some "action", .string (some m.action)),
       (some "timestamp", .string (some (String.ofList m.timestamp.zulu))),
       (some "properties", .object fields), (some "payload", tree)]) :=
    Json.spells_braced
      (.cons ⟨rfl, Json.spells_string m.id⟩ (.cons ⟨rfl, Json.spells_string m.action⟩
        (.cons ⟨rfl, Json.spells_quoted m.timestamp.zulu⟩
          (.cons ⟨rfl, Json.spells_braced hfields⟩ (.cons ⟨rfl, htree.spells⟩ .nil)))))
  have htext : ∀ s, (Json.string s).depth < Json.depthLimit := fun s => by
    rw [Json.depth]
    decide
  have hproperties : (Json.object fields).depth < Json.depthLimit := by
    rw [Json.depth, Json.depthLimit]
    omega
  have hpayload : tree.depth < Json.depthLimit := by
    rw [htree.depth, Json.depthLimit]
    exact Nat.lt_of_le_of_lt h.payload.shallow (by decide)
  -- Each step names what is known of the message after one more field.
  have hdraft : Reader.Draft.empty.readFields
      [("message_id", .string (some m.id)), ("action", .string (some m.action)),
       ("timestamp", .string (some (String.ofList m.timestamp.zulu))),
       ("properties", .object fields), ("payload", tree)] =
      some ⟨some m.id, some m.action, some m.timestamp, some m.properties, some m.payload⟩ := by
    rw [Reader.Draft.readFields_cons ⟨some m.id, none, none, none, none⟩ rfl (htext _) rfl,
      Reader.Draft.readFields_cons ⟨some m.id, some m.action, none, none, none⟩ rfl (htext _) rfl,
      Reader.Draft.readFields_cons ⟨some m.id, some m.action, some m.timestamp, none, none⟩ rfl
        (htext _) (by simp [Reader.Draft.read, Json.text?, htime]),
      Reader.Draft.readFields_cons
        ⟨some m.id, some m.action, some m.timestamp, some m.properties, none⟩ rfl hproperties
        (by simp [Reader.Draft.read, Reader.bag?_of_fields hread]),
      Reader.Draft.readFields_cons
        ⟨some m.id, some m.action, some m.timestamp, some m.properties, some m.payload⟩ rfl hpayload
        (by simp [Reader.Draft.read, htree.read])]
    rfl
  rw [parse?, json, Json.parse?_of_spells hspells]
  have hfields : (Json.object
      [(some "message_id", .string (some m.id)), (some "action", .string (some m.action)),
       (some "timestamp", .string (some (String.ofList m.timestamp.zulu))),
       (some "properties", .object fields), (some "payload", tree)]).fields? = some
      [("message_id", .string (some m.id)), ("action", .string (some m.action)),
       ("timestamp", .string (some (String.ofList m.timestamp.zulu))),
       ("properties", .object fields), ("payload", tree)] := rfl
  simp only [Option.bind_some, Reader.ofJson?, hfields, hdraft, Reader.Draft.finish,
    Option.getD_some]

/-- The last nanosecond of a leap day, the least integer, a map within an array within a map, and
characters that must be escaped. -/
theorem parse?_json_nested :
    let m : Message :=
      { id := "m-1\n", action := "op", timestamp := ⟨1709251199, 999999999⟩
        properties := ⟨[("b", .int (-9223372036854775808)), ("a\"\\", .str "\u0001 é")], by decide⟩
        payload := .map [("items", .array [.null, .map [("b", .bool true), ("a", .map [])]])] }
    m.Portable ∧ parse? (Timestamp.ofMillis 0) m.json = some m := by
  intro m
  have hint : (Value.int (-9223372036854775808)).Portable := ⟨trivial, trivial, by decide⟩
  have hstr : (Value.str "\u0001 é").Portable := ⟨trivial, trivial, by decide⟩
  have hm : m.Portable :=
    { year := by decide
      nanos := by decide
      properties := by
        intro entry hentry
        rcases List.mem_cons.1 hentry with rfl | hentry
        · exact hint
        · rw [List.mem_singleton.1 hentry]
          exact hstr
      payload :=
        { floatFree := by simp [m, Value.FloatFree, Value.FloatFreeItems, Value.FloatFreeEntries]
          distinct := by
            simp [m, Value.Distinct, Value.DistinctItems, Value.DistinctEntries, Entries.names]
          shallow := by decide } }
  exact ⟨hm, parse?_json (Timestamp.ofMillis 0) hm⟩

end Message

end Aggregation
