import Aggregation.FanOut
import Aggregation.Proofs.Bag
import Aggregation.Proofs.Position

/-! What siblings carry is what is read from them.

A sibling is stamped with its position and its parent's id under two names that differ in every
scope, so neither overwrites the other, and both are found again under the aggregator that they were
written for (`position_sibling`, `correlationKey?_sibling`), whatever the parent carried there
before. A position is read back from its text, as `Proofs/Position.lean` shows. -/
namespace Aggregation

/-! ### Names -/

/-- The id that scopes a property's name, if one does: an empty id is none. -/
def scope (aggregator : Option String) : Option String :=
  aggregator.filter fun id => !id.isEmpty

theorem toList_inScope (base : String) (aggregator : Option String) :
    (inScope base aggregator).toList =
      base.toList ++ (scope aggregator).elim [] fun id => '.' :: id.toList := by
  cases aggregator with
  | none => exact (List.append_nil _).symm
  | some id =>
    cases hid : id.isEmpty with
    | true => simp [inScope, scope, Option.filter, hid]
    | false => simp [inScope, scope, Option.filter, hid]

/-- The two families of names differ in their first letter, whatever the ids. -/
theorem sequenceProperty_ne_correlationProperty (aggregator other : Option String) :
    sequenceProperty aggregator ≠ correlationProperty other := by
  intro h
  have hfirst := congrArg (fun name => name.toList.head?) h
  simp only [sequenceProperty, correlationProperty, toList_inScope] at hfirst
  exact absurd hfirst (by simp)

namespace Message
variable (m : Message)

/-! ### Properties -/

theorem property?_setProperty (name other : String) (value : Value) :
    (m.setProperty name value).property? other =
      if other = name then some value else m.property? other :=
  Entries.get?_put name other value m.properties.entries

/-- A property that is a string is read as the text of a position. -/
theorem position_of_str {m : Message} {property text : String}
    (h : m.property? property = some (.str text)) :
    m.position property = (Position.read text).map some := by
  simp only [position, h, Position.read]
  cases Position.parse? text <;> rfl

/-! ### Siblings -/

section Sibling
variable (count : Nat) (aggregator : Option String) (index : Nat)

theorem correlationKey?_sibling :
    (m.sibling count aggregator index).correlationKey? aggregator = some m.id := by
  simp only [correlationKey?, text?, sibling, property?_setProperty, if_true]
  rfl

theorem position_sibling (hindex : index ≤ Position.limit) (hcount : count ≤ Position.limit) :
    (m.sibling count aggregator index).position (sequenceProperty aggregator) =
      .ok (some ⟨index, count⟩) := by
  have hstamp : (m.sibling count aggregator index).property? (sequenceProperty aggregator) =
      some (.str (Position.text ⟨index, count⟩)) := by
    simp only [sibling, property?_setProperty, sequenceProperty_ne_correlationProperty, if_true,
      if_false]
  have hread : Position.read (Position.text ⟨index, count⟩) = .ok ⟨index, count⟩ :=
    Position.read_eq_ok.2 (Position.declares_text hindex hcount)
  rw [position_of_str hstamp, hread]
  rfl

end Sibling

/-- Every sibling of a fan-out tells whose it is, and of how many. -/
theorem of_mem_fanOut {count : Nat} {aggregator : Option String} (hcount : count ≤ Position.limit)
    {x : Message} (hx : x ∈ m.fanOut count aggregator) :
    x.correlationKey? aggregator = some m.id ∧
      ∃ index, x.position (sequenceProperty aggregator) = .ok (some ⟨index, count⟩) := by
  obtain ⟨i, hi, rfl⟩ := List.mem_map.1 hx
  have hlt : i < count := List.mem_range.1 hi
  exact ⟨correlationKey?_sibling .., i + 1, position_sibling _ _ _ _ (by omega) hcount⟩

theorem fanOut_length (count : Nat) (aggregator : Option String) :
    (m.fanOut count aggregator).length = count := by
  rw [fanOut, List.length_map, List.length_range]

end Message

end Aggregation
