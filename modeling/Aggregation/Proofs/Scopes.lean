import Aggregation.Proofs.FanOut
import Mathlib.Logic.Relation

/-! Fan-outs inside one another do not see each other's stamps.

A name in a scope tells the scope: what follows its base is the id behind a dot, and an id may
hold dots itself (`inScope_inj`). So a fan-out under one id leaves what is read under any other as
it was (`stamp_of_fannedBeside`), and so does any chain of them (`stamp_of_descends`). What else a
sibling has of its template is `sibling_stampedOf`. `fanOut_scopes` puts the parts together. -/
namespace Aggregation

/-! ### Names tell their scope -/

theorem inScope_inj {base : String} {aggregator other : Option String} :
    inScope base aggregator = inScope base other ↔ scope aggregator = scope other := by
  rw [← String.toList_inj, toList_inScope, toList_inScope, List.append_cancel_left_eq]
  cases scope aggregator with
  | none => cases scope other <;> simp
  | some id => cases scope other <;> simp [String.toList_inj]

theorem scope_scope (aggregator : Option String) : scope (scope aggregator) = scope aggregator := by
  rw [scope, scope, Option.filter_filter]
  simp only [Bool.and_self]

/-- An empty id and none name the same properties. -/
theorem inScope_scope (base : String) (aggregator : Option String) :
    inScope base (scope aggregator) = inScope base aggregator :=
  inScope_inj.2 (scope_scope aggregator)

namespace Message

theorem fanOut_scope (m : Message) (count : Nat) (aggregator : Option String) :
    m.fanOut count (scope aggregator) = m.fanOut count aggregator := by
  simp only [fanOut, sibling, sequenceProperty, correlationProperty, inScope_scope]

/-! ### One fan-out -/

/-- What an aggregator reads on a message: its position and its key. -/
def stamp (m : Message) (aggregator : Option String) :
    Except Fault (Option Position) × Option String :=
  (m.position (sequenceProperty aggregator), m.correlationKey? aggregator)

/-- What the `index`-th of `count` siblings has of its template. -/
structure StampedOf (m : Message) (count : Nat) (aggregator : Option String) (index : Nat)
    (x : Message) : Prop where
  stamp : x.stamp aggregator = (.ok (some ⟨index, count⟩), some m.id)
  action : x.action = m.action
  timestamp : x.timestamp = m.timestamp
  payload : x.payload = m.payload
  /-- The other properties have the template's values. -/
  others : ∀ name, name ≠ sequenceProperty aggregator → name ≠ correlationProperty aggregator →
    x.property? name = m.property? name
  /-- What the template has keeps its place, and what is new comes last, the sequence first. -/
  names : x.properties.names = m.properties.names ++
    [sequenceProperty aggregator, correlationProperty aggregator].filter
      (· ∉ m.properties.names)

section
variable (m : Message) (count : Nat) (aggregator : Option String) (index : Nat)

theorem property?_sibling {name : String} (hsequence : name ≠ sequenceProperty aggregator)
    (hcorrelation : name ≠ correlationProperty aggregator) :
    (m.sibling count aggregator index).property? name = m.property? name := by
  rw [sibling, property?_setProperty, if_neg hcorrelation, property?_setProperty,
    if_neg hsequence]
  rfl

theorem names_sibling :
    (m.sibling count aggregator index).properties.names = m.properties.names ++
      [sequenceProperty aggregator, correlationProperty aggregator].filter
        (· ∉ m.properties.names) := by
  have hne := sequenceProperty_ne_correlationProperty aggregator aggregator
  change Entries.names (Entries.put _ _ (Entries.put _ _ m.properties.entries)) = _
  rw [Entries.names_put, Entries.names_put]
  -- Putting the position does not make the key present, as their names differ.
  by_cases hs : sequenceProperty aggregator ∈ Entries.names m.properties.entries <;>
    by_cases hc : correlationProperty aggregator ∈ Entries.names m.properties.entries <;>
    simp [Bag.names, hs, hc, hne.symm]

theorem sibling_stampedOf (hindex : index ≤ Position.limit) (hcount : count ≤ Position.limit) :
    m.StampedOf count aggregator index (m.sibling count aggregator index) where
  stamp := Prod.ext (position_sibling m count aggregator index hindex hcount)
    (correlationKey?_sibling m count aggregator index)
  action := rfl
  timestamp := rfl
  payload := rfl
  others _ := property?_sibling m count aggregator index
  names := names_sibling m count aggregator index

end

/-! ### Fan-outs below a sibling -/

/-- What is read under an id is what the two properties of that id hold. -/
theorem stamp_congr {m m' : Message} {aggregator : Option String}
    (hsequence : m'.property? (sequenceProperty aggregator) =
      m.property? (sequenceProperty aggregator))
    (hcorrelation : m'.property? (correlationProperty aggregator) =
      m.property? (correlationProperty aggregator)) :
    m'.stamp aggregator = m.stamp aggregator := by
  simp only [stamp, position, correlationKey?, text?, hsequence, hcorrelation]

/-- The second message is made of the first by a fan-out under some other id. -/
def FannedBeside (aggregator : Option String) (x y : Message) : Prop :=
  ∃ count other, scope other ≠ scope aggregator ∧ y ∈ x.fanOut count other

theorem stamp_of_fannedBeside {aggregator : Option String} {x y : Message}
    (h : FannedBeside aggregator x y) : y.stamp aggregator = x.stamp aggregator := by
  obtain ⟨count, other, hother, hy⟩ := h
  obtain ⟨i, -, rfl⟩ := List.mem_map.1 hy
  have hsame : ∀ base, inScope base aggregator ≠ inScope base other := fun base heq =>
    hother (inScope_inj.1 heq).symm
  refine stamp_congr (property?_sibling _ _ _ _ ?_ ?_) (property?_sibling _ _ _ _ ?_ ?_)
  · exact hsame _
  · exact sequenceProperty_ne_correlationProperty aggregator other
  · exact (sequenceProperty_ne_correlationProperty other aggregator).symm
  · exact hsame _

/-- Any depth of fan-outs under other ids. -/
theorem stamp_of_descends {aggregator : Option String} {x y : Message}
    (h : Relation.ReflTransGen (FannedBeside aggregator) x y) :
    y.stamp aggregator = x.stamp aggregator := by
  induction h with
  | refl => rfl
  | tail _ hstep ih => rw [stamp_of_fannedBeside hstep, ih]

/-- The `i`-th of `count` siblings is read as that, under the id that it was made for and its
template's key, and has everything else of its template; fanned out itself, to any depth and under
any ids but that one, it makes messages on which the same is read. Two ids name the same properties
only if they are the same, an empty id being none, and a name of one kind is never a name of the
other. -/
theorem fanOut_scopes (m : Message) {count : Nat} (hcount : count ≤ Position.limit)
    (aggregator : Option String) :
    (m.fanOut count aggregator).length = count ∧
      (∀ i x, (m.fanOut count aggregator)[i]? = some x →
        m.StampedOf count aggregator (i + 1) x ∧
          ∀ y, Relation.ReflTransGen (FannedBeside aggregator) x y →
            y.stamp aggregator = (.ok (some ⟨i + 1, count⟩), some m.id)) ∧
      m.fanOut count (scope aggregator) = m.fanOut count aggregator ∧
      (∀ x : Message, x.stamp (scope aggregator) = x.stamp aggregator) ∧
      ∀ other,
        (sequenceProperty aggregator = sequenceProperty other ↔ scope aggregator = scope other) ∧
        (correlationProperty aggregator = correlationProperty other ↔
          scope aggregator = scope other) ∧
        sequenceProperty aggregator ≠ correlationProperty other := by
  refine ⟨fanOut_length m count aggregator, fun i x hx => ?_, fanOut_scope m count aggregator,
    fun x => ?_, fun other => ⟨inScope_inj, inScope_inj,
      sequenceProperty_ne_correlationProperty aggregator other⟩⟩
  · obtain ⟨hi, rfl⟩ := List.getElem?_eq_some_iff.1 hx
    rw [fanOut_length] at hi
    have hsibling : (m.fanOut count aggregator)[i] = m.sibling count aggregator (i + 1) := by
      simp only [fanOut, List.getElem_map, List.getElem_range]
    rw [hsibling]
    have hstamped := sibling_stampedOf m count aggregator (i + 1) (by omega) hcount
    exact ⟨hstamped, fun y hy => (stamp_of_descends hy).trans hstamped.stamp⟩
  · simp only [stamp, correlationKey?, sequenceProperty, correlationProperty, inScope_scope]

/-- The template has a position of its own under the id, and the second sibling is fanned out twice
more, under an id that continues the first one and under an empty one. -/
theorem fanOut_scopes_nested :
    let template : Message := ⟨"p", "op", Timestamp.ofMillis 0,
      Bag.ofList [("MESSAGE_SEQUENCE.x", .str "7/9"), ("K", .str "v")], .null⟩
    let x := template.sibling 3 (some "x") 2
    let y := x.sibling 2 (some "x.y") 1
    let z := y.sibling 4 (some "") 4
    3 ≤ Position.limit ∧
      x.properties.names = ["MESSAGE_SEQUENCE.x", "K", "AGGREGATE_CORRELATION.x"] ∧
      z.stamp (some "x") = (.ok (some ⟨2, 3⟩), some "p") := by
  intro template x y z
  have hlimit : 3 ≤ Position.limit := by decide
  obtain ⟨-, hsiblings, -⟩ := fanOut_scopes template hlimit (some "x")
  obtain ⟨hstamped, hbelow⟩ := hsiblings 1 x rfl
  have hxy : FannedBeside (some "x") x y :=
    ⟨2, some "x.y", by decide, List.mem_map.2 ⟨0, by decide, rfl⟩⟩
  have hyz : FannedBeside (some "x") y z :=
    ⟨4, some "", by decide, List.mem_map.2 ⟨3, by decide, rfl⟩⟩
  refine ⟨hlimit, ?_, hbelow z (.tail (.single hxy) hyz)⟩
  rw [hstamped.names]
  decide

end Message

end Aggregation
