import Aggregation.Proofs.Bag
import Aggregation.Proofs.Json.Spelling
import Aggregation.Value.Reader

/-! Values come back from their JSON text.

A value without doubles is written as a text that spells a tree of the same depth, and the tree is
read as that value again (`exists_tree`): an integer is one that fits 64 bits and is no `-0`, and
entries under distinct names keep their places. The induction goes over the value, its items and
its entries. -/
namespace Aggregation

/-- The numeral of a 64-bit integer denotes that integer. -/
theorem Json.Numeral.toInt64?_ofInt (n : Int64) : (ofInt n.toInt).toInt64? = some n := by
  have hlow := Int64.le_toInt n
  have hhigh := Int64.toInt_lt n
  have hint : (ofInt n.toInt).toInt? = some n.toInt := by
    simp only [toInt?, ofInt, List.isEmpty_nil, Option.isNone_none, Bool.and_self, if_true,
      Text.continued_decimal, decide_eq_true_eq, Option.some.injEq]
    split <;> omega
  have hzero : ((ofInt n.toInt).negative && n.toInt == 0) = false := by
    simp only [ofInt, Bool.and_eq_false_iff, decide_eq_false_iff_not, beq_eq_false_iff_ne]
    omega
  have hfits : (decide (-9223372036854775808 ≤ n.toInt) && decide (n.toInt ≤ 9223372036854775807)) =
      true := by
    rw [Bool.and_eq_true, decide_eq_true_eq, decide_eq_true_eq]
    omega
  simp only [toInt64?, hint, hzero, hfits, Bool.false_eq_true, if_false, if_true, Int64.ofInt_toInt]

namespace Value

/-! ### Nesting and doubles -/

mutual
/-- How many arrays and maps stand around the innermost value. -/
def depth : Value → Nat
  | .array items => depthItems items + 1
  | .map entries => depthEntries entries + 1
  | _ => 0

def depthItems : List Value → Nat
  | [] => 0
  | item :: rest => Nat.max item.depth (depthItems rest)

def depthEntries : List (String × Value) → Nat
  | [] => 0
  | (_, value) :: rest => Nat.max value.depth (depthEntries rest)
end

mutual
/-- No double stands anywhere in the value. -/
def FloatFree : Value → Prop
  | .float _ => False
  | .array items => FloatFreeItems items
  | .map entries => FloatFreeEntries entries
  | _ => True

def FloatFreeItems : List Value → Prop
  | [] => True
  | item :: rest => item.FloatFree ∧ FloatFreeItems rest

def FloatFreeEntries : List (String × Value) → Prop
  | [] => True
  | (_, value) :: rest => value.FloatFree ∧ FloatFreeEntries rest
end

/-! ### Trees -/

/-- A tree that stands between a value and its text. -/
structure Mirrors (v : Value) (tree : Json) : Prop where
  spells : Json.Spells v.written tree
  depth : tree.depth = v.depth
  read : ofJson? tree = some v

mutual
theorem exists_tree : (v : Value) → v.FloatFree → v.Distinct → ∃ tree, v.Mirrors tree
  | .null, _, _ => ⟨.null, Json.spells_null, rfl, rfl⟩
  | .bool b, _, _ => ⟨.bool b, Json.spells_bool b, rfl, rfl⟩
  | .int n, _, _ => by
    refine ⟨.number (.ofInt n.toInt), Json.spells_int n.toInt, rfl, ?_⟩
    rw [ofJson?, Json.Numeral.toInt64?_ofInt]
  | .float _, hfloat, _ => hfloat.elim
  | .str s, _, _ => ⟨.string (some s), Json.spells_string s, rfl, rfl⟩
  | .array items, hfloat, hdistinct => by
    obtain ⟨trees, hspells, hdepth, hread⟩ := exists_trees items hfloat hdistinct
    refine ⟨.array trees, Json.spells_bracketed hspells, ?_, ?_⟩
    · rw [Json.depth, hdepth, depth]
    · rw [ofJson?, hread]
      rfl
  | .map entries, hfloat, hdistinct => by
    obtain ⟨fields, hspells, hdepth, hread⟩ := exists_fields entries hfloat hdistinct.2
    refine ⟨.object fields, Json.spells_braced hspells, ?_, ?_⟩
    · rw [Json.depth, hdepth, depth]
    · rw [ofJson?, hread, Option.map_some, ofEntries, Entries.ofList_of_nodup hdistinct.1]

theorem exists_trees : (items : List Value) → FloatFreeItems items → DistinctItems items →
    ∃ trees, List.Forall₂ Json.Spells (writtenItems items) trees ∧
      Json.depthItems trees = depthItems items ∧ ofItems? trees = some items
  | [], _, _ => ⟨[], .nil, rfl, rfl⟩
  | item :: rest, hfloat, hdistinct => by
    obtain ⟨tree, hitem⟩ := exists_tree item hfloat.1 hdistinct.1
    obtain ⟨trees, hspells, hdepth, hread⟩ := exists_trees rest hfloat.2 hdistinct.2
    refine ⟨tree :: trees, .cons hitem.spells hspells, ?_, ?_⟩
    · rw [Json.depthItems, hitem.depth, hdepth, depthItems]
    · rw [ofItems?, hitem.read, hread]

theorem exists_fields : (entries : List (String × Value)) → FloatFreeEntries entries →
    DistinctEntries entries →
    ∃ fields, List.Forall₂ Json.SpellsField (writtenEntries entries) fields ∧
      Json.depthFields fields = depthEntries entries ∧ ofFields? fields = some entries
  | [], _, _ => ⟨[], .nil, rfl, rfl⟩
  | (name, value) :: rest, hfloat, hdistinct => by
    obtain ⟨tree, hvalue⟩ := exists_tree value hfloat.1 hdistinct.1
    obtain ⟨fields, hspells, hdepth, hread⟩ := exists_fields rest hfloat.2 hdistinct.2
    refine ⟨(some name, tree) :: fields, .cons ⟨rfl, hvalue.spells⟩ hspells, ?_, ?_⟩
    · rw [Json.depthFields, hvalue.depth, hdepth, depthEntries]
    · simp only [ofFields?, hvalue.read, hread]
end

end Value

end Aggregation
