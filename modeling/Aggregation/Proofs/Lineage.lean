import Aggregation.Proofs.FanOut
import Mathlib.Data.List.Induction
import Mathlib.Data.List.Nodup

/-! The ids below a message that is fanned out again and again.

A sibling's id is its parent's, a mark and a number that is written without the mark, so it can be
taken apart from its end: it tells the parent's id and the index (`siblingId_inj`). Step by step it
therefore tells the whole way down from the root (`descendantId_injective`), and as no two messages
of a tree are reached by the same way, no two have the same id (`lineage_ids_distinct`). That the
root's id may itself look like a descendant's does no harm, as it is the same for all of them. -/
namespace Aggregation

/-- What stands before and behind the last mark can be told from the whole. -/
theorem append_mark_inj {α : Type} {mark : α} {before before' after after' : List α}
    (ha : mark ∉ after) (ha' : mark ∉ after')
    (h : before ++ mark :: after = before' ++ mark :: after') :
    before = before' ∧ after = after' := by
  rcases List.append_eq_append_iff.1 h with ⟨between, hbefore, hafter⟩ | ⟨between, hbefore, hafter⟩
  · cases between with
    | nil => exact ⟨by simpa using hbefore.symm, (List.cons.inj hafter).2⟩
    | cons c rest =>
      -- The second mark would stand behind the first one.
      have hmem : mark ∈ after := by
        rw [(List.cons.inj hafter).2]
        exact List.mem_append_right _ (List.mem_cons_self ..)
      exact absurd hmem ha
  · cases between with
    | nil => exact ⟨by simpa using hbefore, (List.cons.inj hafter).2.symm⟩
    | cons c rest =>
      have hmem : mark ∈ after' := by
        rw [(List.cons.inj hafter).2]
        exact List.mem_append_right _ (List.mem_cons_self ..)
      exact absurd hmem ha'

namespace Message

/-! ### One step down -/

theorem toList_siblingId (parent : String) (index : Nat) :
    (siblingId parent index).toList = parent.toList ++ '-' :: Text.decimal index := by
  rw [siblingId, String.toList_append, String.toList_append, Text.toList_natText,
    List.append_assoc]
  rfl

theorem siblingId_inj {parent parent' : String} {index index' : Nat}
    (h : siblingId parent index = siblingId parent' index') :
    parent = parent' ∧ index = index' := by
  have hmark : ∀ n, '-' ∉ Text.decimal n := fun n hm =>
    Text.ne_of_isDigit (Text.decimal_digits n _ hm) (by decide) rfl
  have hchars := congrArg String.toList h
  rw [toList_siblingId, toList_siblingId] at hchars
  obtain ⟨hparent, hindex⟩ := append_mark_inj (hmark index) (hmark index') hchars
  refine ⟨String.toList_inj.1 hparent, ?_⟩
  rw [← Text.continued_decimal index, hindex, Text.continued_decimal]

theorem length_lt_siblingId (parent : String) (index : Nat) :
    parent.toList.length < (siblingId parent index).toList.length := by
  rw [toList_siblingId, List.length_append, List.length_cons]
  omega

/-- The ids of a fan-out tell its siblings apart. -/
theorem fanOut_ids (m : Message) (count : Nat) (aggregator : Option String) :
    (m.fanOut count aggregator).map Message.id =
      (List.range count).map fun i => siblingId m.id (i + 1) := by
  rw [fanOut, List.map_map]
  rfl

/-! ### A way down -/

/-- The id of the message that a way leads to, each step naming a sibling's index. -/
def descendantId (root : String) (way : List Nat) : String :=
  way.foldl siblingId root

theorem length_le_descendantId (root : String) (way : List Nat) :
    root.toList.length ≤ (descendantId root way).toList.length := by
  induction way generalizing root with
  | nil => exact Nat.le_refl _
  | cons index way ih => exact (length_lt_siblingId root index).le.trans (ih (siblingId root index))

theorem descendantId_concat (root : String) (way : List Nat) (index : Nat) :
    descendantId root (way ++ [index]) = siblingId (descendantId root way) index :=
  List.foldl_append

theorem root_ne_descendantId (root : String) (way : List Nat) (index : Nat) :
    root ≠ descendantId root (way ++ [index]) := by
  intro h
  have hlonger := length_lt_siblingId (descendantId root way) index
  rw [← descendantId_concat, ← h] at hlonger
  exact Nat.lt_irrefl _ (hlonger.trans_le (length_le_descendantId root way))

/-- An id tells the way that leads to it. The induction takes the last step off both ways. -/
theorem descendantId_injective (root : String) : Function.Injective (descendantId root) := by
  intro way
  induction way using List.reverseRecOn with
  | nil =>
    intro way' h
    rcases List.eq_nil_or_concat' way' with rfl | ⟨way', index', rfl⟩
    · rfl
    · exact absurd h (root_ne_descendantId root way' index')
  | append_singleton way index ih =>
    intro way' h
    rcases List.eq_nil_or_concat' way' with rfl | ⟨way', index', rfl⟩
    · exact absurd h.symm (root_ne_descendantId root way index)
    · rw [descendantId_concat, descendantId_concat] at h
      obtain ⟨hway, rfl⟩ := siblingId_inj h
      rw [ih hway]

/-! ### Trees -/

/-- What is done with a message: nothing, or it is fanned out under an aggregator's id and something
is done with each of its siblings. -/
inductive Spread where
  | kept
  | fanned (aggregator : Option String) (siblings : List Spread)

mutual
/-- A message and all messages below it. -/
def lineage (m : Message) : Spread → List Message
  | .kept => [m]
  | .fanned aggregator siblings =>
    m :: lineages (m.fanOut siblings.length aggregator) siblings

/-- The messages of several trees. -/
def lineages : List Message → List Spread → List Message
  | m :: ms, spread :: spreads => m.lineage spread ++ lineages ms spreads
  | _, _ => []
end

mutual
/-- The ways from the root of a tree to its messages. -/
def Spread.ways : Spread → List (List Nat)
  | .kept => [[]]
  | .fanned _ siblings => [] :: waysFrom 1 siblings

/-- The ways that start with an index from `index` on. -/
def Spread.waysFrom (index : Nat) : List Spread → List (List Nat)
  | [] => []
  | spread :: spreads => spread.ways.map (index :: ·) ++ waysFrom (index + 1) spreads
end

mutual
/-- Each message of a tree is where its way leads to. -/
theorem lineage_ids (m : Message) (spread : Spread) :
    (m.lineage spread).map Message.id = spread.ways.map (descendantId m.id) := by
  cases spread with
  | kept => rfl
  | fanned aggregator siblings =>
    have hfan : m.fanOut siblings.length aggregator =
        (List.range' 1 siblings.length).map (m.sibling siblings.length aggregator) := by
      rw [List.range'_eq_map_range, List.map_map, fanOut]
      exact List.map_congr_left fun i _ => by rw [Function.comp_apply, Nat.add_comm]
    rw [lineage, Spread.ways, List.map_cons, List.map_cons, hfan,
      lineages_ids m siblings.length aggregator 1 siblings]
    rfl

theorem lineages_ids (m : Message) (count : Nat) (aggregator : Option String) (index : Nat)
    (spreads : List Spread) :
    (lineages ((List.range' index spreads.length).map (m.sibling count aggregator)) spreads).map
        Message.id = (Spread.waysFrom index spreads).map (descendantId m.id) := by
  cases spreads with
  | nil => rfl
  | cons spread spreads =>
    have hid : (m.sibling count aggregator index).id = siblingId m.id index := rfl
    have hhead := lineage_ids (m.sibling count aggregator index) spread
    have htail := lineages_ids m count aggregator (index + 1) spreads
    rw [List.length_cons, List.range'_succ, List.map_cons, lineages, Spread.waysFrom,
      List.map_append, List.map_append, hhead, htail, List.map_map, hid]
    rfl
end

theorem Spread.head_of_mem_waysFrom {index : Nat} {spreads : List Spread} {way : List Nat}
    (h : way ∈ waysFrom index spreads) : ∃ first rest, way = first :: rest ∧ index ≤ first := by
  induction spreads generalizing index with
  | nil => cases h
  | cons spread spreads ih =>
    rcases List.mem_append.1 h with h | h
    · obtain ⟨rest, -, rfl⟩ := List.mem_map.1 h
      exact ⟨index, rest, rfl, Nat.le_refl _⟩
    · obtain ⟨first, rest, rfl, hle⟩ := ih h
      exact ⟨first, rest, rfl, by omega⟩

mutual
/-- No two messages of a tree are reached by the same way. -/
theorem Spread.ways_nodup (spread : Spread) : spread.ways.Nodup := by
  cases spread with
  | kept => exact List.nodup_singleton _
  | fanned aggregator siblings =>
    refine List.nodup_cons.2 ⟨fun h => ?_, waysFrom_nodup 1 siblings⟩
    obtain ⟨first, rest, hnil, -⟩ := head_of_mem_waysFrom h
    cases hnil

theorem Spread.waysFrom_nodup (index : Nat) (spreads : List Spread) :
    (waysFrom index spreads).Nodup := by
  cases spreads with
  | nil => exact List.nodup_nil
  | cons spread spreads =>
    refine List.nodup_append.2 ⟨?_, waysFrom_nodup (index + 1) spreads, ?_⟩
    · exact (ways_nodup spread).map fun _ _ h => (List.cons.inj h).2
    · rintro way hway way' hway' rfl
      obtain ⟨rest, -, rfl⟩ := List.mem_map.1 hway
      obtain ⟨first, rest', heq, hle⟩ := head_of_mem_waysFrom hway'
      have hfirst := (List.cons.inj heq).1
      omega
end

/-! ### Levels -/

/-- A level below messages of distinct ids has distinct ids, as an id tells the parent's. -/
theorem flatMap_fanOut_nodup {ms : List Message} (h : (ms.map Message.id).Nodup) (count : Nat)
    (aggregator : Option String) :
    ((ms.flatMap fun m => m.fanOut count aggregator).map Message.id).Nodup := by
  have hids : (ms.flatMap fun m => m.fanOut count aggregator).map Message.id =
      (ms.map Message.id).flatMap fun id => (List.range count).map fun i => siblingId id (i + 1) := by
    rw [List.map_flatMap, List.flatMap_map]
    exact congrArg (List.flatMap · ms) (funext fun m => fanOut_ids m count aggregator)
  rw [hids, List.nodup_flatMap]
  refine ⟨fun id _ => List.nodup_range.map fun i j hij => ?_, h.imp fun {id id'} hne => ?_⟩
  · exact Nat.succ.inj (siblingId_inj hij).2
  · intro x hx hx'
    obtain ⟨i, -, rfl⟩ := List.mem_map.1 hx
    obtain ⟨j, -, heq⟩ := List.mem_map.1 hx'
    exact hne (siblingId_inj heq).1.symm

theorem fanOutDeep_nodup {ms : List Message} (h : (ms.map Message.id).Nodup) (count : Nat)
    (aggregator : Option String) (depth : Nat) :
    ((fanOutDeep count aggregator depth ms).map Message.id).Nodup := by
  induction depth generalizing ms with
  | zero => exact h
  | succ depth ih => exact ih (flatMap_fanOut_nodup h count aggregator)

theorem fanOutDeep_length (count : Nat) (aggregator : Option String) (depth : Nat)
    (ms : List Message) :
    (fanOutDeep count aggregator depth ms).length = count ^ depth * ms.length := by
  induction depth generalizing ms with
  | zero => rw [fanOutDeep, Nat.pow_zero, Nat.one_mul]
  | succ depth ih =>
    have hlevel : (ms.flatMap fun m => m.fanOut count aggregator).length = count * ms.length := by
      rw [List.length_flatMap, List.map_congr_left fun m _ => fanOut_length m count aggregator,
        List.map_const', List.sum_replicate_nat, Nat.mul_comm]
    rw [fanOutDeep, ih, hlevel, ← Nat.mul_assoc, ← Nat.pow_succ]

/-- The messages of a tree of fan-outs below any message have pairwise distinct ids, the message
itself included, whatever the counts and the aggregators. In particular `depth` fan-outs of `count`
siblings each, one below the other, give `count ^ depth` messages with distinct ids. -/
theorem lineage_ids_distinct (root : Message) :
    (∀ spread, ((root.lineage spread).map Message.id).Nodup) ∧
      ∀ count aggregator depth,
        (fanOutDeep count aggregator depth [root]).length = count ^ depth ∧
          ((fanOutDeep count aggregator depth [root]).map Message.id).Nodup := by
  refine ⟨fun spread => ?_, fun count aggregator depth => ⟨?_, ?_⟩⟩
  · rw [lineage_ids]
    exact (Spread.ways_nodup spread).map (descendantId_injective root.id)
  · rw [fanOutDeep_length, List.length_singleton, Nat.mul_one]
  · have hroot : ([root].map Message.id).Nodup := List.nodup_singleton root.id
    exact fanOutDeep_nodup hroot count aggregator depth

/-- The root's id reads like a descendant's, and its siblings look alike up to the last number. -/
example (timestamp : Timestamp) :
    ((ofAction "m-1" "op" timestamp).lineage
        (.fanned none [.fanned (some "a") [.kept, .kept], .kept])).map Message.id =
      ["m-1", "m-1-1", "m-1-1-1", "m-1-1-2", "m-1-2"] := by
  cbv

end Message

end Aggregation
