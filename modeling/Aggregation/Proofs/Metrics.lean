import Aggregation.Metrics
import Aggregation.Proofs.Bag
import Mathlib.Algebra.GroupWithZero.Nat
import Mathlib.Data.List.Induction

/-! What the counters say.

A labelled counter is a number for each label, and adding to one label leaves the others alone
(`get?_bump`). A histogram has observed a list of sizes (`Histogram.ofSizes`): it says how many
there were, what they add up to, and for each bound how many do not exceed it, as long as nothing
is too large to be counted exactly. -/
namespace Aggregation

theorem Trigger.name_injective {a b : Trigger} (h : a.name = b.name) : a = b := by
  cases a <;> cases b <;> simp_all [Trigger.name]

/-! ### Labelled counters -/

namespace Metrics

/-- How often a fault of a kind was counted. -/
def faultCount (m : Metrics) (kind : String) : Nat :=
  (m.faults.get? kind).getD 0

theorem get?_bump (series : Bag Nat) (label other : String) (n : Nat) :
    ((bump series label n).get? other).getD 0 =
      (series.get? other).getD 0 + if other = label then n else 0 := by
  have hput : (bump series label n).get? other = _ := Entries.get?_put label other _ series.entries
  rw [hput]
  by_cases h : other = label
  · subst h
    rw [if_pos rfl, if_pos rfl]
    rfl
  · rw [if_neg h, if_neg h]
    rfl

theorem faultCount_recordFault (m : Metrics) (kind other : String) :
    (m.recordFault kind).faultCount other = m.faultCount other + if other = kind then 1 else 0 :=
  get?_bump m.faults kind other 1

theorem completedCount_recordCompleted (m : Metrics) (trigger other : Trigger) (size : Nat) :
    ((m.recordCompleted trigger size).completedCount other).1 =
      (m.completedCount other).1 + if trigger = other then 1 else 0 := by
  refine (get?_bump m.completed trigger.name other.name 1).trans ?_
  have hname : other.name = trigger.name ↔ trigger = other :=
    ⟨fun h => (Trigger.name_injective h).symm, fun h => h ▸ rfl⟩
  simp only [hname]
  rfl

end Metrics

/-! ### Sizes -/

namespace Histogram
variable {bounds sizes : List Nat}

theorem rounded_of_lt {n : Nat} (h : n < 2 ^ 53) : rounded n = n := by
  have hlt : n < 9007199254740992 := h
  simp only [rounded, hlt, if_true]

/-- What a histogram has come to that observed some sizes. -/
def ofSizes (bounds sizes : List Nat) : Histogram :=
  sizes.foldl observe (empty bounds)

theorem ofSizes_concat (bounds sizes : List Nat) (n : Nat) :
    ofSizes bounds (sizes ++ [n]) = (ofSizes bounds sizes).observe n :=
  List.foldl_append ..

theorem ofSizes_count (bounds sizes : List Nat) : (ofSizes bounds sizes).count = sizes.length := by
  induction sizes using List.reverseRecOn with
  | nil => rfl
  | append_singleton sizes n ih =>
    rw [ofSizes_concat, List.length_append, ← ih]
    rfl

theorem ofSizes_sum (h : sizes.sum < 2 ^ 53) : (ofSizes bounds sizes).sum = sizes.sum := by
  induction sizes using List.reverseRecOn with
  | nil => rfl
  | append_singleton sizes n ih =>
    rw [List.sum_append, List.sum_singleton] at h ⊢
    have hsize : rounded n = n := rounded_of_lt (by omega)
    rw [ofSizes_concat]
    show rounded ((ofSizes bounds sizes).sum + rounded n) = _
    rw [hsize, ih (by omega), rounded_of_lt h]

theorem ofSizes_buckets (h : ∀ n ∈ sizes, n < 2 ^ 53) :
    (ofSizes bounds sizes).buckets =
      bounds.map fun bound => (bound, sizes.countP fun n => decide (n ≤ bound)) := by
  induction sizes using List.reverseRecOn with
  | nil => rfl
  | append_singleton sizes n ih =>
    have hsize : rounded n = n := rounded_of_lt (h n (by simp))
    rw [ofSizes_concat]
    show (ofSizes bounds sizes).buckets.map _ = _
    rw [ih fun x hx => h x (List.mem_append_left _ hx), List.map_map]
    refine List.map_congr_left fun bound _ => ?_
    simp only [Function.comp_apply, hsize, List.countP_append, List.countP_singleton,
      decide_eq_true_eq]
    split <;> rfl

end Histogram

end Aggregation
