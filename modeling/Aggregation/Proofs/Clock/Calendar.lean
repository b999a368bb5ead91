import Aggregation.Clock.Calendar
import Mathlib.Algebra.GroupWithZero.Nat
import Mathlib.Data.List.TakeDrop

/-! Every day has a date, and the date leads back to the day.

The year that is worked out for a day is the one that the day lies in (`yearOf_bounds`): the mean
length of a year is right up to less than one year. The days that are left over then fall into one
of the months of that year (`walkMonths_eq`), so the date exists and is that day's
(`dayOf?_dateOf`). -/
namespace Aggregation.Clock

/-! ### Years -/

theorem daysBefore_succ (year : Int) :
    daysBefore (year + 1) = daysBefore year + (if isLeap year then 366 else 365) := by
  simp only [daysBefore, isLeap, Bool.and_eq_true, Bool.or_eq_true, beq_iff_eq, bne_iff_ne]
  split <;> omega

theorem yearOf_bounds (day : Int) :
    daysBefore (yearOf day) ≤ day ∧ day < daysBefore (yearOf day + 1) := by
  unfold yearOf
  extract_lets guess
  -- 400 years have 146097 days.
  have hguess : 146097 * guess ≤ 400 * day ∧ 400 * day < 146097 * (guess + 1) := by omega
  have hearly : daysBefore (guess - 1) ≤ day := by
    simp only [daysBefore]
    omega
  have hlate : day < daysBefore (guess + 1 + 1) := by
    simp only [daysBefore]
    omega
  split
  · next h => exact ⟨hearly, by rwa [Int.sub_add_cancel]⟩
  · next h =>
    split
    · next h' => exact ⟨h', hlate⟩
    · next h' => exact ⟨Int.not_lt.1 h, Int.not_le.1 h'⟩

theorem day_of_yearOf {day : Int} (h : 0 ≤ yearOf day ∧ yearOf day ≤ 9999) :
    0 ≤ day ∧ day < 4000000 := by
  obtain ⟨hlow, hhigh⟩ := yearOf_bounds day
  simp only [daysBefore] at hlow hhigh
  omega

/-! ### Months -/

theorem sum_monthLengths (leap : Bool) : (monthLengths leap).sum = if leap then 366 else 365 := by
  cases leap <;> rfl

/-- A count of days that fall within some months ends in one of them. -/
theorem walkMonths_eq {lengths : List Nat} {days : Nat} (month : Nat) (h : days < lengths.sum) :
    ∃ k rest, ∃ hk : k < lengths.length, walkMonths month days lengths = (month + k, rest) ∧
      days = (lengths.take k).sum + rest ∧ rest < lengths[k] := by
  induction lengths generalizing month days with
  | nil => exact absurd h (Nat.not_lt_zero days)
  | cons length lengths ih =>
    rw [walkMonths]
    split
    · next hlt => exact ⟨0, days, Nat.succ_pos _, rfl, (Nat.zero_add days).symm, hlt⟩
    · next hle =>
      rw [List.sum_cons] at h
      obtain ⟨k, rest, hk, hwalk, hdays, hrest⟩ :=
        ih (month + 1) (show days - length < lengths.sum by omega)
      refine ⟨k + 1, rest, Nat.succ_lt_succ hk, ?_, ?_, hrest⟩
      · rw [hwalk, Nat.add_assoc, Nat.add_comm 1 k]
      · rw [List.take_succ_cons, List.sum_cons]
        omega

theorem monthLengths_getElem_le (leap : Bool) {k : Nat} (hk : k < (monthLengths leap).length) :
    (monthLengths leap)[k] ≤ 31 := by
  have hall : ∀ leap, ∀ length ∈ monthLengths leap, length ≤ 31 := by decide
  exact hall leap _ (List.getElem_mem hk)

/-! ### Dates -/

/-- The date of a day is its month's, and the days before are those of the months before. -/
theorem dateOf_eq (day : Int) :
    ∃ k rest, ∃ hk : k < (monthLengths (isLeap (yearOf day))).length,
      dateOf day = ⟨yearOf day, k + 1, rest + 1⟩ ∧
      day = daysBefore (yearOf day) +
        (((monthLengths (isLeap (yearOf day))).take k).sum + rest : Nat) ∧
      rest < (monthLengths (isLeap (yearOf day)))[k] := by
  obtain ⟨hlow, hhigh⟩ := yearOf_bounds day
  have hdays : (day - daysBefore (yearOf day)).toNat < (monthLengths (isLeap (yearOf day))).sum := by
    rw [daysBefore_succ] at hhigh
    rw [sum_monthLengths]
    split at hhigh
    · next h => rw [if_pos h]; omega
    · next h => rw [if_neg h]; omega
  obtain ⟨k, rest, hk, hwalk, hcount, hrest⟩ := walkMonths_eq 1 hdays
  refine ⟨k, rest, hk, ?_, by omega, hrest⟩
  rw [dateOf, hwalk, Nat.add_comm 1 k]

theorem dateOf_fields (day : Int) :
    (dateOf day).year = yearOf day ∧ (dateOf day).month ≤ 12 ∧ (dateOf day).day ≤ 31 := by
  obtain ⟨k, rest, hk, hdate, -, hrest⟩ := dateOf_eq day
  have hlength : ∀ leap, (monthLengths leap).length = 12 := by decide
  have hmonth : k + 1 ≤ 12 := hlength _ ▸ hk
  have hday := monthLengths_getElem_le _ hk
  rw [hdate]
  exact ⟨rfl, hmonth, by simp only; omega⟩

/-- The date of a day exists and is that day's. -/
theorem dayOf?_dateOf (day : Int) : dayOf? (dateOf day) = some day := by
  obtain ⟨k, rest, hk, hdate, hday, hrest⟩ := dateOf_eq day
  have hvalid : (decide (1 ≤ rest + 1) &&
      decide (rest + 1 ≤ (monthLengths (isLeap (yearOf day)))[k])) = true := by
    rw [Bool.and_eq_true, decide_eq_true_eq, decide_eq_true_eq]
    omega
  rw [hdate]
  simp only [dayOf?, List.drop_eq_getElem_cons hk, hvalid, if_true, ← List.sum_eq_foldl_nat,
    Option.some.injEq]
  omega

end Aggregation.Clock
