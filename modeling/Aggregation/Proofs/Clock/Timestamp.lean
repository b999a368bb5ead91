import Aggregation.Clock.Reader
import Aggregation.Proofs.Clock.Calendar
import Aggregation.Proofs.Text.Digits
import Mathlib.Data.Option.Basic

/-! An instant is read back from its text.

The text is made of runs of digits of fixed width between marks. A number padded to a width is read
by a field of that width wherever it stands, as the field takes no more digits than that
(`number_padded`); the fraction ends where the offset begins (`fraction_fractionText`). The date
that is read leads back to the day (`dayOf?_dateOf`), and day and time of day make up the instant
(`instant?_dateOf`). This holds from year 0 to year 9999, where years have four digits, of instants
that are no leap second (`parse?_zulu`). -/
namespace Aggregation

/-! ### Padded numbers -/

namespace Text

theorem length_decimal_le {width n : Nat} (h : n < 10 ^ (width + 1)) :
    (decimal n).length ≤ width + 1 := by
  induction width generalizing n with
  | zero =>
    have hdigit : n < 10 := by simpa using h
    rw [decimal, if_pos hdigit, List.length_singleton]
  | succ width ih =>
    rw [decimal]
    split
    · rw [List.length_singleton]
      omega
    · have hfirst : n / 10 < 10 ^ (width + 1) :=
        Nat.div_lt_of_lt_mul (Nat.lt_of_lt_of_eq h Nat.pow_succ')
      rw [List.length_append, List.length_singleton]
      exact Nat.succ_le_succ (ih hfirst)

theorem continued_zeros (k : Nat) (digits : List Char) :
    continued 0 (List.replicate k '0' ++ digits) = continued 0 digits := by
  induction k with
  | zero => rfl
  | succ k ih => exact ih

/-- A number padded to a width that it does not exceed is a run of so many digits. -/
theorem padded_digits {width n : Nat} (h : n < 10 ^ (width + 1)) :
    (padded (width + 1) (decimal n)).length = width + 1 ∧
      (∀ c ∈ padded (width + 1) (decimal n), isDigit c = true) ∧
      continued 0 (padded (width + 1) (decimal n)) = n := by
  have hlength := length_decimal_le h
  refine ⟨?_, fun c hc => ?_, ?_⟩
  · rw [padded, List.length_append, List.length_replicate]
    omega
  · rcases List.mem_append.1 hc with hc | hc
    · rw [List.eq_of_mem_replicate hc]
      decide
    · exact decimal_digits n c hc
  · rw [padded, continued_zeros, continued_decimal]

theorem padded_ne_nil {width n : Nat} (h : n < 10 ^ (width + 1)) :
    padded (width + 1) (decimal n) ≠ [] := by
  rw [← List.length_pos_iff, (padded_digits h).1]
  exact Nat.succ_pos width

end Text

namespace Timestamp
open Clock

/-- The year that an instant lies in. -/
def year (t : Timestamp) : Int :=
  (dateOf (t.seconds / 86400 + epochDay)).year

namespace Reader
open Text (isDigit isBlank trimStart trimStart_cons isBlank_of_isDigit)

/-! ### Fields -/

/-- A run of digits begins with a digit, so no blanks are skipped before it. -/
theorem trimStart_digits {digits : List Char} (hne : digits ≠ [])
    (h : ∀ c ∈ digits, isDigit c = true) (rest : List Char) :
    trimStart (digits ++ rest) = digits ++ rest := by
  cases digits with
  | nil => exact absurd rfl hne
  | cons c more => exact trimStart_cons (isBlank_of_isDigit (h c (List.mem_cons_self ..))) _

theorem number_padded {width n : Nat} (h : n < 10 ^ (width + 1)) (rest : List Char) :
    number (width + 1) (Text.padded (width + 1) (Text.decimal n) ++ rest) = some (n, rest) := by
  obtain ⟨hlength, hdigits, hvalue⟩ := Text.padded_digits h
  have hne := Text.padded_ne_nil h
  have htake : (Text.padded (width + 1) (Text.decimal n) ++ rest).take (width + 1) =
      Text.padded (width + 1) (Text.decimal n) := List.take_left' hlength
  have hdrop : (Text.padded (width + 1) (Text.decimal n) ++ rest).drop (width + 1) = rest :=
    List.drop_left' hlength
  have hwhole := List.takeWhile_eq_self_iff.2 hdigits
  rw [number, trimStart_digits hne hdigits]
  simp only [htake, hwhole, List.isEmpty_iff, hne, if_false, hlength, hdrop, hvalue]

theorem number_twoDigits {n : Nat} (h : n < 100) (rest : List Char) :
    number 2 (twoDigits n ++ rest) = some (n, rest) :=
  number_padded h rest

theorem year_yearText {y : Int} (hlow : 0 ≤ y) (hhigh : y ≤ 9999) (rest : List Char) :
    Reader.year (yearText y ++ rest) = some (y, rest) := by
  have hsmall : y.natAbs < 10 ^ (3 + 1) := by omega
  obtain ⟨hlength, hdigits, -⟩ := Text.padded_digits hsmall
  have htext : yearText y = Text.padded 4 (Text.decimal y.natAbs) := by
    rw [yearText, if_pos]
    rw [Bool.and_eq_true, decide_eq_true_eq, decide_eq_true_eq]
    exact ⟨hlow, hhigh⟩
  cases hcs : Text.padded 4 (Text.decimal y.natAbs) with
  | nil =>
    rw [hcs] at hlength
    cases hlength
  | cons c more =>
    rw [hcs] at hdigits
    have hc : isDigit c = true := hdigits c (List.mem_cons_self ..)
    have hstart : trimStart (c :: more ++ rest) = c :: (more ++ rest) :=
      trimStart_cons (isBlank_of_isDigit hc) _
    have hnumber := number_padded hsmall rest
    rw [hcs] at hnumber
    rw [htext, hcs, Reader.year, hstart]
    split
    · next heq =>
      rw [(List.cons.inj heq).1] at hc
      exact absurd hc (by decide)
    · next heq =>
      rw [(List.cons.inj heq).1] at hc
      exact absurd hc (by decide)
    · rw [← List.cons_append, hnumber, Option.map_some]
      simp only [Int.natAbs_of_nonneg hlow]

theorem separator_cons {mark : Char} (h : isBlank mark = false) (rest : List Char) :
    separator mark (mark :: rest) = some rest := by
  rw [separator, trimStart_cons h]
  exact if_pos rfl

/-- A run of at most nine digits after a point. -/
theorem fraction_digits {digits rest : List Char} (hne : digits ≠ []) (hle : digits.length ≤ 9)
    (h : ∀ c ∈ digits, isDigit c = true) (hrest : ∀ c ∈ rest.head?, isDigit c = false) :
    Reader.fraction ('.' :: (digits ++ rest)) =
      some (Text.continued 0 digits * 10 ^ (9 - digits.length), rest) := by
  obtain ⟨hdigits, hafter⟩ := Prod.mk.inj (Text.spanDigits_append h hrest)
  simp only [Reader.fraction, hdigits, hafter, List.isEmpty_iff, hne, if_false,
    List.take_of_length_le hle, Nat.pow_eq]

/-- The fewest digits that lose nothing are read as the whole fraction. -/
theorem fraction_fractionText {nanos : Nat} (h : nanos < 1000000000) (rest : List Char) :
    Reader.fraction (fractionText nanos ++ 'Z' :: rest) = some (nanos, 'Z' :: rest) := by
  have hend : ∀ c ∈ ('Z' :: rest).head?, isDigit c = false := fun c hc => by
    rw [← Option.some.inj hc]
    decide
  -- Digits that are left out are zeros, which the reader fills in.
  have hrun : ∀ width n : Nat, n < 10 ^ (width + 1) → width + 1 ≤ 9 →
      n * 10 ^ (9 - (width + 1)) = nanos →
      Reader.fraction ('.' :: Text.padded (width + 1) (Text.decimal n) ++ 'Z' :: rest) =
        some (nanos, 'Z' :: rest) := by
    intro width n hn hwidth hvalue
    obtain ⟨hlength, hdigits, hcontinued⟩ := Text.padded_digits hn
    have hle : (Text.padded (width + 1) (Text.decimal n)).length ≤ 9 := hlength.trans_le hwidth
    rw [List.cons_append, fraction_digits (Text.padded_ne_nil hn) hle hdigits hend, hlength,
      hcontinued, hvalue]
  unfold fractionText
  split
  · next hzero => rw [hzero]; rfl
  · split
    · next hmillis => exact hrun 2 _ (by omega) (by omega) (by omega)
    · split
      · next hmicros => exact hrun 5 _ (by omega) (by omega) (by omega)
      · exact hrun 8 _ h (by omega) (by omega)

/-! ### Instants -/

/-- The day and the time of day of an instant make up the instant. -/
theorem instant?_dateOf {t : Timestamp} (hyear : 0 ≤ t.year ∧ t.year ≤ 9999) :
    instant? (dateOf (t.seconds / 86400 + epochDay)) ((t.seconds % 86400).toNat / 3600)
      ((t.seconds % 86400).toNat / 60 % 60) ((t.seconds % 86400).toNat % 60) t.nanos 0 = some t := by
  obtain ⟨day, hday⟩ : ∃ day, day = t.seconds / 86400 + epochDay := ⟨_, rfl⟩
  obtain ⟨clock, hclock⟩ : ∃ clock, clock = (t.seconds % 86400).toNat := ⟨_, rfl⟩
  rw [Timestamp.year, ← hday, (dateOf_fields day).1] at hyear
  rw [← hday, ← hclock]
  have hseconds : (day - epochDay) * 86400 + clock = t.seconds := by omega
  have hparts : clock / 3600 * 3600 + clock / 60 % 60 * 60 + clock % 60 = clock := by omega
  have hleap : (clock % 60 == 60) = false := by
    rw [beq_eq_false_iff_ne]
    omega
  obtain ⟨hfirst, hlast⟩ : years.1 ≤ (dateOf day).year ∧ (dateOf day).year < years.2 := by
    rw [(dateOf_fields day).1, years]
    omega
  obtain ⟨hhour, hminute, hsecond⟩ :
      clock / 3600 < 24 ∧ clock / 60 % 60 < 60 ∧ clock % 60 ≤ 60 := by omega
  obtain ⟨hafter, hbefore⟩ : (daysBefore years.1 - epochDay) * 86400 ≤ t.seconds ∧
      t.seconds < (daysBefore years.2 - epochDay) * 86400 := by
    have hdays := day_of_yearOf hyear
    simp only [daysBefore, years, epochDay] at hday ⊢
    omega
  simp [instant?, dayOf?_dateOf, hfirst, hlast, hhour, hminute, hsecond, hleap, hparts, hseconds,
    hafter, hbefore]

theorem bind_of_some {α β : Type} {x : Option α} {a : α} (h : x = some a) (next : α → Option β) :
    (x >>= next) = next a := by
  rw [h]
  rfl

/-- The fields are read one after the other, and make up an instant if they name one. -/
theorem read_fields {date : Date} {hour minute second nanos : Nat}
    (hyear : 0 ≤ date.year ∧ date.year ≤ 9999) (hmonth : date.month < 100) (hday : date.day < 100)
    (hhour : hour < 100) (hminute : minute < 100) (hsecond : second < 100)
    (hnanos : nanos < 1000000000) :
    read (yearText date.year ++ '-' :: (twoDigits date.month ++ '-' :: (twoDigits date.day ++
      'T' :: (twoDigits hour ++ ':' :: (twoDigits minute ++ ':' :: (twoDigits second ++
      (fractionText nanos ++ ['Z']))))))) = instant? date hour minute second nanos 0 := by
  have hdash : isBlank '-' = false := by decide
  have hcolon : isBlank ':' = false := by decide
  rw [read]
  refine (bind_of_some (year_yearText hyear.1 hyear.2 _) _).trans ?_
  refine (bind_of_some (separator_cons hdash _) _).trans ?_
  refine (bind_of_some (number_twoDigits hmonth _) _).trans ?_
  refine (bind_of_some (separator_cons hdash _) _).trans ?_
  refine (bind_of_some (number_twoDigits hday _) _).trans ?_
  refine (bind_of_some rfl _).trans ?_
  refine (bind_of_some (number_twoDigits hhour _) _).trans ?_
  refine (bind_of_some (separator_cons hcolon _) _).trans ?_
  refine (bind_of_some (number_twoDigits hminute _) _).trans ?_
  refine (bind_of_some (separator_cons hcolon _) _).trans ?_
  refine (bind_of_some (number_twoDigits hsecond _) _).trans ?_
  exact bind_of_some (fraction_fractionText hnanos _) _

end Reader

/-- An instant of the years 0 to 9999 that is no leap second is read back from its text. -/
theorem parse?_zulu {t : Timestamp} (hyear : 0 ≤ t.year ∧ t.year ≤ 9999)
    (hnanos : t.nanos < 1000000000) : parse? (String.ofList t.zulu) = some t := by
  obtain ⟨-, hmonth, hday⟩ := dateOf_fields (t.seconds / 86400 + epochDay)
  have hzulu : t.zulu = yearText (dateOf (t.seconds / 86400 + epochDay)).year ++
      '-' :: (twoDigits (dateOf (t.seconds / 86400 + epochDay)).month ++
      '-' :: (twoDigits (dateOf (t.seconds / 86400 + epochDay)).day ++
      'T' :: (twoDigits ((t.seconds % 86400).toNat / 3600) ++
      ':' :: (twoDigits ((t.seconds % 86400).toNat / 60 % 60) ++
      ':' :: (twoDigits ((t.seconds % 86400).toNat % 60) ++
      (fractionText t.nanos ++ ['Z'])))))) := by
    have hsecond : ¬ 1000000000 ≤ t.nanos := by omega
    simp [zulu, civilText, hsecond, Nat.mod_eq_of_lt hnanos]
  rw [parse?, String.toList_ofList, hzulu, Reader.read_fields hyear (by omega) (by omega)
    (by omega) (by omega) (by omega) hnanos]
  exact Reader.instant?_dateOf hyear

end Timestamp

end Aggregation
