import Aggregation.Proofs.Text.Blank
import Aggregation.Text.Digits

/-! What is written as digits is read back.

The decimal text of a number is a nonempty run of digits (`decimal_digits`) whose value is that
number (`continued_decimal`). Such runs are all that is read as a number (`natural?_eq_some`,
`unsigned?_eq_some`), so reading the text gives the number (`unsigned?_decimal`); and as no digit is
blank, trimming leaves it alone (`trim_decimal`). -/
namespace Aggregation.Text

/-! ### Single digits -/

theorem toNat_digit {n : Nat} (h : n < 10) : (digit n).toNat = 48 + n := by
  have hall : ∀ n < 10, (digit n).toNat = 48 + n := by decide
  exact hall n h

theorem isDigit_digit {n : Nat} (h : n < 10) : isDigit (digit n) = true := by
  simp only [isDigit, toNat_digit h, Bool.and_eq_true, Nat.ble_eq]
  omega

theorem digitValue_digit {n : Nat} (h : n < 10) : digitValue (digit n) = n := by
  rw [digitValue, toNat_digit h, Nat.add_sub_cancel_left]

theorem toNat_of_isDigit {c : Char} (h : isDigit c = true) : 48 ≤ c.toNat ∧ c.toNat ≤ 57 := by
  simpa [isDigit] using h

theorem isBlank_of_isDigit {c : Char} (h : isDigit c = true) : isBlank c = false := by
  obtain ⟨hlo, hhi⟩ := toNat_of_isDigit h
  have hranges : ∀ n < 58, 48 ≤ n → inRanges blankRanges n = false := by decide
  exact hranges c.toNat (by omega) hlo

/-- A digit is none of the characters below the digits. -/
theorem ne_of_isDigit {c mark : Char} (h : isDigit c = true) (hmark : mark.toNat < 48) :
    c ≠ mark := by
  rintro rfl
  have hlo := (toNat_of_isDigit h).1
  omega

/-! ### Runs of digits -/

theorem decimal_digits (n : Nat) : ∀ c ∈ decimal n, isDigit c = true := by
  induction n using Nat.strongRecOn with
  | ind n ih =>
    rw [decimal]
    split
    · next h => simpa using isDigit_digit h
    · next h =>
      intro c hc
      rcases List.mem_append.1 hc with hc | hc
      · exact ih (n / 10) (by omega) c hc
      · rw [List.mem_singleton.1 hc]
        exact isDigit_digit (Nat.mod_lt n (by decide))

theorem decimal_ne_nil (n : Nat) : decimal n ≠ [] := by
  rw [decimal]
  split <;> simp

theorem decimal_first (n : Nat) : ∃ c rest, decimal n = c :: rest ∧ isDigit c = true := by
  cases h : decimal n with
  | nil => exact absurd h (decimal_ne_nil n)
  | cons c rest => exact ⟨c, rest, rfl, decimal_digits n c (h ▸ List.mem_cons_self ..)⟩

theorem toList_natText (n : Nat) : (natText n).toList = decimal n :=
  String.toList_ofList

theorem toList_intText (i : Int) :
    (intText i).toList = if i < 0 then '-' :: decimal i.natAbs else decimal i.natAbs := by
  rw [intText]
  split
  · rw [String.toList_append, toList_natText]
    rfl
  · rw [toList_natText]

theorem continued_decimal (n : Nat) : continued 0 (decimal n) = n := by
  induction n using Nat.strongRecOn with
  | ind n ih =>
    rw [decimal]
    split
    · next h => simp [continued, digitValue_digit h]
    · next h =>
      have hlast : n % 10 < 10 := Nat.mod_lt n (by decide)
      have hfirst : continued 0 (decimal (n / 10)) = n / 10 := ih (n / 10) (by omega)
      rw [continued] at hfirst ⊢
      rw [List.foldl_append, hfirst, List.foldl_cons, List.foldl_nil, digitValue_digit hlast]
      exact Nat.div_add_mod n 10

/-- A number whose first digit is a zero is zero. -/
theorem decimal_of_zero_first {n : Nat} {rest : List Char} (h : decimal n = '0' :: rest) :
    rest = [] := by
  induction n using Nat.strongRecOn generalizing rest with
  | ind n ih =>
    rw [decimal] at h
    split at h
    · exact (List.cons.inj h).2.symm
    · next hlarge =>
      cases hfirst : decimal (n / 10) with
      | nil => exact absurd hfirst (decimal_ne_nil _)
      | cons c more =>
        rw [hfirst] at h
        obtain rfl : c = '0' := (List.cons.inj h).1
        -- Then the number without its last digit is zero as well.
        have hmore : more = [] := ih (n / 10) (by omega) hfirst
        have hvalue := continued_decimal (n / 10)
        rw [hfirst, hmore] at hvalue
        have hzero : n / 10 = 0 := hvalue.symm
        omega

/-! ### Reading -/

/-- A run of digits ends where no digit follows. -/
theorem spanDigits_append {digits rest : List Char} (h : ∀ c ∈ digits, isDigit c = true)
    (hrest : ∀ c ∈ rest.head?, isDigit c = false) : spanDigits (digits ++ rest) = (digits, rest) := by
  have hend : rest.takeWhile isDigit = [] ∧ rest.dropWhile isDigit = rest := by
    cases rest with
    | nil => exact ⟨rfl, rfl⟩
    | cons c rest => simp [hrest c rfl]
  rw [spanDigits, List.takeWhile_append_of_pos h, List.dropWhile_append_of_pos h, hend.1, hend.2,
    List.append_nil]

theorem natural?_eq_some {cs : List Char} {n : Nat} :
    natural? cs = some n ↔ cs ≠ [] ∧ (∀ c ∈ cs, isDigit c = true) ∧ continued 0 cs = n := by
  cases cs with
  | nil => simp [natural?]
  | cons c rest =>
    simp only [natural?, List.isEmpty_cons, Bool.false_or, Bool.not_eq_true', ← Bool.not_eq_true,
      List.all_eq_true, ne_eq, reduceCtorEq, not_false_eq_true, true_and]
    split
    · next h => exact ⟨fun hn => (nomatch hn), fun hn => absurd hn.1 h⟩
    · next h => exact ⟨fun hn => ⟨not_not.1 h, Option.some.inj hn⟩, fun hn => congrArg some hn.2⟩

theorem natural?_decimal (n : Nat) : natural? (decimal n) = some n :=
  natural?_eq_some.2 ⟨decimal_ne_nil n, decimal_digits n, continued_decimal n⟩

theorem unsigned?_plus (limit : Nat) (digits : List Char) :
    unsigned? limit ('+' :: digits) = (natural? digits).filter (· ≤ limit) := by
  simp only [unsigned?]
  cases natural? digits with
  | none => rfl
  | some n => simp only [Option.filter, decide_eq_true_eq]

theorem unsigned?_bare {limit : Nat} {digits : List Char} (h : '+' ∉ digits.head?) :
    unsigned? limit digits = (natural? digits).filter (· ≤ limit) := by
  rw [unsigned?]
  · cases natural? digits with
    | none => rfl
    | some n => simp only [Option.filter, decide_eq_true_eq]
  · rintro rest rfl
    exact h rfl

/-- What is read is an optional plus sign before a run of digits. -/
theorem unsigned?_eq_some {limit n : Nat} {cs : List Char} :
    unsigned? limit cs = some n ↔ ∃ sign digits, cs = sign ++ digits ∧
      (sign = [] ∨ sign = ['+']) ∧ natural? digits = some n ∧ n ≤ limit := by
  constructor
  · intro h
    by_cases hplus : '+' ∈ cs.head?
    · obtain ⟨digits, rfl⟩ := List.head?_eq_some_iff.1 hplus
      rw [unsigned?_plus, Option.filter_eq_some_iff, decide_eq_true_eq] at h
      exact ⟨['+'], digits, rfl, .inr rfl, h⟩
    · rw [unsigned?_bare hplus, Option.filter_eq_some_iff, decide_eq_true_eq] at h
      exact ⟨[], cs, rfl, .inl rfl, h⟩
  · rintro ⟨sign, digits, rfl, rfl | rfl, h⟩
    · -- A plus sign is no digit.
      have hplus : '+' ∉ digits.head? := fun hm =>
        absurd ((natural?_eq_some.1 h.1).2.1 '+' (List.mem_of_mem_head? hm)) (by decide)
      rw [List.nil_append, unsigned?_bare hplus, Option.filter_eq_some_iff, decide_eq_true_eq]
      exact h
    · rw [List.singleton_append, unsigned?_plus, Option.filter_eq_some_iff, decide_eq_true_eq]
      exact h

/-- A number that is not too large is read back. -/
theorem unsigned?_decimal {limit n : Nat} (h : n ≤ limit) :
    unsigned? limit (decimal n) = some n :=
  unsigned?_eq_some.2 ⟨[], decimal n, rfl, .inl rfl, natural?_decimal n, h⟩

theorem trim_decimal (n : Nat) : trim (decimal n) = decimal n := by
  have hblank : ∀ c ∈ decimal n, isBlank c = false := fun c hc =>
    isBlank_of_isDigit (decimal_digits n c hc)
  have hnone : ∀ c ∈ ([] : List Char), isBlank c = true := fun c hc => by cases hc
  have htrim := trim_append hnone hblank hnone
  rwa [List.nil_append, List.append_nil] at htrim

end Aggregation.Text
