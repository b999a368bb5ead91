import Aggregation.Position
import Aggregation.Proofs.Text.Digits
import Mathlib.Data.List.Induction
import Mathlib.Data.Nat.Digits.Defs

/-! The texts that spell a position.

A text is cut into fields at its slashes (`fields_iff`), and a field that holds a number is digits
after an optional plus sign, between blanks (`number?_eq_some`). What a text declares is said by
`Declares` in these terms alone: the second field must hold a number, the first one may, and what
follows a second slash is not looked at. Reading a text gives what it declares, and a text that
declares nothing is at fault as it stands (`read_grammar`). A position's own text declares that
position, so it is read back. -/
namespace Aggregation.Position

/-! ### Numbers -/

/-- A field that holds a number of at most 32 bits. -/
def Holds (field : List Char) (n : Nat) : Prop :=
  ∃ before sign digits after, field = before ++ (sign ++ digits) ++ after ∧
    (∀ c ∈ before, Text.isBlank c = true) ∧ (∀ c ∈ after, Text.isBlank c = true) ∧
    (sign = [] ∨ sign = ['+']) ∧ digits ≠ [] ∧ (∀ c ∈ digits, '0' ≤ c ∧ c ≤ '9') ∧
    Nat.ofDigits 10 (digits.reverse.map fun c => c.toNat - '0'.toNat) = n ∧ n < 2 ^ 32

theorem isDigit_iff (c : Char) : Text.isDigit c = true ↔ '0' ≤ c ∧ c ≤ '9' := by
  rw [Text.isDigit, Bool.and_eq_true, Nat.ble_eq, Nat.ble_eq]
  exact Iff.rfl

theorem continued_eq_ofDigits (digits : List Char) :
    Text.continued 0 digits =
      Nat.ofDigits 10 (digits.reverse.map fun c => c.toNat - '0'.toNat) := by
  induction digits using List.reverseRecOn with
  | nil => rfl
  | append_singleton digits c ih =>
    have hlast : Text.continued 0 (digits ++ [c]) =
        10 * Text.continued 0 digits + Text.digitValue c := List.foldl_append
    rw [hlast, ih, List.reverse_append, List.map_append, List.reverse_singleton, List.map_singleton,
      List.singleton_append, Nat.ofDigits_cons, Nat.add_comm]
    rfl

theorem number?_eq_some {field : List Char} {n : Nat} :
    number? field = some n ↔ Holds field n := by
  rw [number?, Text.unsigned?_eq_some]
  constructor
  · rintro ⟨sign, digits, htrim, hsign, hnatural, hle⟩
    obtain ⟨hne, hdigits, hvalue⟩ := Text.natural?_eq_some.1 hnatural
    obtain ⟨before, after, hfield, hbefore, hafter⟩ := Text.eq_append_trim_append field
    refine ⟨before, sign, digits, after, htrim ▸ hfield, hbefore, hafter, hsign, hne,
      fun c hc => (isDigit_iff c).1 (hdigits c hc), ?_, Nat.lt_succ_of_le hle⟩
    rw [← continued_eq_ofDigits, hvalue]
  · rintro ⟨before, sign, digits, after, rfl, hbefore, hafter, hsign, hne, hdigits, hvalue, hlt⟩
    have hdigit : ∀ c ∈ digits, Text.isDigit c = true := fun c hc =>
      (isDigit_iff c).2 (hdigits c hc)
    have hcore : ∀ c ∈ sign ++ digits, Text.isBlank c = false := by
      intro c hc
      rcases List.mem_append.1 hc with hc | hc
      · rcases hsign with rfl | rfl
        · cases hc
        · rw [List.mem_singleton.1 hc]
          decide
      · exact Text.isBlank_of_isDigit (hdigit c hc)
    refine ⟨sign, digits, Text.trim_append hbefore hcore hafter, hsign, ?_, Nat.le_of_lt_succ hlt⟩
    exact Text.natural?_eq_some.2 ⟨hne, hdigit, (continued_eq_ofDigits digits).trans hvalue⟩

/-! ### Fields -/

/-- The first two fields of a text, of which there are as many as slashes and one more. -/
def Fields (cs first second : List Char) : Prop :=
  ∃ rest, cs = first ++ '/' :: (second ++ rest) ∧ '/' ∉ first ∧ '/' ∉ second ∧
    (rest = [] ∨ ∃ ignored, rest = '/' :: ignored)

theorem ne_slash_of_notMem {cs : List Char} (h : '/' ∉ cs) : ∀ c ∈ cs, (c != '/') = true :=
  fun _ hc => bne_iff_ne.2 fun he => h (he ▸ hc)

theorem upToSlash_append {first : List Char} (h : '/' ∉ first) {rest : List Char}
    (hrest : rest = [] ∨ ∃ ignored, rest = '/' :: ignored) : upToSlash (first ++ rest) = first := by
  rw [upToSlash, List.takeWhile_append_of_pos (ne_slash_of_notMem h)]
  rcases hrest with rfl | ⟨ignored, rfl⟩ <;> simp

theorem afterSlash?_append {first : List Char} (h : '/' ∉ first) (rest : List Char) :
    afterSlash? (first ++ '/' :: rest) = some rest := by
  rw [afterSlash?, List.dropWhile_append_of_pos (ne_slash_of_notMem h)]
  simp

theorem notMem_upToSlash (cs : List Char) : '/' ∉ upToSlash cs := fun h =>
  absurd (List.mem_takeWhile_imp h) (by decide)

/-- A text goes on with a slash where its first field ends, if it goes on. -/
theorem eq_upToSlash_append (cs : List Char) :
    ∃ rest, cs = upToSlash cs ++ rest ∧ (rest = [] ∨ ∃ ignored, rest = '/' :: ignored) := by
  refine ⟨cs.dropWhile (· != '/'), List.takeWhile_append_dropWhile.symm, ?_⟩
  cases hrest : cs.dropWhile (· != '/') with
  | nil => exact .inl rfl
  | cons c ignored =>
    have hhead : (c != '/') = false := by
      have hne : cs.dropWhile (· != '/') ≠ [] := by
        rw [hrest]
        exact List.cons_ne_nil c ignored
      simpa only [hrest, List.head_cons] using List.head_dropWhile_not (· != '/') hne
    exact .inr ⟨ignored, by rw [bne_eq_false_iff_eq.1 hhead]⟩

theorem fields_iff {cs first second : List Char} :
    Fields cs first second ↔
      upToSlash cs = first ∧ ∃ rest, afterSlash? cs = some rest ∧ upToSlash rest = second := by
  constructor
  · rintro ⟨rest, rfl, hfirst, hsecond, hrest⟩
    exact ⟨upToSlash_append hfirst (.inr ⟨_, rfl⟩), second ++ rest, afterSlash?_append hfirst _,
      upToSlash_append hsecond hrest⟩
  · rintro ⟨rfl, rest, hafter, rfl⟩
    obtain ⟨tail, hcs, htail⟩ := eq_upToSlash_append cs
    obtain ⟨more, hrest, hmore⟩ := eq_upToSlash_append rest
    rcases htail with rfl | ⟨ignored, rfl⟩
    · -- Without a slash there is nothing behind one.
      have hslash : '/' ∉ cs := by
        rw [hcs, List.append_nil]
        exact notMem_upToSlash cs
      have hnone : cs.dropWhile (· != '/') = [] :=
        List.dropWhile_eq_nil_iff.2 (ne_slash_of_notMem hslash)
      rw [afterSlash?, hnone] at hafter
      cases hafter
    · have hsame : afterSlash? cs = some ignored := by
        rw [hcs]
        exact afterSlash?_append (notMem_upToSlash cs) ignored
      obtain rfl : ignored = rest := Option.some.inj (hsame.symm.trans hafter)
      refine ⟨more, ?_, notMem_upToSlash cs, notMem_upToSlash ignored, hmore⟩
      rw [← hrest, ← hcs]

/-! ### Positions -/

/-- The position that a text declares: its total is the number in the second field; its place is the
number in the first field, or zero if that holds none. -/
def Declares (text : String) (p : Position) : Prop :=
  ∃ first second, Fields text.toList first second ∧ Holds second p.total ∧
    (Holds first p.current ∨ (∀ n, ¬ Holds first n) ∧ p.current = 0)

theorem number?_getD_eq {field : List Char} {n : Nat} :
    (number? field).getD 0 = n ↔
      number? field = some n ∨ (∀ k, ¬ number? field = some k) ∧ n = 0 := by
  cases number? field with
  | none => simp [eq_comm]
  | some k => simp

theorem parse?_eq_some {text : String} {p : Position} :
    parse? text = some p ↔ Declares text p := by
  obtain ⟨current, total⟩ := p
  simp only [Declares, fields_iff, ← number?_eq_some, ← number?_getD_eq]
  constructor
  · intro h
    simp only [parse?] at h
    split at h
    · cases h
    · next rest hafter =>
      split at h
      · next n htotal =>
        cases h
        exact ⟨_, _, ⟨rfl, rest, hafter, rfl⟩, htotal, rfl⟩
      · cases h
  · rintro ⟨first, second, ⟨rfl, rest, hafter, rfl⟩, htotal, rfl⟩
    simp only [parse?, hafter, htotal]

theorem number?_decimal {n : Nat} (h : n ≤ limit) : number? (Text.decimal n) = some n := by
  rw [number?, Text.trim_decimal, Text.unsigned?_decimal h]

theorem notMem_decimal (n : Nat) : '/' ∉ Text.decimal n := fun h =>
  Text.ne_of_isDigit (Text.decimal_digits n _ h) (by decide) rfl

/-- A position that is not too large is declared by its own text. -/
theorem declares_text {p : Position} (hcurrent : p.current ≤ limit) (htotal : p.total ≤ limit) :
    Declares p.text p := by
  have htext : p.text.toList = Text.decimal p.current ++ '/' :: (Text.decimal p.total ++ []) := by
    rw [text, String.toList_ofList, List.append_nil]
  exact ⟨_, _, ⟨[], htext, notMem_decimal _, notMem_decimal _, .inl rfl⟩,
    number?_eq_some.1 (number?_decimal htotal), .inl (number?_eq_some.1 (number?_decimal hcurrent))⟩

theorem read_eq_ok {text : String} {p : Position} : read text = .ok p ↔ Declares text p := by
  rw [← parse?_eq_some, read]
  cases parse? text with
  | none => simp
  | some q => simp

theorem read_eq_error {text : String} {fault : Fault} :
    read text = .error fault ↔ (∀ p, ¬ Declares text p) ∧ fault = .malformedSequence text := by
  simp only [← parse?_eq_some, read]
  cases parse? text with
  | none => simp [eq_comm]
  | some q => simp

/-- Reading a text succeeds if and only if its second field holds a number. It gives the position
that the text declares, and is otherwise at fault with the text as it stands. A position whose
numbers have at most 32 bits is read back from its text. -/
theorem read_grammar :
    (∀ text, (∃ p, read text = .ok p) ↔
      ∃ first second total, Fields text.toList first second ∧ Holds second total) ∧
    (∀ text p, read text = .ok p ↔ Declares text p) ∧
    (∀ text fault, read text = .error fault ↔
      (∀ p, ¬ Declares text p) ∧ fault = .malformedSequence text) ∧
    ∀ current total, current < 2 ^ 32 → total < 2 ^ 32 →
      read (text ⟨current, total⟩) = .ok ⟨current, total⟩ := by
  refine ⟨fun text => ⟨?_, ?_⟩, fun text p => read_eq_ok, fun text fault => read_eq_error,
    fun current total hcurrent htotal => ?_⟩
  · rintro ⟨p, hp⟩
    obtain ⟨first, second, hfields, htotal, -⟩ := read_eq_ok.1 hp
    exact ⟨first, second, p.total, hfields, htotal⟩
  · rintro ⟨first, second, total, hfields, htotal⟩
    have hcurrent := number?_getD_eq.1 (Eq.refl ((number? first).getD 0))
    simp only [number?_eq_some] at hcurrent
    exact ⟨⟨_, total⟩, read_eq_ok.2 ⟨first, second, hfields, htotal, hcurrent⟩⟩
  · exact read_eq_ok.2 (declares_text (Nat.le_of_lt_succ hcurrent) (Nat.le_of_lt_succ htotal))

/-- The largest total comes back. One more than that is at fault. -/
theorem read_grammar_largest :
    (7 < 2 ^ 32 ∧ 4294967295 < 2 ^ 32) ∧ text ⟨7, 4294967295⟩ = "7/4294967295" ∧
      read (text ⟨7, 4294967295⟩) = .ok ⟨7, 4294967295⟩ ∧
      ∀ p, ¬ Declares "7/4294967296" p := by
  have htext : text ⟨7, 4294967295⟩ = "7/4294967295" := by
    simp [text, Text.decimal, Text.digit]
  have hover : read "7/4294967296" = .error (.malformedSequence "7/4294967296") := rfl
  exact ⟨by decide, htext, read_grammar.2.2.2 7 4294967295 (by decide) (by decide),
    (read_grammar.2.2.1 "7/4294967296" _).1 hover |>.1⟩

/-- Signs, leading zeros and blanks are taken, and what follows the second slash is not. -/
example : parse? "\t+007 / 03\n/9" = some ⟨7, 3⟩ ∧ parse? "-1/+3" = some ⟨0, 3⟩ := by decide

end Aggregation.Position
