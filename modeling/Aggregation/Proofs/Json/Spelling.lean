import Aggregation.Proofs.Json.Quotation
import Aggregation.Proofs.Text.Digits
import Mathlib.Data.List.Forall2

/-! Texts that spell a JSON value.

A text spells a tree if the reader, coming upon the text, takes just that text for the tree,
whatever follows that could not continue a number (`Spells`). The reader asks for fuel, and the
length of the text is always enough. Every way of writing a value has its lemma here: numbers
(`spells_int`), strings (`spells_string`), arrays of texts that spell their items
(`spells_bracketed`) and objects of texts that spell their fields (`spells_braced`). A whole text
that spells a tree is read as that tree (`parse?_of_spells`). -/
namespace Aggregation.Json
open Reader (skip_cons value_skip items_skip fields_skip)

/-- What may stand behind a value: nothing that could continue a number. -/
def Ends (rest : List Char) : Prop :=
  ∀ c ∈ rest.head?, Text.isDigit c = false ∧ c ≠ '.' ∧ c ≠ 'e' ∧ c ≠ 'E'

/-- A text that the reader takes for a tree. -/
def Spells (cs : List Char) (tree : Json) : Prop :=
  ∀ fuel rest, cs.length ≤ fuel → Ends rest → Reader.value fuel (cs ++ rest) = some (tree, rest)

theorem ends_cons {c : Char} (h : Text.isDigit c = false ∧ c ≠ '.' ∧ c ≠ 'e' ∧ c ≠ 'E')
    (rest : List Char) : Ends (c :: rest) := by
  intro d hd
  rwa [← Option.some.inj hd]

/-! ### Numbers -/

theorem whole_decimal (n : Nat) {rest : List Char} (hrest : Ends rest) :
    Reader.whole (Text.decimal n ++ rest) = some (Text.decimal n, rest) := by
  rw [Reader.whole, Text.spanDigits_append (Text.decimal_digits n) fun c hc => (hrest c hc).1]
  split
  · next h => exact absurd (Prod.mk.inj h).1 (Text.decimal_ne_nil n)
  · next c more _ h =>
    have hzero := Text.decimal_of_zero_first (Prod.mk.inj h).1
    cases hzero
  · rfl

theorem unsigned_decimal (negative : Bool) (n : Nat) {rest : List Char} (hrest : Ends rest) :
    Reader.unsigned negative (Text.decimal n ++ rest) =
      some (⟨negative, Text.decimal n, [], none⟩, rest) := by
  have hfraction : Reader.fraction rest = some ([], rest) := by
    unfold Reader.fraction
    split
    · exact absurd rfl (hrest '.' rfl).2.1
    · rfl
  have hexponent : Reader.exponent rest = some (none, rest) := by
    cases rest with
    | nil => rfl
    | cons c rest =>
      obtain ⟨-, -, he, hE⟩ := hrest c rfl
      simp [Reader.exponent, he, hE]
  simp only [Reader.unsigned, whole_decimal n hrest, hfraction, hexponent, Option.bind_eq_bind,
    Option.bind_some, Option.pure_def]

/-- The numeral that an integer is written as. -/
def Numeral.ofInt (i : Int) : Numeral :=
  ⟨decide (i < 0), Text.decimal i.natAbs, [], none⟩

/-- A written integer begins with a sign or a digit, and is read as its numeral. -/
theorem number_intText (i : Int) (rest : List Char) (hrest : Ends rest) :
    (∃ c more, (Text.intText i).toList = c :: more ∧ (c = '-' ∨ Text.isDigit c = true)) ∧
      Reader.number ((Text.intText i).toList ++ rest) = some (.ofInt i, rest) := by
  rw [Text.toList_intText]
  split
  · next h =>
    refine ⟨⟨'-', _, rfl, .inl rfl⟩, ?_⟩
    rw [List.cons_append, Reader.number, unsigned_decimal true _ hrest, Numeral.ofInt,
      decide_eq_true h]
  · next h =>
    obtain ⟨c, digits, hdigits, hc⟩ := Text.decimal_first i.natAbs
    refine ⟨⟨c, digits, hdigits, .inr hc⟩, ?_⟩
    rw [Reader.number, unsigned_decimal false _ hrest, Numeral.ofInt, decide_eq_false h]
    -- There is no sign, as the first character is a digit.
    intro more hmore
    rw [hdigits] at hmore
    obtain rfl : c = '-' := (List.cons.inj hmore).1
    exact absurd hc (by decide)

/-! ### Single values -/

/-- To spell a tree, a text need only be so long that there is one unit of fuel to begin with. -/
theorem spells_of_succ {cs : List Char} {tree : Json} (hne : cs ≠ [])
    (h : ∀ fuel rest, cs.length ≤ fuel + 1 → Ends rest →
      Reader.value (fuel + 1) (cs ++ rest) = some (tree, rest)) : Spells cs tree := by
  intro fuel rest hfuel hrest
  cases fuel with
  | zero => exact absurd (List.eq_nil_of_length_eq_zero (Nat.le_zero.1 hfuel)) hne
  | succ fuel => exact h fuel rest hfuel hrest

theorem spells_null : Spells ['n', 'u', 'l', 'l'] .null :=
  spells_of_succ (List.cons_ne_nil _ _) fun fuel rest _ _ => by
    rw [List.cons_append, Reader.value, skip_cons (by decide)]
    rfl

theorem spells_bool (b : Bool) : Spells (Writer.bool b) (.bool b) := by
  cases b with
  | true =>
    refine spells_of_succ (List.cons_ne_nil _ _) fun fuel rest _ _ => ?_
    rw [Writer.bool, List.cons_append, Reader.value, skip_cons (by decide)]
    rfl
  | false =>
    refine spells_of_succ (List.cons_ne_nil _ _) fun fuel rest _ _ => ?_
    rw [Writer.bool, List.cons_append, Reader.value, skip_cons (by decide)]
    rfl

theorem spells_quoted (cs : List Char) :
    Spells (Writer.quoted cs) (.string (some (String.ofList cs))) := by
  refine spells_of_succ (List.cons_ne_nil _ _) fun fuel rest _ _ => ?_
  rw [Writer.quoted_append, Reader.value, skip_cons (by decide)]
  simp only [Reader.string_quoted]

theorem spells_string (s : String) : Spells (Writer.string s) (.string (some s)) := by
  have hquoted := spells_quoted s.toList
  rwa [String.ofList_toList] at hquoted

/-- What begins with a sign or a digit can only be read as a number. -/
theorem value_of_number {c : Char} (h : c = '-' ∨ Text.isDigit c = true) (fuel : Nat)
    (rest : List Char) :
    Reader.value (fuel + 1) (c :: rest) =
      (Reader.number (c :: rest)).map fun (n, tail) => (.number n, tail) := by
  have hblank : Reader.isBlank c = false := by
    rcases h with rfl | h
    · rfl
    · have hdigit := Text.toNat_of_isDigit h
      simp only [Reader.isBlank, Bool.or_eq_false_iff, beq_eq_false_iff_ne]
      refine ⟨⟨⟨?_, ?_⟩, ?_⟩, ?_⟩
      all_goals
        rintro rfl
        revert h
        decide
  have hne : ∀ {d : Char}, d ≠ '-' → Text.isDigit d = false → c ≠ d := by
    rintro d hminus hdigit rfl
    rcases h with rfl | h
    · exact hminus rfl
    · rw [hdigit] at h
      cases h
  rw [Reader.value, skip_cons hblank]
  split
  case h_7 => cases Reader.number (c :: rest) <;> rfl
  -- Each of the other forms begins with a character of its own.
  all_goals
    next heq => exact absurd (List.cons.inj heq).1 (hne (by decide) (by decide))

theorem spells_int (i : Int) : Spells (Text.intText i).toList (.number (.ofInt i)) := by
  obtain ⟨c, more, htext, hfirst⟩ := (number_intText i [] fun _ h => by cases h).1
  refine spells_of_succ (htext ▸ List.cons_ne_nil _ _) fun fuel rest _ hrest => ?_
  have hnumber := (number_intText i rest hrest).2
  rw [htext, List.cons_append] at hnumber ⊢
  rw [value_of_number hfirst, hnumber]
  rfl

/-! ### Arrays -/

/-- No value begins with a closing bracket. -/
theorem value_bracket (fuel : Nat) (rest : List Char) : Reader.value fuel (']' :: rest) = none := by
  cases fuel with
  | zero => rfl
  | succ fuel =>
    rw [Reader.value, skip_cons (by decide)]
    rfl

/-- An array whose items can be read is read, wherever blanks stand before them. -/
theorem value_array {fuel : Nat} {rest tail : List Char} {items : List Json}
    (h : Reader.items fuel rest = some (items, tail)) :
    Reader.value (fuel + 1) ('[' :: rest) = some (.array items, tail) := by
  rw [Reader.value, skip_cons (by decide)]
  rw [← items_skip] at h
  simp only
  split
  · next heq =>
    rw [heq] at h
    cases fuel with
    | zero => cases h
    | succ fuel =>
      rw [Reader.items, value_bracket] at h
      cases h
  · rw [h]

theorem items_cons {fuel : Nat} {cs rest : List Char} {tree : Json}
    (h : Reader.value fuel cs = some (tree, ',' :: rest)) :
    Reader.items (fuel + 1) cs =
      (Reader.items fuel rest).map fun (items, tail) => (tree :: items, tail) := by
  rw [Reader.items, h]
  simp only [skip_cons (show Reader.isBlank ',' = false by decide)]
  cases Reader.items fuel rest <;> rfl

theorem items_last {fuel : Nat} {cs rest : List Char} {tree : Json}
    (h : Reader.value fuel cs = some (tree, ']' :: rest)) :
    Reader.items (fuel + 1) cs = some ([tree], rest) := by
  rw [Reader.items, h]
  simp only [skip_cons (show Reader.isBlank ']' = false by decide)]

theorem items_separated {texts : List (List Char)} {trees : List Json}
    (h : List.Forall₂ Spells texts trees) (hne : texts ≠ []) :
    ∀ fuel rest, (Writer.separated texts).length + 1 ≤ fuel →
      Reader.items fuel (Writer.separated texts ++ ']' :: rest) = some (trees, rest) := by
  induction h with
  | nil => exact absurd rfl hne
  | @cons text tree texts trees hfirst hrest ih =>
    intro fuel rest hfuel
    obtain ⟨fuel, rfl⟩ : ∃ k, fuel = k + 1 := ⟨fuel - 1, by omega⟩
    cases hrest with
    | nil =>
      rw [Writer.separated] at hfuel ⊢
      exact items_last (hfirst fuel _ (by omega) (ends_cons (by decide) rest))
    | @cons next _ more _ _ _ =>
      have htext : Writer.separated (text :: next :: more) =
          text ++ ',' :: Writer.separated (next :: more) := rfl
      rw [htext, List.length_append, List.length_cons] at hfuel
      rw [htext, List.append_assoc, List.cons_append,
        items_cons (hfirst fuel _ (by omega) (ends_cons (by decide) _)),
        ih (List.cons_ne_nil _ _) fuel rest (by omega)]
      rfl

theorem spells_bracketed {texts : List (List Char)} {trees : List Json}
    (h : List.Forall₂ Spells texts trees) : Spells (Writer.bracketed texts) (.array trees) := by
  refine spells_of_succ (List.cons_ne_nil _ _) fun fuel rest hfuel _ => ?_
  have htext : Writer.bracketed texts ++ rest = '[' :: (Writer.separated texts ++ ']' :: rest) := by
    simp [Writer.bracketed]
  have hlength : (Writer.bracketed texts).length = (Writer.separated texts).length + 2 := by
    simp [Writer.bracketed]
  rw [htext]
  cases h with
  | nil =>
    rw [Reader.value, skip_cons (by decide)]
    rfl
  | cons hfirst hrest =>
    exact value_array (items_separated (.cons hfirst hrest) (List.cons_ne_nil _ _) fuel rest
      (by omega))

/-! ### Objects -/

/-- No field begins with a closing brace. -/
theorem fields_brace (fuel : Nat) (rest : List Char) :
    Reader.fields fuel ('\x7d' :: rest) = none := by
  cases fuel with
  | zero => rfl
  | succ fuel =>
    rw [Reader.fields, skip_cons (by decide)]
    rfl

/-- An object whose fields can be read is read, wherever blanks stand before them. -/
theorem value_object {fuel : Nat} {rest tail : List Char} {fields : List (Option String × Json)}
    (h : Reader.fields fuel rest = some (fields, tail)) :
    Reader.value (fuel + 1) ('\x7b' :: rest) = some (.object fields, tail) := by
  rw [Reader.value, skip_cons (by decide)]
  rw [← fields_skip] at h
  simp only
  split
  · next heq =>
    rw [heq, fields_brace] at h
    cases h
  · rw [h]

section Fields
variable {fuel : Nat} {name : String} {cs rest : List Char} {tree : Json}

theorem fields_cons (h : Reader.value fuel cs = some (tree, ',' :: rest)) :
    Reader.fields (fuel + 1) (Writer.quoted name.toList ++ ':' :: cs) =
      (Reader.fields fuel rest).map fun (fields, tail) => ((some name, tree) :: fields, tail) := by
  rw [Writer.quoted_append, Reader.fields, skip_cons (by decide)]
  simp only [Reader.string_quoted, String.ofList_toList,
    skip_cons (show Reader.isBlank ':' = false by decide), h,
    skip_cons (show Reader.isBlank ',' = false by decide)]
  cases Reader.fields fuel rest <;> rfl

theorem fields_last (h : Reader.value fuel cs = some (tree, '\x7d' :: rest)) :
    Reader.fields (fuel + 1) (Writer.quoted name.toList ++ ':' :: cs) =
      some ([(some name, tree)], rest) := by
  rw [Writer.quoted_append, Reader.fields, skip_cons (by decide)]
  simp only [Reader.string_quoted, String.ofList_toList,
    skip_cons (show Reader.isBlank ':' = false by decide), h,
    skip_cons (show Reader.isBlank '\x7d' = false by decide)]

end Fields

/-- A written field and the field that it spells. -/
def SpellsField (text : String × List Char) (field : Option String × Json) : Prop :=
  field.1 = some text.1 ∧ Spells text.2 field.2

/-- The text of a field. -/
def fieldText : String × List Char → List Char
  | (name, cs) => Writer.quoted name.toList ++ ':' :: cs

theorem fields_separated {texts : List (String × List Char)}
    {fields : List (Option String × Json)} (h : List.Forall₂ SpellsField texts fields)
    (hne : texts ≠ []) :
    ∀ fuel rest, (Writer.separated (texts.map fieldText)).length + 1 ≤ fuel →
      Reader.fields fuel (Writer.separated (texts.map fieldText) ++ '\x7d' :: rest) =
        some (fields, rest) := by
  induction h with
  | nil => exact absurd rfl hne
  | @cons text field texts fields hfirst hrest ih =>
    obtain ⟨name, cs⟩ := text
    obtain ⟨_, tree⟩ := field
    obtain ⟨rfl, hspells⟩ : some name = _ ∧ Spells cs tree := ⟨hfirst.1.symm, hfirst.2⟩
    intro fuel rest hfuel
    obtain ⟨fuel, rfl⟩ : ∃ k, fuel = k + 1 := ⟨fuel - 1, by omega⟩
    have hshorter : cs.length ≤ (fieldText (name, cs)).length := by
      rw [fieldText, List.length_append, List.length_cons]
      omega
    cases hrest with
    | nil =>
      rw [List.map_singleton, Writer.separated] at hfuel ⊢
      rw [fieldText, List.append_assoc, List.cons_append]
      exact fields_last (hspells fuel _ (by omega) (ends_cons (by decide) rest))
    | @cons next _ more _ _ _ =>
      have htext : Writer.separated (((name, cs) :: next :: more).map fieldText) =
          fieldText (name, cs) ++ ',' :: Writer.separated ((next :: more).map fieldText) := rfl
      rw [htext, List.length_append, List.length_cons] at hfuel
      rw [htext, List.append_assoc, List.cons_append, fieldText, List.append_assoc,
        List.cons_append, fields_cons (hspells fuel _ (by omega) (ends_cons (by decide) _)),
        ih (List.cons_ne_nil _ _) fuel rest (by omega)]
      rfl

theorem spells_braced {texts : List (String × List Char)} {fields : List (Option String × Json)}
    (h : List.Forall₂ SpellsField texts fields) : Spells (Writer.braced texts) (.object fields) := by
  refine spells_of_succ (List.cons_ne_nil _ _) fun fuel rest hfuel _ => ?_
  have hbraced : Writer.braced texts =
      '\x7b' :: Writer.separated (texts.map fieldText) ++ ['\x7d'] := rfl
  have htext : Writer.braced texts ++ rest =
      '\x7b' :: (Writer.separated (texts.map fieldText) ++ '\x7d' :: rest) := by
    simp [hbraced]
  have hlength : (Writer.braced texts).length =
      (Writer.separated (texts.map fieldText)).length + 2 := by
    simp [hbraced]
  rw [htext]
  cases h with
  | nil =>
    rw [List.map_nil, Writer.separated, Reader.value, skip_cons (by decide)]
    rfl
  | cons hfirst hrest =>
    exact value_object (fields_separated (.cons hfirst hrest) (List.cons_ne_nil _ _) fuel rest
      (by omega))

/-! ### Whole texts -/

/-- A text that spells a tree and nothing else is read as that tree. -/
theorem parse?_of_spells {cs : List Char} {tree : Json} (h : Spells cs tree) :
    parse? (String.ofList cs) = some tree := by
  have hread := h (2 * cs.length + 2) [] (by omega) fun _ hc => by cases hc
  rw [List.append_nil] at hread
  rw [parse?, String.toList_ofList, Reader.document, hread]
  rfl

end Aggregation.Json
