import Aggregation.Json.Reader
import Aggregation.Json.Writer
import Mathlib.Data.List.DropRight

/-! What the reader passes over: blanks, and text in quotes.

Blanks before a value, an item or a field make no difference (`value_skip`, `items_skip`,
`fields_skip`). Quoted text is read back, whatever its characters are: there are three ways in which
a character may stand inside a string (`inString_cases`), and the reader takes each of them for the
character (`pieces_inString`). None begins with a bare quote, so the reader passes over exactly the
text that was quoted (`string_quoted`). -/
namespace Aggregation.Json

/-! ### Blanks -/

namespace Reader

theorem skip_cons {c : Char} (h : isBlank c = false) (rest : List Char) :
    skip (c :: rest) = c :: rest := by
  rw [skip, List.dropWhile_cons, h]
  rfl

theorem skip_skip (cs : List Char) : skip (skip cs) = skip cs :=
  List.dropWhile_idempotent _ cs

theorem value_skip (fuel : Nat) (cs : List Char) : value fuel (skip cs) = value fuel cs := by
  cases fuel with
  | zero => rfl
  | succ fuel => rw [value, value, skip_skip]

theorem items_skip (fuel : Nat) (cs : List Char) : items fuel (skip cs) = items fuel cs := by
  cases fuel with
  | zero => rfl
  | succ fuel => rw [items, items, value_skip]

theorem fields_skip (fuel : Nat) (cs : List Char) : fields fuel (skip cs) = fields fuel cs := by
  cases fuel with
  | zero => rfl
  | succ fuel => rw [fields, fields, skip_skip]

end Reader

/-! ### Quoted text -/

theorem hexValue?_hexDigit {n : Nat} (h : n < 16) : Text.hexValue? (Text.hexDigit n) = some n := by
  have hall : ∀ n < 16, Text.hexValue? (Text.hexDigit n) = some n := by decide
  exact hall n h

/-- The ways in which a character may stand inside a string: as it is, as a two-character escape,
or as four hexadecimal digits. -/
theorem Writer.inString_cases (c : Char) :
    (inString c = [c] ∧ c ≠ '"' ∧ c ≠ '\\' ∧ 32 ≤ c.toNat) ∨
    (∃ e, inString c = ['\\', e] ∧ e ≠ 'u' ∧ 32 ≤ e.toNat ∧ Reader.escaped? e = some c) ∨
    (inString c =
        ['\\', 'u', '0', '0', Text.hexDigit (c.toNat / 16), Text.hexDigit (c.toNat % 16)] ∧
      c.toNat < 32) := by
  have hof : ∀ {n : Nat}, c.toNat = n → c = Char.ofNat n := fun h => by rw [← h, Char.ofNat_toNat]
  have hescape : ∀ {d e : Char}, c = d → escape? d = some ['\\', e] → e ≠ 'u' → 32 ≤ e.toNat →
      Reader.escaped? e = some d →
      ∃ e, inString c = ['\\', e] ∧ e ≠ 'u' ∧ 32 ≤ e.toNat ∧ Reader.escaped? e = some c := by
    rintro _ e rfl hescape hu hle he
    exact ⟨e, by rw [inString, hescape]; rfl, hu, hle, he⟩
  by_cases hquote : c = '"'
  · exact .inr (.inl (hescape hquote rfl (by decide) (by decide) rfl))
  by_cases hslash : c = '\\'
  · exact .inr (.inl (hescape hslash rfl (by decide) (by decide) rfl))
  by_cases hle : 32 ≤ c.toNat
  · refine .inl ⟨?_, hquote, hslash, hle⟩
    rw [inString, escape?, if_neg hquote, if_neg hslash, if_pos (Nat.ble_eq_true_of_le hle)]
    rfl
  by_cases hn : c = '\n'
  · exact .inr (.inl (hescape hn rfl (by decide) (by decide) rfl))
  by_cases hr : c = '\r'
  · exact .inr (.inl (hescape hr rfl (by decide) (by decide) rfl))
  by_cases ht : c = '\t'
  · exact .inr (.inl (hescape ht rfl (by decide) (by decide) rfl))
  by_cases hb : c.toNat = 8
  · exact .inr (.inl (hescape (hof hb) rfl (by decide) (by decide) rfl))
  by_cases hf : c.toNat = 12
  · exact .inr (.inl (hescape (hof hf) rfl (by decide) (by decide) rfl))
  · refine .inr (.inr ⟨?_, Nat.lt_of_not_le hle⟩)
    have hble : ¬ Nat.ble 32 c.toNat = true := fun h => hle (Nat.le_of_ble_eq_true h)
    rw [inString, escape?, if_neg hquote, if_neg hslash, if_neg hble, if_neg hn, if_neg hr,
      if_neg ht, if_neg hb, if_neg hf]
    rfl

theorem Writer.quoted_append (cs rest : List Char) :
    quoted cs ++ rest = '"' :: (cs.flatMap inString ++ '"' :: rest) := by
  simp [quoted]

namespace Reader
open Writer (inString)

/-- The digits of a code below 32 are read back. -/
theorem unit?_hexDigit {n : Nat} (h : n < 32) :
    unit? '0' '0' (Text.hexDigit (n / 16)) (Text.hexDigit (n % 16)) = some n := by
  have hzero : Text.hexValue? '0' = some 0 := rfl
  have hhigh : Text.hexValue? (Text.hexDigit (n / 16)) = some (n / 16) :=
    hexValue?_hexDigit (by omega)
  have hlow : Text.hexValue? (Text.hexDigit (n % 16)) = some (n % 16) :=
    hexValue?_hexDigit (by omega)
  simp only [unit?, hzero, hhigh, hlow, Option.some.injEq]
  omega

/-- A code below 32 is no half of a surrogate pair. -/
theorem Piece.ofUnit_toNat {c : Char} (h : c.toNat < 32) : Piece.ofUnit c.toNat = .char c := by
  have hhigh : ¬ 0xD800 ≤ c.toNat := by omega
  have hlow : ¬ 0xDC00 ≤ c.toNat := by omega
  simp [Piece.ofUnit, hhigh, hlow, Char.ofNat_toNat]

/-- The character that a two-character escape stands for. -/
theorem pieces_escape {e c : Char} (hu : e ≠ 'u') (h : escaped? e = some c) (rest : List Char) :
    pieces ('\\' :: e :: rest) =
      (pieces rest).map fun (ps, tail) => (.char c :: ps, tail) := by
  rw [pieces]
  · rw [h]
    cases pieces rest <;> rfl
  · rintro a b c' d more rfl -
    exact hu rfl

/-- The character that four hexadecimal digits stand for. -/
theorem pieces_code {c : Char} (h : c.toNat < 32) (rest : List Char) :
    pieces ('\\' :: 'u' :: '0' :: '0' :: Text.hexDigit (c.toNat / 16) ::
        Text.hexDigit (c.toNat % 16) :: rest) =
      (pieces rest).map fun (ps, tail) => (.char c :: ps, tail) := by
  rw [pieces, unit?_hexDigit h]
  cases pieces rest with
  | none => rfl
  | some found => simp only [Piece.ofUnit_toNat h, Option.map_some]

/-- A character that needs no escape stands for itself. -/
theorem pieces_plain {c : Char} (hquote : c ≠ '"') (hslash : c ≠ '\\') (hlow : ¬ c.toNat < 32)
    (rest : List Char) :
    pieces (c :: rest) = (pieces rest).map fun (ps, tail) => (.char c :: ps, tail) := by
  rw [pieces]
  · simp only [beq_eq_false_iff_ne.2 hslash, hlow, decide_false, Bool.or_false, Bool.false_eq_true,
      if_false]
    cases pieces rest <;> rfl
  · exact hquote
  · rintro a b c' d more rfl -
    exact hslash rfl
  · rintro e more rfl -
    exact hslash rfl

theorem pieces_inString (c : Char) (rest : List Char) :
    pieces (inString c ++ rest) = (pieces rest).map fun (ps, tail) => (.char c :: ps, tail) := by
  rcases Writer.inString_cases c with ⟨hc, hquote, hslash, hle⟩ | ⟨e, hc, hu, -, he⟩ | ⟨hc, hlow⟩
  · rw [hc]
    exact pieces_plain hquote hslash (by omega) rest
  · rw [hc]
    exact pieces_escape hu he rest
  · rw [hc]
    exact pieces_code hlow rest

theorem pieces_quoted (cs rest : List Char) :
    pieces (cs.flatMap inString ++ '"' :: rest) = some (cs.map .char, rest) := by
  induction cs with
  | nil => rfl
  | cons c cs ih => rw [List.flatMap_cons, List.append_assoc, pieces_inString, ih]; rfl

theorem joined?_chars (cs : List Char) : joined? (cs.map .char) = some cs := by
  induction cs with
  | nil => rfl
  | cons c cs ih => rw [List.map_cons, joined?, ih]; rfl

/-- Behind the opening quote, the reader finds the text that was quoted and stops behind the closing
one. -/
theorem string_quoted (cs rest : List Char) :
    string (cs.flatMap inString ++ '"' :: rest) = some (some (String.ofList cs), rest) := by
  rw [string, pieces_quoted]
  simp only [joined?_chars, Option.map_some]

end Reader

end Aggregation.Json
