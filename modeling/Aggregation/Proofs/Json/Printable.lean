import Aggregation.DeadLetter
import Aggregation.Proofs.Json.Quotation
import Aggregation.Proofs.Text.Digits

/-! JSON text holds no control characters.

Whatever stands in quotes has its control characters escaped (`printable_quoted`). The other
characters of a value's text are marks of the grammar, digits and the letters of a few words, so the
text of a value of any nesting is printable (`printable_written`), doubles included, and so is
that of a message and the line of a dead letter, whatever ids, keys, names and texts they hold
(`printable_line`). -/
namespace Aggregation

/-- A text without control characters. -/
def Printable (cs : List Char) : Prop :=
  ∀ c ∈ cs, 32 ≤ c.toNat

namespace Printable
variable {cs ds : List Char}

theorem nil : Printable [] := fun _ h => by cases h

theorem cons {c : Char} (hc : 32 ≤ c.toNat) (h : Printable cs) : Printable (c :: cs) :=
  List.forall_mem_cons.2 ⟨hc, h⟩

theorem append (h : Printable cs) (h' : Printable ds) : Printable (cs ++ ds) :=
  List.forall_mem_append.2 ⟨h, h'⟩

theorem of_all (h : cs.all (fun c => Nat.ble 32 c.toNat) = true) : Printable cs := fun c hc =>
  Nat.le_of_ble_eq_true (List.all_eq_true.1 h c hc)

theorem of_subset (h : Printable ds) (hsub : ∀ c ∈ cs, c ∈ ds) : Printable cs := fun c hc =>
  h c (hsub c hc)

/-- A printable text is all on one line. -/
theorem newline_notMem (h : Printable cs) : '\n' ∉ cs := fun hm => absurd (h '\n' hm) (by decide)

end Printable

/-! ### Numbers -/

theorem printable_decimal (n : Nat) : Printable (Text.decimal n) := fun c hc => by
  have hdigit := Text.toNat_of_isDigit (Text.decimal_digits n c hc)
  omega

theorem printable_zeros (n : Nat) : Printable (List.replicate n '0') := fun c hc => by
  rw [List.eq_of_mem_replicate hc]
  decide

theorem printable_intText (i : Int) : Printable (Text.intText i).toList := by
  rw [Text.toList_intText]
  split
  · exact .cons (by decide) (printable_decimal _)
  · exact printable_decimal _

namespace Decimal

theorem printable_positionalText (keepPoint : Bool) (s : Scaled) :
    Printable (positionalText keepPoint s) := by
  have hdigits := printable_decimal s.digits
  have hpadded : ∀ width, Printable (Text.padded width (Text.decimal s.digits)) := fun width =>
    (printable_zeros _).append hdigits
  unfold positionalText
  split
  · have hwhole : Printable (if s.digits = 0 then Text.decimal s.digits
        else Text.decimal s.digits ++ List.replicate s.exponent.toNat '0') := by
      split
      · exact hdigits
      · exact hdigits.append (printable_zeros _)
    simp only
    split
    · exact hwhole.append (.of_all rfl)
    · exact hwhole
  · exact ((hpadded _).of_subset fun c hc => List.mem_of_mem_take hc).append
      (.cons (by decide) ((hpadded _).of_subset fun c hc => List.mem_of_mem_drop hc))

theorem printable_exponentText (s : Scaled) : Printable (exponentText s) := by
  have hdigits := printable_decimal s.digits
  unfold exponentText
  refine Printable.append ?_ (.cons (by decide) (.cons ?_ (printable_decimal _)))
  · split
    · next d heq => exact heq ▸ hdigits
    · next d rest _ heq =>
      rw [heq] at hdigits
      exact .cons (hdigits d (List.mem_cons_self ..)) (.cons (by decide)
        (hdigits.of_subset fun c hc => List.mem_cons_of_mem d hc))
    · exact .nil
  · split <;> decide

theorem Layout.printable_binary (l : Layout) (b : Binary) : Printable (l.binary b) := by
  unfold Layout.binary
  simp only
  split
  · exact printable_positionalText _ _
  · split
    · exact printable_positionalText _ _
    · exact printable_exponentText _

theorem Layout.printable_json (x : Float) : Printable (Layout.json.text x).toList := by
  unfold Layout.text
  split
  · exact .of_all rfl
  · exact .of_all rfl
  · exact .of_all rfl
  · rw [String.toList_ofList]
    exact printable_binary _ _
  · rw [String.toList_ofList]
    exact .cons (by decide) (printable_binary _ _)

end Decimal

/-! ### Strings, arrays and objects -/

namespace Json.Writer

theorem printable_inString (c : Char) : Printable (inString c) := by
  have hhex : ∀ n < 16, 32 ≤ (Text.hexDigit n).toNat := by decide
  rcases inString_cases c with ⟨hc, -, -, hle⟩ | ⟨e, hc, -, hle, -⟩ | ⟨hc, hlow⟩
  · rw [hc]
    exact .cons hle .nil
  · rw [hc]
    exact .cons (by decide) (.cons hle .nil)
  · rw [hc]
    exact Printable.append (.of_all rfl : Printable ['\\', 'u', '0', '0'])
      (.cons (hhex _ (by omega)) (.cons (hhex _ (by omega)) .nil))

theorem printable_quoted (cs : List Char) : Printable (quoted cs) := by
  refine .cons (by decide) (.append (fun c hc => ?_) (.of_all rfl))
  obtain ⟨d, -, hd⟩ := List.mem_flatMap.1 hc
  exact printable_inString d c hd

theorem printable_stringOrNull (s : Option String) : Printable (stringOrNull s) := by
  cases s with
  | none => exact .of_all rfl
  | some s => exact printable_quoted s.toList

theorem printable_separated {items : List (List Char)} (h : ∀ item ∈ items, Printable item) :
    Printable (separated items) := by
  induction items with
  | nil => exact .nil
  | cons item rest ih =>
    obtain ⟨hitem, hrest⟩ := List.forall_mem_cons.1 h
    cases rest with
    | nil => exact hitem
    | cons next rest => exact hitem.append (.cons (by decide) (ih hrest))

theorem printable_bracketed {items : List (List Char)} (h : ∀ item ∈ items, Printable item) :
    Printable (bracketed items) :=
  .cons (by decide) ((printable_separated h).append (.of_all rfl))

theorem printable_braced {fields : List (String × List Char)}
    (h : ∀ field ∈ fields, Printable field.2) : Printable (braced fields) := by
  refine .cons (by decide) (.append (printable_separated fun item hitem => ?_) (.of_all rfl))
  obtain ⟨field, hfield, rfl⟩ := List.mem_map.1 hitem
  exact (printable_quoted _).append (.cons (by decide) (h field hfield))

end Json.Writer

/-! ### Values, messages and dead letters -/

open Json.Writer

namespace Value

mutual
/-- The text of a value of any nesting is printable. -/
theorem printable_written : (v : Value) → Printable v.written
  | .null => .of_all rfl
  | .bool true => .of_all rfl
  | .bool false => .of_all rfl
  | .int n => printable_intText n.toInt
  | .float x => Decimal.Layout.printable_json x
  | .str s => printable_quoted s.toList
  | .array items => printable_bracketed (printable_writtenItems items)
  | .map entries => printable_braced (printable_writtenEntries entries)

theorem printable_writtenItems : (items : List Value) →
    ∀ text ∈ writtenItems items, Printable text
  | [] => fun _ h => by cases h
  | item :: rest =>
    List.forall_mem_cons.2 ⟨printable_written item, printable_writtenItems rest⟩

theorem printable_writtenEntries : (entries : List (String × Value)) →
    ∀ field ∈ writtenEntries entries, Printable field.2
  | [] => fun _ h => by cases h
  | (_, value) :: rest =>
    List.forall_mem_cons.2 ⟨printable_written value, printable_writtenEntries rest⟩
end

end Value

theorem Message.printable_written (m : Message) : Printable m.written := by
  refine printable_braced fun field hfield => ?_
  simp only [List.mem_cons, List.not_mem_nil, or_false] at hfield
  rcases hfield with rfl | rfl | rfl | rfl | rfl
  · exact printable_quoted _
  · exact printable_quoted _
  · exact printable_quoted _
  · exact printable_braced (Value.printable_writtenEntries _)
  · exact Value.printable_written _

/-- The line of a dead letter is printable, whatever message and fault it tells of. -/
theorem DeadLetters.printable_line (now : Timestamp) (m : Message) (fault : Fault) :
    Printable (line now m fault) := by
  refine printable_braced fun field hfield => ?_
  simp only [List.mem_cons, List.not_mem_nil, or_false] at hfield
  rcases hfield with rfl | rfl | rfl | rfl | rfl
  · exact printable_quoted _
  · exact printable_stringOrNull _
  · exact printable_quoted _
  · exact printable_quoted _
  · exact m.printable_written

end Aggregation
