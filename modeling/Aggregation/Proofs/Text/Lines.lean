import Aggregation.Text.Split

/-! The lines of a text that grows by whole lines.

A text is cut at a newline just as its two sides are (`split_append`), so to a text that is empty or
ends in a newline, one more line adds that line and changes no other (`lines_append_line`), and so
do any number of lines (`lines_append_ended`). -/
namespace Aggregation.Text

theorem split_ne_nil (mark : Char) (cs : List Char) : split mark cs ≠ [] := by
  cases cs with
  | nil => exact List.cons_ne_nil _ _
  | cons c rest =>
    rw [split]
    split
    · exact List.cons_ne_nil _ _
    · cases split mark rest <;> exact List.cons_ne_nil _ _

theorem joinFirst_append {pieces : List (List Char)} (h : pieces ≠ []) (c : Char)
    (more : List (List Char)) : joinFirst c (pieces ++ more) = joinFirst c pieces ++ more := by
  cases pieces with
  | nil => exact absurd rfl h
  | cons piece rest => rfl

theorem split_append (mark : Char) (before after : List Char) :
    split mark (before ++ mark :: after) = split mark before ++ split mark after := by
  induction before with
  | nil => simp [split]
  | cons c before ih =>
    rw [List.cons_append, split, split, ih]
    split
    · rfl
    · exact joinFirst_append (split_ne_nil mark before) c _

theorem split_of_notMem {mark : Char} {cs : List Char} (h : mark ∉ cs) : split mark cs = [cs] := by
  induction cs with
  | nil => rfl
  | cons c cs ih =>
    obtain ⟨hne, hrest⟩ := not_or.1 fun hm => h (List.mem_cons.2 hm)
    rw [split, if_neg fun he => hne he.symm, ih hrest]
    rfl

/-- A last newline begins no line of its own. -/
theorem lines_newline (cs : List Char) : lines (cs ++ ['\n']) = split '\n' cs := by
  rw [lines, split_append]
  simp [split]

/-- A text that a further line can be added to. -/
def Complete (cs : List Char) : Prop :=
  cs = [] ∨ ∃ rest, cs = rest ++ ['\n']

theorem Complete.append_line (cs line : List Char) : Complete (cs ++ (line ++ ['\n'])) :=
  .inr ⟨cs ++ line, (List.append_assoc ..).symm⟩

theorem lines_append_line {cs line : List Char} (h : Complete cs) (hline : '\n' ∉ line) :
    lines (cs ++ (line ++ ['\n'])) = lines cs ++ [line] := by
  rcases h with rfl | ⟨rest, rfl⟩
  · rw [List.nil_append, lines_newline, split_of_notMem hline]
    rfl
  · rw [← List.append_assoc, lines_newline, lines_newline, List.append_assoc, List.singleton_append,
      split_append, split_of_notMem hline]

/-- Lines with their ends. -/
def ended (added : List (List Char)) : List Char :=
  added.flatMap (· ++ ['\n'])

theorem ended_append (added more : List (List Char)) :
    ended (added ++ more) = ended added ++ ended more :=
  List.flatMap_append

/-- To a text that lines can be added to, whole lines add themselves and change no other, and more
can be added to it then. -/
theorem lines_append_ended {cs : List Char} (h : Complete cs) {added : List (List Char)}
    (hadded : ∀ line ∈ added, '\n' ∉ line) :
    Complete (cs ++ ended added) ∧ lines (cs ++ ended added) = lines cs ++ added := by
  induction added generalizing cs with
  | nil =>
    rw [ended, List.flatMap_nil, List.append_nil, List.append_nil]
    exact ⟨h, rfl⟩
  | cons line added ih =>
    obtain ⟨hline, hrest⟩ := List.forall_mem_cons.1 hadded
    have hcs : cs ++ ended (line :: added) = cs ++ (line ++ ['\n']) ++ ended added := by
      rw [ended, List.flatMap_cons, ← List.append_assoc, ended]
    obtain ⟨hcomplete, hlines⟩ := ih (Complete.append_line cs line) hrest
    rw [hcs]
    exact ⟨hcomplete, by rw [hlines, lines_append_line h hline, List.append_assoc]; rfl⟩

end Aggregation.Text
