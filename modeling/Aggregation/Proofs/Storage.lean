import Aggregation.Storage
import Aggregation.Proofs.Bag

/-! What appending does to the files of a directory.

Which file a path leads to does not depend on the files that are there (`locate_stable`), so what
was opened for appending stays open. Text that is appended to a file stands at its end, and no other
file changes (`append_taken`); opening changes the text of no file (`openForAppend_ok`). -/
namespace Aggregation.Storage

/-- The text of a file; a file that is not there has none yet. -/
def text? (s : Storage) (name : String) : Option (List Char) :=
  match s.files.get? name with
  | some (.text cs) => some cs
  | some .bytes => none
  | none => some []

/-- The file that is appended to by a path. -/
def file? (s : Storage) (path : String) : Option String :=
  match s.locate .appending path with
  | .file name => some name
  | _ => none

namespace Place

def isSomewhere : Place → Bool
  | .nowhere _ => false
  | _ => true

/-- Whether what is written there is taken. -/
def takes : Place → Bool
  | .file _ => true
  | .nullDevice => true
  | _ => false

end Place

/-! ### Paths -/

/-- Whatever files there are, a path leads to the same place, or nowhere. -/
theorem inside_stable (s t : Storage) (closed : Bool) (pieces : List String) :
    s.inside .appending closed pieces = t.inside .appending closed pieces ∨
      (s.inside .appending closed pieces).isSomewhere = false ∧
        (t.inside .appending closed pieces).isSomewhere = false := by
  induction pieces with
  | nil => exact .inl rfl
  | cons name rest ih =>
    simp only [inside]
    split
    · exact ih
    · split
      · exact .inl rfl
      · split
        · exact .inl rfl
        · -- a last name is a file or is made one, and behind it nothing leads anywhere
          cases rest.isEmpty <;> cases closed <;> cases (s.files.get? name).isSome <;>
            cases (t.files.get? name).isSome <;> simp [beyondFile, Place.isSomewhere]

theorem locate_stable (s t : Storage) (path : String) :
    s.locate .appending path = t.locate .appending path ∨
      (s.locate .appending path).isSomewhere = false ∧
        (t.locate .appending path).isSomewhere = false := by
  simp only [locate]
  generalize (if path.toList.take root.toList.length = root.toList then
    rootBytes + (path.utf8ByteSize - root.utf8ByteSize) else path.utf8ByteSize) = bytes
  split
  · exact .inl rfl
  · split
    · exact .inl rfl
    · split
      · exact .inl rfl
      · split
        · exact inside_stable ..
        · split
          · exact .inl rfl
          · exact inside_stable ..

theorem locate_eq {s : Storage} {path : String}
    (h : (s.locate .appending path).isSomewhere = true) (t : Storage) :
    t.locate .appending path = s.locate .appending path := by
  rcases locate_stable s t path with heq | ⟨hno, -⟩
  · exact heq.symm
  · rw [hno] at h
    cases h

theorem file?_stable {s : Storage} {path : String}
    (h : (s.locate .appending path).isSomewhere = true) (t : Storage) :
    t.file? path = s.file? path := by
  rw [file?, file?, locate_eq h]

/-! ### Opening and appending -/

theorem text?_put (s : Storage) (name other : String) (cs : List Char) :
    text? ⟨s.files.put name (.text cs)⟩ other = if other = name then some cs else s.text? other := by
  have hget : (s.files.put name (.text cs)).get? other =
      if other = name then some (.text cs) else s.files.get? other := Entries.get?_put ..
  rw [text?, hget]
  by_cases h : other = name
  · rw [if_pos h, if_pos h]
  · rw [if_neg h, if_neg h]
    rfl

theorem locate_of_file? {s : Storage} {path name : String} (h : s.file? path = some name) :
    s.locate .appending path = .file name := by
  unfold file? at h
  split at h
  · next hplace =>
    cases h
    exact hplace
  · cases h

theorem openForAppend_file {s : Storage} {path name : String} (h : s.file? path = some name) :
    ∃ t, s.openForAppend path = .ok t := by
  simp only [openForAppend, locate_of_file? h]
  cases s.files.get? name with
  | none => exact ⟨_, rfl⟩
  | some content => exact ⟨_, rfl⟩

/-- What opens leads somewhere, and opening it changes the text of no file. -/
theorem openForAppend_ok {s t : Storage} {path : String} (h : s.openForAppend path = .ok t) :
    (s.locate .appending path).isSomewhere = true ∧ t.text? = s.text? := by
  unfold openForAppend at h
  split at h
  · cases h
  · next hplace =>
    cases h
    exact ⟨by rw [hplace]; rfl, rfl⟩
  · next hplace =>
    cases h
    exact ⟨by rw [hplace]; rfl, rfl⟩
  · next name hplace =>
    refine ⟨by rw [hplace]; rfl, ?_⟩
    split at h
    · cases h
      rfl
    · next hnew =>
      cases h
      funext other
      rw [text?_put]
      split
      · next he => rw [he, text?, hnew]
      · rfl

theorem append_refused {s : Storage} {path : String}
    (h : (s.locate .appending path).takes = false) (cs : List Char) :
    ∃ failure, s.append path cs = .error failure := by
  unfold append
  split
  · exact ⟨_, rfl⟩
  · exact ⟨_, rfl⟩
  · next hplace =>
    rw [hplace] at h
    cases h
  · next hplace =>
    rw [hplace] at h
    cases h

theorem append_file {s : Storage} {path name : String} (h : s.file? path = some name)
    (cs : List Char) :
    ∃ t, s.append path cs = .ok t ∧ t.text? name = (s.text? name).map (· ++ cs) ∧
      ∀ other, other ≠ name → t.text? other = s.text? other := by
  simp only [append, locate_of_file? h]
  cases hheld : s.files.get? name with
  | none =>
    have htext : s.text? name = some [] := by rw [text?, hheld]
    exact ⟨_, rfl, by rw [text?_put, if_pos rfl, htext]; rfl,
      fun other hne => by rw [text?_put, if_neg hne]⟩
  | some content =>
    cases content with
    | text held =>
      have htext : s.text? name = some held := by rw [text?, hheld]
      exact ⟨_, rfl, by rw [text?_put, if_pos rfl, htext]; rfl,
        fun other hne => by rw [text?_put, if_neg hne]⟩
    | bytes =>
      have htext : s.text? name = none := by rw [text?, hheld]
      exact ⟨s, rfl, by rw [htext]; rfl, fun _ _ => rfl⟩

/-- Text that is taken stands at the end of the file that its path leads to, and no other file
changes. -/
theorem append_taken {s : Storage} {path : String}
    (h : (s.locate .appending path).takes = true) (cs : List Char) :
    ∃ t, s.append path cs = .ok t ∧ ∀ name, t.text? name =
      if s.file? path = some name then (s.text? name).map (· ++ cs) else s.text? name := by
  cases hplace : s.locate .appending path with
  | nowhere failure => rw [hplace] at h; cases h
  | fullDevice => rw [hplace] at h; cases h
  | nullDevice =>
    refine ⟨s, by rw [append, hplace], fun name => ?_⟩
    have hnone : s.file? path ≠ some name := by simp [file?, hplace]
    rw [if_neg hnone]
  | file name =>
    have hfile : s.file? path = some name := by rw [file?, hplace]
    obtain ⟨t, hok, hname, hothers⟩ := append_file hfile cs
    refine ⟨t, hok, fun other => ?_⟩
    by_cases he : name = other
    · rw [← he, hname, if_pos hfile]
    · rw [hothers other fun heq => he heq.symm, if_neg]
      rw [hfile]
      exact fun heq => he (Option.some.inj heq)

end Aggregation.Storage
