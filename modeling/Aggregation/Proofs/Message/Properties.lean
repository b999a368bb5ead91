import Aggregation.Message
import Aggregation.Proofs.Bag
import Mathlib.Data.List.Induction

/-! Properties, told from the edits that were made.

What a bag holds is told twice from its history: a name has the value last set for it, unless it was
removed since (`LastSet`), and stands where it was first set since it was last removed (`FirstSet`).
Each edit adds to the history and changes the bag accordingly (`Bag.Recorded.step`), so that after
any edits the bag holds what its history tells, in the order that it tells (`Bag.Recorded.run`). A
bag that was filled before the first edit counts as filled by setting its entries in turn. -/
namespace Aggregation

namespace Bag

/-! ### Histories -/

inductive Edit (α : Type) where
  | set (name : String) (value : α)
  | remove (name : String)

namespace Edit
variable {α : Type}

def name : Edit α → String
  | .set name _ => name
  | .remove name => name

/-- The value was set for the name, which is not mentioned after that. -/
def LastSet (history : List (Edit α)) (name : String) (value : α) : Prop :=
  ∃ before after, history = before ++ .set name value :: after ∧ ∀ e ∈ after, e.name ≠ name

/-- The edit at `i` set the name, which had no value then and was not removed after that. -/
def FirstSet (history : List (Edit α)) (name : String) (i : Nat) : Prop :=
  ∃ before value after, history = before ++ .set name value :: after ∧ before.length = i ∧
    (∀ held, ¬ LastSet before name held) ∧ .remove name ∉ after

variable {history : List (Edit α)} {e : Edit α} {name : String} {value : α} {i : Nat}

theorem lastSet_concat : LastSet (history ++ [e]) name value ↔
    e = .set name value ∨ LastSet history name value ∧ e.name ≠ name := by
  constructor
  · rintro ⟨before, after, hhistory, hafter⟩
    obtain ⟨rfl, rfl, rfl⟩ | ⟨init, rfl, rfl⟩ := concat_eq_append_cons.1 hhistory
    · exact .inl rfl
    · obtain ⟨hinit, he⟩ := List.forall_mem_append.1 hafter
      exact .inr ⟨⟨before, init, rfl, hinit⟩, he e List.mem_cons_self⟩
  · rintro (rfl | ⟨⟨before, after, rfl, hafter⟩, hne⟩)
    · exact ⟨history, [], rfl, nofun⟩
    · refine ⟨before, after ++ [e], by simp, List.forall_mem_append.2 ⟨hafter, ?_⟩⟩
      exact fun x hx => List.mem_singleton.1 hx ▸ hne

theorem firstSet_concat : FirstSet (history ++ [e]) name i ↔
    FirstSet history name i ∧ e ≠ .remove name ∨
      i = history.length ∧ (∃ value, e = .set name value) ∧
        ∀ held, ¬ LastSet history name held := by
  constructor
  · rintro ⟨before, value, after, hhistory, hi, hnew, hafter⟩
    obtain ⟨rfl, rfl, rfl⟩ | ⟨init, rfl, rfl⟩ := concat_eq_append_cons.1 hhistory
    · exact .inr ⟨hi.symm, ⟨value, rfl⟩, hnew⟩
    · rw [List.mem_append, List.mem_singleton, not_or] at hafter
      exact .inl ⟨⟨before, value, init, rfl, hi, hnew, hafter.1⟩, fun he => hafter.2 he.symm⟩
  · rintro (⟨⟨before, value, after, rfl, hi, hnew, hafter⟩, hne⟩ | ⟨hi, ⟨value, rfl⟩, hnew⟩)
    · refine ⟨before, value, after ++ [e], by simp, hi, hnew, ?_⟩
      rw [List.mem_append, List.mem_singleton, not_or]
      exact ⟨hafter, fun he => hne he.symm⟩
    · exact ⟨history, value, [], rfl, hi.symm, hnew, List.not_mem_nil⟩

theorem FirstSet.lt_length (h : FirstSet history name i) : i < history.length := by
  obtain ⟨before, value, after, rfl, rfl, -⟩ := h
  simp

/-- No edit is the first set of a name that has a value. -/
theorem FirstSet.of_concat (h : FirstSet (history ++ [e]) name i)
    (hvalue : LastSet history name value) : FirstSet history name i := by
  obtain ⟨hfirst, -⟩ | ⟨-, -, hnew⟩ := firstSet_concat.1 h
  · exact hfirst
  · exact absurd hvalue (hnew value)

/-- A name has a value exactly if it was set a first time. -/
theorem exists_firstSet_iff :
    (∃ i, FirstSet history name i) ↔ ∃ value, LastSet history name value := by
  induction history using List.reverseRecOn with
  | nil => simp [FirstSet, LastSet]
  | append_singleton history e ih =>
    simp only [lastSet_concat, firstSet_concat]
    constructor
    · rintro ⟨i, ⟨hfirst, hkept⟩ | ⟨-, ⟨value, hset⟩, -⟩⟩
      · obtain ⟨value, hvalue⟩ := ih.1 ⟨i, hfirst⟩
        by_cases hname : e.name = name
        · cases e with
          | set other new => exact ⟨new, .inl (by rw [← hname]; rfl)⟩
          | remove other => exact absurd (congrArg Edit.remove hname) hkept
        · exact ⟨value, .inr ⟨hvalue, hname⟩⟩
      · exact ⟨value, .inl hset⟩
    · rintro ⟨value, hset | ⟨hvalue, hname⟩⟩
      · by_cases hheld : ∃ held, LastSet history name held
        · obtain ⟨i, hfirst⟩ := ih.2 hheld
          exact ⟨i, .inl ⟨hfirst, by simp [hset]⟩⟩
        · exact ⟨history.length, .inr ⟨rfl, ⟨value, hset⟩, not_exists.1 hheld⟩⟩
      · obtain ⟨i, hfirst⟩ := ih.2 ⟨value, hvalue⟩
        exact ⟨i, .inl ⟨hfirst, fun he => hname (by rw [he]; rfl)⟩⟩

end Edit

/-! ### Edits in turn -/

section Edits
open Edit
variable {α : Type}

def edit (bag : Bag α) : Edit α → Bag α
  | .set name value => bag.put name value
  | .remove name => bag.erase name

theorem get?_edit (bag : Bag α) (e : Edit α) (name : String) (value : α) :
    (bag.edit e).get? name = some value ↔
      e = .set name value ∨ bag.get? name = some value ∧ e.name ≠ name := by
  cases e with
  | set other new =>
    show Entries.get? name (Entries.put other new bag.entries) = _ ↔ _
    rw [Entries.get?_put]
    by_cases hname : name = other
    · simp [hname, Edit.name]
    · simp [hname, Ne.symm hname, Edit.name, Bag.get?]
  | remove other =>
    show Entries.get? name (Entries.erase other bag.entries) = _ ↔ _
    rw [Entries.get?_erase bag.distinct]
    by_cases hname : name = other
    · simp [hname, Edit.name]
    · simp [hname, Ne.symm hname, Edit.name, Bag.get?]

/-- Names are listed as they were first set. -/
def InOrder (history : List (Edit α)) (names : List String) : Prop :=
  names.Pairwise fun a b => ∀ i j, FirstSet history a i → FirstSet history b j → i < j

/-- What a bag holds after the edits so far. -/
structure Recorded (history : List (Edit α)) (bag : Bag α) : Prop where
  values : ∀ name value, bag.get? name = some value ↔ LastSet history name value
  order : InOrder history bag.names

namespace Recorded
variable {history : List (Edit α)} {bag : Bag α} {name : String}

theorem mem_names_iff (h : Recorded history bag) :
    name ∈ bag.names ↔ ∃ value, LastSet history name value := by
  simp only [← h.values]
  exact Entries.mem_names_iff

theorem empty : Recorded [] (Bag.empty : Bag α) := by
  refine ⟨fun name value => ⟨nofun, ?_⟩, .nil⟩
  rintro ⟨before, after, h, -⟩
  simp at h

/-- Whatever the next edit is, the names that are listed already stay in their order. -/
theorem order_concat (h : Recorded history bag) (e : Edit α) :
    InOrder (history ++ [e]) bag.names := by
  refine h.order.imp_of_mem fun ha hb horder i j hi hj => ?_
  obtain ⟨_, ha⟩ := h.mem_names_iff.1 ha
  obtain ⟨_, hb⟩ := h.mem_names_iff.1 hb
  exact horder i j (hi.of_concat ha) (hj.of_concat hb)

theorem step (h : Recorded history bag) (e : Edit α) :
    Recorded (history ++ [e]) (bag.edit e) := by
  refine ⟨fun name value => ?_, ?_⟩
  · rw [get?_edit, lastSet_concat, h.values]
  · have horder := h.order_concat e
    cases e with
    | remove name =>
      show InOrder _ (Entries.names (Entries.erase name bag.entries))
      rw [Entries.names_erase]
      exact horder.sublist List.erase_sublist
    | set name value =>
      show InOrder _ (Entries.names (Entries.put name value bag.entries))
      rw [Entries.names_put]
      split
      · exact horder
      · next hnew =>
        -- A new name is first set by this edit, and so after every name that is listed.
        refine List.pairwise_append.2 ⟨horder, List.pairwise_singleton .., ?_⟩
        intro a ha b hb i j hi hj
        obtain rfl := List.mem_singleton.1 hb
        obtain ⟨held, hheld⟩ := h.mem_names_iff.1 ha
        obtain ⟨hj, -⟩ | ⟨rfl, -⟩ := firstSet_concat.1 hj
        · exact absurd (h.mem_names_iff.2 (exists_firstSet_iff.1 ⟨j, hj⟩)) hnew
        · exact (hi.of_concat hheld).lt_length

theorem run (h : Recorded history bag) (edits : List (Edit α)) :
    Recorded (history ++ edits) (edits.foldl edit bag) := by
  induction edits generalizing history bag with
  | nil => rwa [List.append_nil]
  | cons e rest ih =>
    rw [List.append_cons]
    exact ih (h.step e)

end Recorded

/-- The edits that set the entries of a bag in turn. -/
def sets (bag : Bag α) : List (Edit α) :=
  bag.entries.map fun entry => .set entry.1 entry.2

theorem recorded_sets (bag : Bag α) : Recorded bag.sets bag := by
  have hbag : bag.sets.foldl edit empty = bag := by
    rw [sets, List.foldl_map]
    exact ofList_entries bag
  have h := Recorded.empty.run bag.sets
  rwa [List.nil_append, hbag] at h

end Edits

end Bag

namespace Message
open Bag Bag.Edit

/-! ### Messages -/

/-- An edit of a message's properties, with what it gives back. Setting a property of a message and
making a message with one more property are the same. -/
def edit (m : Message) : Edit Value → Option Value × Message
  | .set name value => (none, m.setProperty name value)
  | .remove name => m.removeProperty name

/-- The edits made one after the other, each with what it gave back, and the message after them. -/
def edits (m : Message) : List (Edit Value) → List (Edit Value × Option Value) × Message
  | [] => ([], m)
  | e :: rest =>
    let (given, m) := m.edit e
    let (log, m) := edits m rest
    ((e, given) :: log, m)

theorem edit_eq (m : Message) (e : Edit Value) :
    (m.edit e).2 = {m with properties := m.properties.edit e} := by
  cases e <;> rfl

theorem edits_eq (m : Message) (made : List (Edit Value)) :
    (m.edits made).2 = {m with properties := made.foldl Bag.edit m.properties} := by
  induction made generalizing m with
  | nil => rfl
  | cons e rest ih =>
    rw [edits, ih, edit_eq]
    rfl

theorem edits_log (m : Message) (before later : List (Edit Value)) (e : Edit Value) :
    (m.edits (before ++ e :: later)).1[before.length]? =
      some (e, ((m.edits before).2.edit e).1) := by
  induction before generalizing m with
  | nil => rfl
  | cons first rest ih => exact ih (m.edit first).2

/-- Whatever edits are made of a message, its properties have distinct names, and each has the value
last set for it, if it was not removed since. The names are listed as they were first set since they
were last removed: a name that is listed is overwritten where it stands, is taken out from between
the others, which stay as they are, and then goes to the end if it is set again, as does a name that
is not listed. What a removal gives back is the property that the message had before. Nothing else
in the message changes. -/
theorem properties_from_history (m : Message) (made : List (Edit Value)) :
    let history := m.properties.sets ++ made
    let log := (m.edits made).1
    let r := (m.edits made).2
    r.properties.names.Nodup ∧
      (∀ name value, r.property? name = some value ↔ LastSet history name value) ∧
      (∀ name, name ∈ r.properties.names ↔ ∃ i, FirstSet history name i) ∧
      InOrder history r.properties.names ∧
      (∀ name held, r.property? name = some held → ∃ init tail,
        r.properties.entries = init ++ (name, held) :: tail ∧
        (r.removeProperty name).2.properties.entries = init ++ tail ∧ ∀ value,
          (r.setProperty name value).properties.entries = init ++ (name, value) :: tail ∧
          ((r.removeProperty name).2.setProperty name value).properties.entries =
            init ++ tail ++ [(name, value)]) ∧
      (∀ name, r.property? name = none → r.removeProperty name = (none, r) ∧
        ∀ value, (r.setProperty name value).properties.entries =
          r.properties.entries ++ [(name, value)]) ∧
      (∀ before name later, made = before ++ .remove name :: later →
        log[before.length]? = some (.remove name, (m.edits before).2.property? name)) ∧
      r.id = m.id ∧ r.action = m.action ∧ r.timestamp = m.timestamp ∧ r.payload = m.payload := by
  intro history log r
  have hr : r = {m with properties := made.foldl Bag.edit m.properties} := edits_eq m made
  have hrecorded : Recorded history r.properties := by
    rw [hr]
    exact (recorded_sets m.properties).run made
  refine ⟨r.properties.distinct, hrecorded.values, fun name => ?_, hrecorded.order,
    fun name held hheld => ?_, fun name hnone => ⟨?_, fun value => ?_⟩,
    fun before name later hmade => ?_, ?_⟩
  · rw [hrecorded.mem_names_iff, exists_firstSet_iff]
  · obtain ⟨init, tail, hsplit, herase, hput⟩ := Entries.exists_split hheld
    refine ⟨init, tail, hsplit, herase, fun value => ⟨hput value, ?_⟩⟩
    have hgone : Entries.get? name (Entries.erase name r.properties.entries) = none := by
      rw [Entries.get?_erase r.properties.distinct, if_pos rfl]
    rw [← herase]
    exact Entries.put_of_get?_none hgone value
  · have herase : r.properties.erase name = r.properties :=
      ext_entries (Entries.erase_of_get?_none hnone)
    rw [removeProperty, hnone, herase]
  · exact Entries.put_of_get?_none hnone value
  · rw [show log = (m.edits made).1 from rfl, hmade, edits_log]
    rfl
  · rw [hr]
    exact ⟨rfl, rfl, rfl, rfl⟩

example (id action : String) (timestamp : Timestamp) (a b : Value) :
    ((ofAction id action timestamp).edits [.set "b" b, .set "a" a, .set "b" a]).2.properties.names =
        ["b", "a"] ∧
      ((ofAction id action timestamp).edits [.set "b" b, .set "a" a, .remove "b", .set "b" b]
        ).2.properties.names = ["a", "b"] :=
  ⟨rfl, rfl⟩

end Message

end Aggregation
