import Aggregation.Bag

/-! What a map holds after setting and erasing a name.

Lookups say it name by name (`get?_put`, `get?_erase`), the list of entries says it for all of
them: a new name goes to the end (`put_of_get?_none`), one that is present is overwritten or taken
out where its entry stands (`exists_split`), and the others stay. Entries that are set one after the
other under distinct names are all kept as they are (`ofList_of_nodup`), and so a bag is what its
own entries make of an empty one (`Bag.ofList_entries`). -/
namespace Aggregation

/-- A list with one more element at its end is cut before that element, or before an earlier one. -/
theorem concat_eq_append_cons {α : Type} {l before after : List α} {x y : α} :
    l ++ [y] = before ++ x :: after ↔
      (before = l ∧ x = y ∧ after = []) ∨ ∃ init, l = before ++ x :: init ∧ after = init ++ [y] := by
  constructor
  · intro h
    rcases List.eq_nil_or_concat after with rfl | ⟨init, z, rfl⟩
    · obtain ⟨rfl, hy⟩ := List.append_inj' h rfl
      exact .inl ⟨rfl, (List.singleton_inj.1 hy).symm, rfl⟩
    · rw [List.concat_eq_append, ← List.cons_append, ← List.append_assoc] at h
      obtain ⟨rfl, hz⟩ := List.append_inj' h rfl
      exact .inr ⟨init, rfl, by rw [List.concat_eq_append, hz]⟩
  · rintro (⟨rfl, rfl, rfl⟩ | ⟨init, rfl, rfl⟩)
    · rfl
    · rw [List.append_assoc, List.cons_append]

namespace Entries
variable {α : Type}

theorem get?_put (name other : String) (value : α) (entries : List (String × α)) :
    get? other (put name value entries) =
      if other = name then some value else get? other entries := by
  induction entries with
  | nil => simp [put, get?, eq_comm]
  | cons entry rest ih =>
    obtain ⟨key, held⟩ := entry
    by_cases hk : key = name
    · by_cases ho : other = name
      · simp [put, get?, hk, ho]
      · have ho' : ¬ name = other := fun e => ho e.symm
        simp [put, get?, hk, ho, ho']
    · by_cases ho : key = other
      · have ho' : ¬ other = name := fun e => hk (ho.trans e)
        simp [put, get?, ho, ho']
      · simp [put, get?, hk, ho, ih]

theorem mem_names_of_get? {name : String} {value : α} {entries : List (String × α)}
    (h : get? name entries = some value) : name ∈ names entries := by
  induction entries with
  | nil => simp [get?] at h
  | cons entry rest ih =>
    obtain ⟨key, held⟩ := entry
    by_cases hk : key = name
    · simp [names, hk]
    · simp only [get?, hk, if_false] at h
      exact List.mem_cons_of_mem _ (ih h)

theorem get?_eq_none {name : String} {entries : List (String × α)} (h : name ∉ names entries) :
    get? name entries = none := by
  cases hg : get? name entries with
  | none => rfl
  | some value => exact absurd (mem_names_of_get? hg) h

theorem get?_erase {entries : List (String × α)} (hd : (names entries).Nodup)
    (name other : String) :
    get? other (erase name entries) = if other = name then none else get? other entries := by
  induction entries with
  | nil => simp [erase, get?]
  | cons entry rest ih =>
    obtain ⟨key, held⟩ := entry
    obtain ⟨hkey, hrest⟩ := List.nodup_cons.1 hd
    by_cases hk : key = name
    · by_cases ho : other = name
      · simp only [erase, hk, if_true, ho]
        exact get?_eq_none (hk ▸ hkey)
      · have ho' : ¬ name = other := fun e => ho e.symm
        simp [erase, get?, hk, ho, ho']
    · by_cases ho : key = other
      · have ho' : ¬ other = name := fun e => hk (ho.trans e)
        simp [erase, get?, ho, ho']
      · simp [erase, get?, hk, ho, ih hrest]

theorem put_of_get?_none {name : String} {entries : List (String × α)}
    (h : get? name entries = none) (value : α) :
    put name value entries = entries ++ [(name, value)] := by
  induction entries with
  | nil => rfl
  | cons entry rest ih =>
    obtain ⟨key, held⟩ := entry
    by_cases hk : key = name
    · simp [get?, hk] at h
    · simp only [get?, hk, if_false] at h
      simp [put, hk, ih h]

/-- An entry is overwritten, or taken out, where it stands. -/
theorem exists_split {name : String} {held : α} {entries : List (String × α)}
    (h : get? name entries = some held) :
    ∃ init tail, entries = init ++ (name, held) :: tail ∧ erase name entries = init ++ tail ∧
      ∀ value, put name value entries = init ++ (name, value) :: tail := by
  induction entries with
  | nil => cases h
  | cons entry rest ih =>
    obtain ⟨key, value⟩ := entry
    by_cases hk : key = name
    · simp only [get?, hk, if_true, Option.some.injEq] at h
      exact ⟨[], rest, by simp [hk, h], by simp [erase, hk], fun value => by simp [put, hk]⟩
    · simp only [get?, hk, if_false] at h
      obtain ⟨init, tail, hsplit, herase, hput⟩ := ih h
      exact ⟨(key, value) :: init, tail, by rw [hsplit, List.cons_append],
        by simp [erase, hk, herase], fun new => by simp [put, hk, hput]⟩

theorem perm_cons_erase {name : String} {value : α} {entries : List (String × α)}
    (h : get? name entries = some value) : entries.Perm ((name, value) :: erase name entries) := by
  obtain ⟨init, tail, hsplit, herase, -⟩ := exists_split h
  rw [herase, hsplit]
  exact List.perm_middle

theorem erase_of_get?_none {name : String} {entries : List (String × α)}
    (h : get? name entries = none) : erase name entries = entries := by
  induction entries with
  | nil => rfl
  | cons entry rest ih =>
    obtain ⟨key, held⟩ := entry
    by_cases hk : key = name
    · simp [get?, hk] at h
    · simp only [get?, hk, if_false] at h
      simp [erase, hk, ih h]

theorem get?_of_mem {name : String} {value : α} {entries : List (String × α)}
    (hd : (names entries).Nodup) (h : (name, value) ∈ entries) :
    get? name entries = some value := by
  induction entries with
  | nil => cases h
  | cons entry rest ih =>
    obtain ⟨key, held⟩ := entry
    obtain ⟨hkey, hrest⟩ := List.nodup_cons.1 hd
    rcases List.mem_cons.1 h with he | hm
    · cases he
      simp [get?]
    · have hk : ¬ key = name := by
        rintro rfl
        exact hkey (List.mem_map.2 ⟨_, hm, rfl⟩)
      simp [get?, hk, ih hrest hm]

theorem mem_of_get? {name : String} {value : α} {entries : List (String × α)}
    (h : get? name entries = some value) : (name, value) ∈ entries :=
  (perm_cons_erase h).mem_iff.2 List.mem_cons_self

theorem get?_eq_some_iff {name : String} {value : α} {entries : List (String × α)}
    (hd : (names entries).Nodup) : get? name entries = some value ↔ (name, value) ∈ entries :=
  ⟨mem_of_get?, get?_of_mem hd⟩

/-- The order of entries is not seen by looking up names. -/
theorem get?_of_perm {entries other : List (String × α)} (hd : (names entries).Nodup)
    (h : entries.Perm other) (name : String) : get? name other = get? name entries := by
  have hother : (names other).Nodup := (h.map Prod.fst).nodup_iff.1 hd
  ext value
  rw [get?_eq_some_iff hother, get?_eq_some_iff hd, h.mem_iff]

theorem mem_names_iff {name : String} {entries : List (String × α)} :
    name ∈ names entries ↔ ∃ value, get? name entries = some value := by
  constructor
  · intro h
    induction entries with
    | nil => cases h
    | cons entry rest ih =>
      obtain ⟨key, held⟩ := entry
      by_cases hk : key = name
      · exact ⟨held, by simp [get?, hk]⟩
      · obtain ⟨value, hvalue⟩ := ih (List.mem_of_ne_of_mem (fun e => hk e.symm) h)
        exact ⟨value, by simp [get?, hk, hvalue]⟩
  · rintro ⟨value, h⟩
    exact mem_names_of_get? h

theorem names_erase (name : String) (entries : List (String × α)) :
    names (erase name entries) = (names entries).erase name := by
  induction entries with
  | nil => rfl
  | cons entry rest ih =>
    obtain ⟨key, held⟩ := entry
    by_cases hk : key = name
    · simp [erase, names, hk]
    · simp only [names] at ih
      simp [erase, names, hk, ih]

/-- Entries under distinct names are what setting them one after the other leaves. -/
theorem ofList_of_nodup {entries : List (String × α)} (h : (names entries).Nodup) :
    ofList entries = entries := by
  have hset : ∀ held rest : List (String × α), (names (held ++ rest)).Nodup →
      rest.foldl (fun held entry => put entry.1 entry.2 held) held = held ++ rest := by
    intro held rest
    induction rest generalizing held with
    | nil => intro _; exact (List.append_nil held).symm
    | cons entry rest ih =>
      obtain ⟨name, value⟩ := entry
      intro hnodup
      have hnew : name ∉ names held := by
        rw [names, List.map_append, List.map_cons] at hnodup
        exact fun hm => (List.nodup_append.1 hnodup).2.2 name hm name (List.mem_cons_self ..) rfl
      rw [List.foldl_cons, put_of_get?_none (get?_eq_none hnew), ih]
      · rw [List.append_assoc, List.singleton_append]
      · rwa [List.append_assoc, List.singleton_append]
  exact hset [] entries h

end Entries

namespace Bag
variable {α : Type}

theorem entries_ofList (entries : List (String × α)) :
    (ofList entries).entries = Entries.ofList entries :=
  (List.foldl_hom Bag.entries fun _ _ => rfl).symm

theorem ext_entries {bag other : Bag α} (h : bag.entries = other.entries) : bag = other := by
  cases bag
  cases other
  cases h
  rfl

theorem ofList_entries (bag : Bag α) : ofList bag.entries = bag :=
  ext_entries ((entries_ofList bag.entries).trans (Entries.ofList_of_nodup bag.distinct))

end Bag

end Aggregation

