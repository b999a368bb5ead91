/-! Insertion-ordered maps from names to values.

A map is a list of entries. Setting a name that is present overwrites its value in place, setting
a new one appends it, and erasing one closes the gap, so the names are always listed in the order
in which each was first set since it was last erased. `Entries` has the operations on plain lists;
a `Bag` carries the proof that its names are pairwise distinct. -/
namespace Aggregation

/-! ### Lists of entries -/

namespace Entries
variable {α : Type}

def names (entries : List (String × α)) : List String :=
  entries.map Prod.fst

/-- The value of the first entry with a name. -/
def get? (name : String) : List (String × α) → Option α
  | [] => none
  | (other, value) :: rest => if other = name then some value else get? name rest

/-- Overwrite in place, or append. -/
def put (name : String) (value : α) : List (String × α) → List (String × α)
  | [] => [(name, value)]
  | (other, held) :: rest =>
    if other = name then (other, value) :: rest else (other, held) :: put name value rest

def erase (name : String) : List (String × α) → List (String × α)
  | [] => []
  | (other, held) :: rest => if other = name then rest else (other, held) :: erase name rest

/-- What setting entries one after the other leaves: of repeated names the last value, at the
first position. -/
def ofList (entries : List (String × α)) : List (String × α) :=
  entries.foldl (fun held entry => put entry.1 entry.2 held) []

theorem names_put (name : String) (value : α) (entries : List (String × α)) :
    names (put name value entries) =
      if name ∈ names entries then names entries else names entries ++ [name] := by
  induction entries with
  | nil => simp [names, put]
  | cons entry rest ih =>
    obtain ⟨other, held⟩ := entry
    by_cases h : other = name
    · simp [names, put, h]
    · have h' : ¬ name = other := fun e => h e.symm
      simp only [names] at ih
      by_cases hm : name ∈ rest.map Prod.fst
      · simp [names, put, h, ih, hm]
      · simp [names, put, h, h', ih, hm]

theorem mem_names_erase {name other : String} {entries : List (String × α)}
    (h : other ∈ names (erase name entries)) : other ∈ names entries := by
  induction entries with
  | nil => exact h
  | cons entry rest ih =>
    obtain ⟨key, held⟩ := entry
    by_cases hk : key = name
    · simp only [erase, hk, if_true] at h
      exact List.mem_cons_of_mem _ h
    · simp only [erase, hk, if_false, names, List.map_cons, List.mem_cons] at h ⊢
      exact h.imp id ih

theorem nodup_put {name : String} {value : α} {entries : List (String × α)}
    (h : (names entries).Nodup) : (names (put name value entries)).Nodup := by
  rw [names_put]
  split
  · exact h
  · next hm =>
    refine List.nodup_append.2 ⟨h, List.nodup_cons.2 ⟨List.not_mem_nil, List.nodup_nil⟩, ?_⟩
    intro a ha b hb hab
    rw [List.mem_singleton] at hb
    exact hm (hb ▸ hab ▸ ha)

theorem nodup_erase {name : String} {entries : List (String × α)}
    (h : (names entries).Nodup) : (names (erase name entries)).Nodup := by
  induction entries with
  | nil => exact h
  | cons entry rest ih =>
    obtain ⟨key, held⟩ := entry
    obtain ⟨hkey, hrest⟩ := List.nodup_cons.1 h
    by_cases hk : key = name
    · simp only [erase, hk, if_true]
      exact hrest
    · simp only [erase, hk, if_false]
      exact List.nodup_cons.2 ⟨fun hm => hkey (mem_names_erase hm), ih hrest⟩

end Entries

/-! ### Bags -/

/-- Entries under pairwise distinct names, in the order in which the names were set. -/
structure Bag (α : Type) where
  entries : List (String × α)
  distinct : (Entries.names entries).Nodup

namespace Bag
variable {α : Type}

def empty : Bag α :=
  ⟨[], List.nodup_nil⟩

def names (bag : Bag α) : List String :=
  Entries.names bag.entries

def get? (bag : Bag α) (name : String) : Option α :=
  Entries.get? name bag.entries

def put (bag : Bag α) (name : String) (value : α) : Bag α :=
  ⟨Entries.put name value bag.entries, Entries.nodup_put bag.distinct⟩

def erase (bag : Bag α) (name : String) : Bag α :=
  ⟨Entries.erase name bag.entries, Entries.nodup_erase bag.distinct⟩

/-- The bag left by setting entries one after the other. -/
def ofList (entries : List (String × α)) : Bag α :=
  entries.foldl (fun bag entry => bag.put entry.1 entry.2) empty

end Bag

end Aggregation
