import Aggregation.Proofs.Roster

/-! What is registered, told from what was asked and answered.

A group is registered under a key from the call that made it for that key until a call removes the
key with the group's id (`Held`). Each call adds to what was asked and answered so far and changes
the roster accordingly (`Recorded.step`), so after any calls the registry maps exactly what is
held, and the groups made are those evicted and those registered, each once (`Recorded.calls`).
The ids of the groups must differ: a key is removed together with an id, and an id that is used
again would name a newer group. -/
namespace Aggregation.Roster

/-! ### Calls -/

/-- What can be asked of a roster whose groups are left alone. A group is made from an id it may
take; what key it is made with is its maker's choice. -/
inductive Call where
  | getOrCreate (key : String) (make : Nat → Group)
  | get (key : String)
  | remove (key : String) (id : Nat)
  | contains (key : String)
  | keys
  | groups

inductive Answer where
  | group (g : Group) (created : Bool)
  | found (g : Option Group)
  | flag (b : Bool)
  | keys (keys : List String)
  | groups (gs : List Group)

def call (r : Roster) : Call → Answer × Roster
  | .getOrCreate key make =>
    let (g, created, r) := r.getOrCreate key make
    (.group g created, r)
  | .get key => (.found (r.registered? key), r)
  | .remove key id =>
    let (removed, r) := r.remove key id
    (.flag removed, r)
  | .contains key => (.flag (r.registry.contains key), r)
  | .keys => (.keys r.registry.keys, r)
  | .groups => (.groups r.live, r)

/-- The calls made one after the other, each with its answer, and the roster after them. -/
def calls (r : Roster) : List Call → List (Call × Answer) × Roster
  | [] => ([], r)
  | c :: rest =>
    let (answer, r) := r.call c
    let (log, r) := calls r rest
    ((c, answer) :: log, r)

/-- The key that a call may put or remove. -/
def Call.key? : Call → Option String
  | .getOrCreate key _ => some key
  | .remove key _ => some key
  | _ => none

/-- The group that a call made, and its key. -/
def made? : Call × Answer → Option (String × Group)
  | (.getOrCreate key _, .group g true) => some (key, g)
  | _ => none

/-- The key that a call evicted, and the id it named. -/
def evicted? : Call × Answer → Option (String × Nat)
  | (.remove key id, .flag true) => some (key, id)
  | _ => none

/-- Some call made a group for a key, and no call after it removes the key with the group's id. -/
def Held (log : List (Call × Answer)) (key : String) (g : Group) : Prop :=
  ∃ before x after, log = before ++ x :: after ∧ made? x = some (key, g) ∧
    ∀ answer, (.remove key g.id, answer) ∉ after

/-! ### What is registered -/

section Registered
variable {r : Roster} {key : String} {g : Group}

theorem get?_of_registered? (h : r.registered? key = some g) :
    r.registry.get? key = some g.id := by
  obtain ⟨id, hid, hg⟩ := Option.bind_eq_some_iff.1 h
  rwa [id_of_group? hg]

theorem registered?_of_get?_none (h : r.registry.get? key = none) : r.registered? key = none := by
  rw [registered?, h, Option.bind_none]

/-- Every registered group is on the roster. -/
def Known (r : Roster) : Prop :=
  ∀ key id, r.registry.get? key = some id → ∃ g, r.group? id = some g

theorem Known.get?_iff (hknown : r.Known) {id : Nat} :
    r.registry.get? key = some id ↔ ∃ g, r.registered? key = some g ∧ g.id = id := by
  constructor
  · intro hkey
    obtain ⟨g, hg⟩ := hknown key id hkey
    exact ⟨g, by rw [registered?, hkey, Option.bind_some, hg], id_of_group? hg⟩
  · rintro ⟨g, hg, rfl⟩
    exact get?_of_registered? hg

theorem Known.get?_none (hknown : r.Known) (h : r.registered? key = none) :
    r.registry.get? key = none := by
  refine Option.eq_none_iff_forall_ne_some.2 fun id hid => ?_
  obtain ⟨g, hg, -⟩ := hknown.get?_iff.1 hid
  rw [h] at hg
  cases hg

theorem Known.mem_keys_iff (hknown : r.Known) :
    key ∈ r.registry.keys ↔ ∃ g, r.registered? key = some g := by
  refine Entries.mem_names_iff.trans ⟨fun ⟨id, hid⟩ => ?_, fun ⟨g, hg⟩ => ?_⟩
  · obtain ⟨g, hg, -⟩ := hknown.get?_iff.1 hid
    exact ⟨g, hg⟩
  · exact ⟨g.id, get?_of_registered? hg⟩

theorem mem_live_iff : g ∈ r.live ↔ ∃ key, r.registered? key = some g := by
  simp only [live, List.mem_filterMap, Registry.mem_ids]
  constructor
  · rintro ⟨id, ⟨key, hkey⟩, hg⟩
    exact ⟨key, by rw [registered?, hkey, Option.bind_some, hg]⟩
  · rintro ⟨key, hg⟩
    obtain ⟨id, hkey, hg⟩ := Option.bind_eq_some_iff.1 hg
    exact ⟨id, ⟨key, hkey⟩, hg⟩

/-- A new group is found under its key, if its id is new. -/
theorem registered?_create_self (hkey : r.registry.get? key = none)
    (hid : r.group? g.id = none) : (r.create key g).registered? key = some g := by
  show ((r.registry.getOrCreate key g.id).2.get? key).bind (r.create key g).group? = _
  rw [Registry.get?_getOrCreate hkey, if_pos rfl, Option.bind_some, group?_create, hid,
    Option.none_or, if_pos rfl]

theorem Known.registered?_create (hknown : r.Known) (hkey : r.registry.get? key = none)
    {other : String} (hne : other ≠ key) :
    (r.create key g).registered? other = r.registered? other := by
  show ((r.registry.getOrCreate key g.id).2.get? other).bind (r.create key g).group? = _
  rw [Registry.get?_getOrCreate hkey, if_neg hne, registered?]
  cases hother : r.registry.get? other with
  | none => rfl
  | some id =>
    obtain ⟨y, hy⟩ := hknown other id hother
    rw [Option.bind_some, Option.bind_some, group?_create, hy, Option.some_or]

theorem registered?_remove {id : Nat} (h : r.registry.get? key = some id) (other : String) :
    (r.remove key id).2.registered? other = if other = key then none else r.registered? other := by
  show ((r.registry.remove key id).2.get? other).bind r.group? = _
  rw [Registry.get?_remove, h]
  by_cases ho : other = key <;> simp [ho, registered?]

end Registered

/-! ### One call -/

/-- What an answered call does to a roster. -/
inductive Does (r : Roster) (x : Call × Answer) : Roster → Prop where
  | nothing (hmade : made? x = none) (hevicted : evicted? x = none)
      (hkept : ∀ key id, x.1 = .remove key id → r.registry.get? key ≠ some id) : Does r x r
  | makes (key : String) (g : Group) (hkey : r.registry.get? key = none)
      (hmade : made? x = some (key, g)) (hevicted : evicted? x = none)
      (hcall : x.1.key? = some key) : Does r x (r.create key g)
  | evicts (key : String) (id : Nat) (hkey : r.registry.get? key = some id)
      (hmade : made? x = none) (hevicted : evicted? x = some (key, id))
      (hcall : x.1 = .remove key id) : Does r x (r.remove key id).2

theorem remove_of_ne {r : Roster} {key : String} {id : Nat} (h : r.registry.get? key ≠ some id) :
    r.remove key id = (false, r) := by
  simp only [remove, Registry.remove, h, if_false]

theorem call_does {r : Roster} (hknown : r.Known) (c : Call) :
    Does r (c, (r.call c).1) (r.call c).2 := by
  cases c with
  | getOrCreate key make =>
    cases hreg : r.registered? key with
    | some g =>
      simp only [call, getOrCreate, hreg]
      exact .nothing rfl rfl fun _ _ hcall => by cases hcall
    | none =>
      simp only [call, getOrCreate, hreg]
      exact .makes key _ (hknown.get?_none hreg) rfl rfl rfl
  | remove key id =>
    by_cases hkey : r.registry.get? key = some id
    · refine .evicts key id hkey rfl ?_ rfl
      simp only [call, remove, Registry.remove, hkey, if_true, evicted?]
    · simp only [call, remove_of_ne hkey]
      refine .nothing rfl rfl fun other oid hcall => ?_
      cases hcall
      exact hkey
  | _ => exact .nothing rfl rfl fun _ _ hcall => by cases hcall

theorem held_concat {log : List (Call × Answer)} {x : Call × Answer} {key : String} {g : Group} :
    Held (log ++ [x]) key g ↔
      made? x = some (key, g) ∨ Held log key g ∧ x.1 ≠ .remove key g.id := by
  constructor
  · rintro ⟨before, y, after, hlog, hmade, hkept⟩
    obtain ⟨rfl, rfl, rfl⟩ | ⟨init, rfl, rfl⟩ := concat_eq_append_cons.1 hlog
    · exact .inl hmade
    · refine .inr ⟨⟨before, y, init, rfl, hmade, fun answer hm => ?_⟩, fun hremove => ?_⟩
      · exact hkept answer (List.mem_append_left _ hm)
      · exact hkept x.2 (by simp [← hremove])
  · rintro (hmade | ⟨⟨before, y, after, rfl, hmade, hkept⟩, hne⟩)
    · exact ⟨log, x, [], rfl, hmade, fun _ => List.not_mem_nil⟩
    · refine ⟨before, y, after ++ [x], by simp, hmade, fun answer hm => ?_⟩
      rcases List.mem_append.1 hm with hm | hm
      · exact hkept answer hm
      · exact hne (by rw [← List.mem_singleton.1 hm])

/-- What is on the roster after the calls so far. -/
structure Recorded (log : List (Call × Answer)) (r : Roster) : Prop where
  known : r.Known
  groups : r.groups = (log.filterMap made?).map Prod.snd
  held : ∀ key g, r.registered? key = some g ↔ Held log key g
  /-- What was made was evicted or is registered, and not both. -/
  settled : ((log.filterMap made?).map fun x => (x.1, x.2.id)).Perm
    (log.filterMap evicted? ++ r.registry.live.entries)

namespace Recorded
variable {log : List (Call × Answer)} {r next : Roster} {x : Call × Answer}

theorem ne_remove {y : String × Group} (h : made? x = some y) (key : String) (id : Nat) :
    x.1 ≠ .remove key id := by
  rcases x with ⟨_ | _ | _ | _ | _ | _, answer⟩ <;> simp_all [made?]

theorem empty : Recorded [] Roster.empty := by
  refine ⟨nofun, rfl, fun key g => ⟨nofun, ?_⟩, .refl _⟩
  rintro ⟨before, x, after, h, -⟩
  simp at h

/-- A roster with one more group knows it as well. -/
theorem known_create (h : r.Known) {key : String} {g : Group}
    (hkey : r.registry.get? key = none) : (r.create key g).Known := by
  intro other id hget
  change (r.registry.getOrCreate key g.id).2.get? other = some id at hget
  rw [Registry.get?_getOrCreate hkey] at hget
  rw [group?_create]
  split at hget
  · obtain rfl := Option.some.inj hget
    cases r.group? g.id <;> simp
  · obtain ⟨y, hy⟩ := h other id hget
    exact ⟨y, by rw [hy, Option.some_or]⟩

theorem known_remove (h : r.Known) (key : String) (id : Nat) : (r.remove key id).2.Known := by
  intro other oid hget
  change (r.registry.remove key id).2.get? other = some oid at hget
  rw [Registry.get?_remove] at hget
  split at hget
  · cases hget
  · exact h other oid hget

theorem nothing (h : Recorded log r) (hmade : made? x = none) (hevicted : evicted? x = none)
    (hkept : ∀ key id, x.1 = .remove key id → r.registry.get? key ≠ some id) :
    Recorded (log ++ [x]) r := by
  refine ⟨h.known, ?_, fun key g => ?_, ?_⟩
  · simpa [hmade] using h.groups
  · rw [held_concat, hmade, ← h.held]
    refine ⟨fun hg => .inr ⟨hg, fun hcall => ?_⟩, fun hg => ?_⟩
    · exact hkept key g.id hcall (get?_of_registered? hg)
    · exact (hg.resolve_left nofun).1
  · simpa [hmade, hevicted] using h.settled

theorem makes (h : Recorded log r) {key : String} {g : Group} (hkey : r.registry.get? key = none)
    (hid : r.group? g.id = none) (hmade : made? x = some (key, g)) (hevicted : evicted? x = none) :
    Recorded (log ++ [x]) (r.create key g) := by
  refine ⟨known_create h.known hkey, ?_, fun other y => ?_, ?_⟩
  · simp [create, hmade, h.groups]
  · rw [held_concat, hmade, ← h.held]
    by_cases ho : other = key
    · subst ho
      simp [registered?_create_self hkey hid, registered?_of_get?_none hkey]
    · have hne : key ≠ other := fun e => ho e.symm
      simp [h.known.registered?_create hkey ho, hne, ne_remove hmade]
  · have hentries : (r.create key g).registry.live.entries =
        r.registry.live.entries ++ [(key, g.id)] := by
      simp only [create, Registry.getOrCreate, hkey]
      exact Entries.put_of_get?_none hkey g.id
    rw [hentries]
    simpa [hmade, hevicted] using h.settled.append_right [(key, g.id)]

theorem evicts (h : Recorded log r) {key : String} {id : Nat}
    (hkey : r.registry.get? key = some id) (hmade : made? x = none)
    (hevicted : evicted? x = some (key, id)) (hcall : x.1 = .remove key id) :
    Recorded (log ++ [x]) (r.remove key id).2 := by
  refine ⟨known_remove h.known key id, ?_, fun other y => ?_, ?_⟩
  · show r.groups = _
    simpa [hmade] using h.groups
  · rw [registered?_remove hkey, held_concat, hmade, hcall, ← h.held]
    by_cases ho : other = key
    · subst ho
      simp only [if_true, reduceCtorEq, false_or, ne_eq, false_iff, not_and, not_not]
      intro hy
      rw [get?_of_registered? hy] at hkey
      rw [Option.some.inj hkey]
    · have hne : key ≠ other := fun e => ho e.symm
      simp [ho, hne]
  · have hentries : r.registry.live.entries.Perm
        ((key, id) :: (r.remove key id).2.registry.live.entries) := by
      simp only [remove, Registry.remove, hkey, if_true]
      exact Entries.perm_cons_erase hkey
    have hsettled := h.settled.trans (hentries.append_left _)
    simpa [hmade, hevicted] using hsettled

/-- One more call is recorded, if the ids of the groups stay distinct. -/
theorem step (h : Recorded log r) (hx : Does r x next)
    (hd : (next.groups.map Group.id).Nodup) : Recorded (log ++ [x]) next := by
  cases hx with
  | nothing hmade hevicted hkept => exact h.nothing hmade hevicted hkept
  | makes key g hkey hmade hevicted _ =>
    have hid : r.group? g.id = none := by
      rw [create, List.map_append, List.nodup_append] at hd
      refine List.find?_eq_none.2 fun y hy => ?_
      simpa using hd.2.2 y.id (List.mem_map_of_mem hy) g.id (by simp)
    exact h.makes hkey hid hmade hevicted
  | evicts key id hkey hmade hevicted hcall => exact h.evicts hkey hmade hevicted hcall

end Recorded

/-! ### Calls in turn -/

theorem groups_call (r : Roster) (c : Call) : r.groups <+: (r.call c).2.groups := by
  cases c with
  | getOrCreate key make =>
    cases hreg : r.registered? key with
    | some g => simp [call, getOrCreate, hreg]
    | none => simp [call, getOrCreate, hreg, create]
  | _ => exact List.prefix_refl _

theorem groups_calls (r : Roster) (asked : List Call) :
    r.groups <+: (r.calls asked).2.groups := by
  induction asked generalizing r with
  | nil => exact List.prefix_refl _
  | cons c rest ih => exact (groups_call r c).trans (ih (r.call c).2)

theorem Recorded.calls {log : List (Call × Answer)} {r : Roster} (h : Recorded log r)
    (asked : List Call) (hd : ((r.calls asked).2.groups.map Group.id).Nodup) :
    Recorded (log ++ (r.calls asked).1) (r.calls asked).2 := by
  induction asked generalizing log r with
  | nil =>
    rw [show r.calls [] = ([], r) from rfl, List.append_nil]
    exact h
  | cons c rest ih =>
    -- Ids that are distinct in the end are so all along.
    have hgroups := (groups_calls (r.call c).2 rest).map Group.id
    have hrest := ih (h.step (call_does h.known c) (hgroups.sublist.nodup hd)) hd
    rwa [List.append_assoc] at hrest

/-- Groups that take the ids they are made from have distinct ones. -/
theorem Numbered.calls {r : Roster} (h : r.Numbered) {asked : List Call}
    (hmake : ∀ key make, .getOrCreate key make ∈ asked → ∀ id, (make id).id = id) :
    (r.calls asked).2.Numbered := by
  induction asked generalizing r with
  | nil => exact h
  | cons c rest ih =>
    refine ih ?_ fun key make hm => hmake key make (.tail _ hm)
    cases c with
    | getOrCreate key make =>
      cases hreg : r.registered? key with
      | some g =>
        simp only [getOrCreate, hreg]
        exact h
      | none =>
        simp only [getOrCreate, hreg]
        exact h.create key (hmake key make List.mem_cons_self r.nextId)
    | _ => exact h

/-! ### What the history tells -/

/-- A call leaves what is registered under other keys than its own. -/
theorem Does.registered? {r next : Roster} {x : Call × Answer} (hknown : r.Known)
    (h : Does r x next) {key : String} (hkey : x.1.key? ≠ some key) :
    next.registered? key = r.registered? key := by
  cases h with
  | nothing => rfl
  | makes other g hnone _ _ hcall =>
    exact hknown.registered?_create hnone fun e => hkey (e ▸ hcall)
  | evicts other id hget _ _ hcall =>
    have hne : key ≠ other := fun e => hkey (by rw [hcall, e]; rfl)
    rw [registered?_remove hget, if_neg hne]

theorem call_getOrCreate_iff {r : Roster} {key : String} {make : Nat → Group} {g : Group} :
    (r.call (.getOrCreate key make)).1 = .group g false ↔ r.registered? key = some g := by
  cases hreg : r.registered? key <;> simp [call, getOrCreate, hreg]

theorem call_remove_iff {r : Roster} {key : String} {id : Nat} :
    (r.call (.remove key id)).1 = .flag true ↔ r.registry.get? key = some id := by
  by_cases hkey : r.registry.get? key = some id <;> simp [call, remove, Registry.remove, hkey]

/-- A removal that does not succeed changes nothing. -/
theorem call_remove_of_ne {r : Roster} {key : String} {id : Nat}
    (h : r.registry.get? key ≠ some id) : r.call (.remove key id) = (.flag false, r) := by
  rw [call, remove_of_ne h]

/-- Distinct groups are evicted by removals of distinct ids. -/
theorem Recorded.nodup_evicted {log : List (Call × Answer)} {r : Roster} (h : Recorded log r)
    (hd : (r.groups.map Group.id).Nodup) : ((log.filterMap evicted?).map Prod.snd).Nodup := by
  have hids : (r.groups.map Group.id).Perm
      ((log.filterMap evicted?).map Prod.snd ++ r.registry.live.entries.map Prod.snd) := by
    have hsettled := h.settled.map Prod.snd
    rw [List.map_map, List.map_append] at hsettled
    rwa [h.groups, List.map_map]
  exact (List.nodup_append.1 (hids.nodup_iff.1 hd)).1

/-- Whatever is asked of an empty roster, as long as the groups it makes have distinct ids: a key is
answered with the group that an earlier call made for it, if no call since has removed the key with
that group's id, and with none otherwise. A removal succeeds exactly if the group now under the key
has the id, and changes nothing otherwise; at most one succeeds for a group, so whoever holds an
older group's id cannot remove a newer one. As many groups are registered as were made and not
removed, under distinct keys, and a call leaves what is under other keys than its own. -/
theorem registry_from_history (asked : List Call)
    (hd : ((empty.calls asked).2.groups.map Group.id).Nodup) :
    let log := (empty.calls asked).1
    let r := (empty.calls asked).2
    r.groups = (log.filterMap made?).map Prod.snd ∧
      (∀ key g, (r.call (.get key)).1 = .found (some g) ↔ Held log key g) ∧
      (∀ key make g, (r.call (.getOrCreate key make)).1 = .group g false ↔ Held log key g) ∧
      (∀ key id,
        ((r.call (.remove key id)).1 = .flag true ↔ ∃ g, Held log key g ∧ g.id = id) ∧
        ((r.call (.remove key id)).1 ≠ .flag true → r.call (.remove key id) = (.flag false, r))) ∧
      (∀ g ∈ r.groups, ((log.filterMap evicted?).map Prod.snd).count g.id ≤ 1) ∧
      (∀ key g, Held log key g → ∀ older ∈ r.groups, older ≠ g →
        r.call (.remove key older.id) = (.flag false, r)) ∧
      r.registry.size + (log.filterMap evicted?).length = (log.filterMap made?).length ∧
      r.registry.keys.Nodup ∧
      (∀ key, (key ∈ r.registry.keys ↔ ∃ g, Held log key g) ∧
        ((r.call (.contains key)).1 = .flag true ↔ ∃ g, Held log key g)) ∧
      (∀ g, g ∈ r.live ↔ ∃ key, Held log key g) ∧
      ∀ c key, c.key? ≠ some key → (r.call c).2.registered? key = r.registered? key := by
  intro log r
  have hrecorded : Recorded log r := Recorded.empty.calls asked hd
  have hknown := hrecorded.known
  have hheld := hrecorded.held
  refine ⟨hrecorded.groups, fun key g => ?_, fun key make g => ?_, fun key id => ⟨?_, fun h => ?_⟩,
    fun g _ => ?_, fun key g hg older holder hne => ?_, ?_, r.registry.live.distinct,
    fun key => ⟨?_, ?_⟩, fun g => ?_, fun c key => (call_does hknown c).registered? hknown⟩
  · rw [← hheld]
    simp [call]
  · rw [← hheld]
    exact call_getOrCreate_iff
  · rw [call_remove_iff, hknown.get?_iff]
    simp only [hheld]
  · exact call_remove_of_ne fun hkey => h (call_remove_iff.2 hkey)
  · exact List.nodup_iff_count_le_one.1 (hrecorded.nodup_evicted hd) g.id
  · rw [← hheld] at hg
    refine call_remove_of_ne fun hkey => hne ?_
    obtain ⟨id, -, hmem⟩ := Option.bind_eq_some_iff.1 hg
    rw [get?_of_registered? hg] at hkey
    exact List.inj_on_of_nodup_map hd holder (mem_of_group? hmem) (Option.some.inj hkey).symm
  · simpa [Registry.size, Nat.add_comm] using hrecorded.settled.length_eq.symm
  · simp only [hknown.mem_keys_iff, hheld]
  · simp only [← hheld, ← hknown.mem_keys_iff]
    rw [Registry.keys, Bag.names, Entries.mem_names_iff, ← Option.isSome_iff_exists]
    simp only [call, Answer.flag.injEq]
    rfl
  · simp only [mem_live_iff, hheld]

/-- A key is removed and used again, by a group that was made with another key; the id of the first
group then removes nothing. -/
theorem registry_from_history_reused :
    let group (key : String) (id : Nat) :=
      Group.create id key Params.none "MESSAGE_SEQUENCE" ⟨"sink", true, true⟩ 0
    let asked : List Call := [.getOrCreate "A" (group "A"), .remove "A" 1,
      .getOrCreate "A" (group "B"), .remove "A" 1]
    let r := (empty.calls asked).2
    (r.groups.map Group.id).Nodup ∧ r.call (.remove "A" 1) = (.flag false, r) ∧
      (r.call (.get "A")).1 = .found (some (group "B" 2)) := by
  intro group asked r
  have hempty : empty.Numbered := rfl
  have hnumbered : r.Numbered := by
    refine hempty.calls fun key make hm => ?_
    simp only [asked, List.mem_cons, Call.getOrCreate.injEq, reduceCtorEq, List.not_mem_nil,
      false_or, or_false] at hm
    rcases hm with ⟨-, rfl⟩ | ⟨-, rfl⟩
    · exact fun _ => rfl
    · exact fun _ => rfl
  have hd : (r.groups.map Group.id).Nodup := by
    rw [show r.groups.map Group.id = _ from hnumbered]
    exact List.nodup_range'
  have hheld : Held (empty.calls asked).1 "A" (group "B" 2) :=
    ⟨(empty.calls asked).1.take 2, (.getOrCreate "A" (group "B"), .group (group "B" 2) true),
      [(.remove "A" 1, .flag false)], rfl, rfl, fun answer h => by simp [group, Group.create] at h⟩
  obtain ⟨-, hget, -, -, -, holder, -⟩ := registry_from_history asked hd
  exact ⟨hd, holder "A" _ hheld (group "A" 1) (.head _) (by simp [group, Group.create]),
    (hget "A" _).2 hheld⟩

end Aggregation.Roster
