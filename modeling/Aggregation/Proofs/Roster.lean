import Aggregation.Proofs.Bag
import Aggregation.Proofs.Group
import Aggregation.Roster
import Mathlib.Data.List.Nodup
import Mathlib.Data.List.Range

/-! What a roster keeps true of its groups.

A roster is `Tidy` when its groups are numbered in order of creation and the live ones are exactly
those that still collect, each under its own key. Then the group under a key is the collecting
group of that key (`Tidy.registered?_eq_some`), and creating, changing and retiring a group each
have one effect on what is found under the keys and on what the live groups hold. -/
namespace Aggregation

namespace Registry

theorem get?_getOrCreate {r : Registry} {key : String} (h : r.get? key = none) (id : Nat)
    (other : String) :
    (r.getOrCreate key id).2.get? other = if other = key then some id else r.get? other := by
  simp only [getOrCreate, h]
  exact Entries.get?_put key other id _

theorem get?_remove (r : Registry) (key : String) (id : Nat) (other : String) :
    (r.remove key id).2.get? other =
      if other = key ∧ r.get? key = some id then none else r.get? other := by
  by_cases hk : r.get? key = some id
  · simp only [remove, hk, if_true, and_true]
    exact Entries.get?_erase r.live.distinct key other
  · simp only [remove, hk, if_false, and_false]

theorem ids_getOrCreate {r : Registry} {key : String} (h : r.get? key = none) (id : Nat) :
    (r.getOrCreate key id).2.ids = r.ids ++ [id] := by
  simp only [getOrCreate, h, ids]
  show (Entries.put key id r.live.entries).map Prod.snd = _
  rw [Entries.put_of_get?_none h, List.map_append]
  rfl

theorem ids_remove {r : Registry} {key : String} {id : Nat} (h : r.get? key = some id) :
    r.ids.Perm (id :: (r.remove key id).2.ids) := by
  simp only [remove, h, if_true]
  exact (Entries.perm_cons_erase h).map Prod.snd

theorem size_eq (r : Registry) : r.size = r.ids.length :=
  (List.length_map _).symm

theorem size_getOrCreate {r : Registry} {key : String} (h : r.get? key = none) (id : Nat) :
    (r.getOrCreate key id).2.size = r.size + 1 := by
  rw [size_eq, size_eq, ids_getOrCreate h, List.length_append, List.length_singleton]

theorem size_remove {r : Registry} {key : String} {id : Nat} (h : r.get? key = some id) :
    r.size = (r.remove key id).2.size + 1 := by
  rw [size_eq, size_eq, (ids_remove h).length_eq, List.length_cons]

theorem mem_ids {r : Registry} {id : Nat} : id ∈ r.ids ↔ ∃ key, r.get? key = some id := by
  simp only [ids, List.mem_map]
  constructor
  · rintro ⟨⟨key, held⟩, hm, rfl⟩
    exact ⟨key, Entries.get?_of_mem r.live.distinct hm⟩
  · rintro ⟨key, h⟩
    exact ⟨(key, id), (Entries.perm_cons_erase h).mem_iff.2 (List.mem_cons_self ..), rfl⟩

end Registry

namespace Roster

/-! ### Finding groups by their ids -/

theorem id_of_group? {r : Roster} {id : Nat} {g : Group} (h : r.group? id = some g) :
    g.id = id := by
  simpa using List.find?_some h

theorem mem_of_group? {r : Roster} {id : Nat} {g : Group} (h : r.group? id = some g) :
    g ∈ r.groups :=
  List.mem_of_find?_eq_some h

theorem group?_update (r : Roster) (g : Group) (id : Nat) :
    (r.update g).group? id = (r.group? id).map fun h => if h.id = g.id then g else h := by
  simp only [group?, update, List.find?_map]
  congr 2
  funext h
  by_cases hid : h.id = g.id <;> simp [hid]

/-- The group that was changed, and the others as they were. -/
theorem group?_changed {r : Roster} {g x : Group} (hg : r.group? g.id = some g)
    (hid : x.id = g.id) (id : Nat) :
    (r.update x).group? id = if id = g.id then some x else r.group? id := by
  rw [group?_update]
  by_cases hsame : id = g.id
  · simp [hsame, hg, hid]
  · rw [if_neg hsame]
    cases hy : r.group? id with
    | none => rfl
    | some y =>
      have hne : ¬ y.id = x.id := fun e => hsame ((id_of_group? hy).symm.trans (e.trans hid))
      simp [hne]

theorem group?_create (r : Roster) (key : String) (g : Group) (id : Nat) :
    (r.create key g).group? id = (r.group? id).or (if g.id = id then some g else none) := by
  simp only [group?, create, List.find?_append]
  congr 1
  by_cases hid : g.id = id <;> simp [hid]

theorem mem_update {r : Roster} {g x : Group} :
    x ∈ (r.update g).groups ↔
      (x ∈ r.groups ∧ x.id ≠ g.id) ∨ (x = g ∧ ∃ y ∈ r.groups, y.id = g.id) := by
  simp only [update, List.mem_map]
  constructor
  · rintro ⟨y, hy, rfl⟩
    by_cases hid : y.id = g.id
    · exact .inr ⟨by simp [hid], y, hy, hid⟩
    · exact .inl (by simp [hid, hy])
  · rintro (⟨hx, hid⟩ | ⟨rfl, y, hy, hid⟩)
    · exact ⟨x, hx, by simp [hid]⟩
    · exact ⟨y, hy, by simp [hid]⟩

theorem registered?_update_map (r : Roster) (x : Group) (key : String) :
    (r.update x).registered? key =
      (r.registered? key).map fun h => if h.id = x.id then x else h := by
  simp only [registered?]
  show (r.registry.get? key).bind (r.update x).group? = _
  cases r.registry.get? key with
  | none => rfl
  | some id => exact group?_update r x id

/-- What groups are born with is not touched by a change to one of them. -/
theorem map_blank_update {r : Roster} {x : Group}
    (h : ∀ g ∈ r.groups, g.id = x.id → x.blank = g.blank) :
    (r.update x).groups.map Group.blank = r.groups.map Group.blank := by
  show (r.groups.map fun g => if g.id = x.id then x else g).map Group.blank = _
  rw [List.map_map]
  refine List.map_congr_left fun g hg => ?_
  by_cases hid : g.id = x.id
  · simp [hid, h g hg hid]
  · simp [hid]

/-! ### Numbered rosters -/

/-- Groups are numbered from one in order of creation. -/
def Numbered (r : Roster) : Prop :=
  r.groups.map Group.id = List.range' 1 r.groups.length

namespace Numbered
variable {r : Roster}

theorem eq_of_id (h : r.Numbered) {x y : Group} (hx : x ∈ r.groups) (hy : y ∈ r.groups)
    (hid : x.id = y.id) : x = y := by
  have hnodup : (r.groups.map Group.id).Nodup := by
    rw [show r.groups.map Group.id = _ from h]
    exact List.nodup_range'
  exact List.inj_on_of_nodup_map hnodup hx hy hid

theorem group?_of_mem (h : r.Numbered) {g : Group} (hm : g ∈ r.groups) :
    r.group? g.id = some g := by
  cases hf : r.group? g.id with
  | none => exact absurd BEq.rfl (List.find?_eq_none.1 hf g hm)
  | some x => rw [h.eq_of_id (mem_of_group? hf) hm (id_of_group? hf)]

/-- An id is never used again. -/
theorem id_lt_nextId (h : r.Numbered) {g : Group} (hm : g ∈ r.groups) : g.id < r.nextId := by
  have hid : g.id ∈ List.range' 1 r.groups.length := by
    rw [← show r.groups.map Group.id = _ from h]
    exact List.mem_map_of_mem hm
  have := (List.mem_range'_1.1 hid).2
  simp only [nextId]
  omega

theorem group?_nextId (h : r.Numbered) : r.group? r.nextId = none := by
  cases hf : r.group? r.nextId with
  | none => rfl
  | some x =>
    have hlt := h.id_lt_nextId (mem_of_group? hf)
    rw [id_of_group? hf] at hlt
    exact absurd hlt (Nat.lt_irrefl _)

theorem create (h : r.Numbered) (key : String) {g : Group} (hid : g.id = r.nextId) :
    (r.create key g).Numbered := by
  show (r.groups ++ [g]).map Group.id = List.range' 1 (r.groups ++ [g]).length
  rw [List.map_append, List.length_append, show r.groups.map Group.id = _ from h]
  simp only [List.map_cons, List.map_nil, hid, nextId, List.length_cons, List.length_nil,
    Nat.zero_add, List.range'_1_concat]
  rw [Nat.add_comm]

/-- A group is replaced by one of its id. -/
theorem update (h : r.Numbered) (x : Group) : (r.update x).Numbered := by
  show (r.groups.map fun g => if g.id = x.id then x else g).map Group.id =
    List.range' 1 (r.groups.map _).length
  rw [List.map_map, List.length_map, ← show r.groups.map Group.id = _ from h]
  refine List.map_congr_left fun y _ => ?_
  by_cases hid : y.id = x.id <;> simp [hid]

end Numbered

/-- No group is registered twice, if each is registered under its own key. -/
theorem ids_nodup {r : Roster} (h : ∀ key id, r.registry.get? key = some id →
    ∃ g, r.group? id = some g ∧ g.key = key) : r.registry.ids.Nodup := by
  have hentries : r.registry.live.entries.Nodup :=
    List.Nodup.of_map Prod.fst r.registry.live.distinct
  refine hentries.map_on ?_
  rintro ⟨key, id⟩ hx ⟨other, _⟩ hy rfl
  obtain ⟨g, hg, rfl⟩ := h key id (Entries.get?_of_mem r.registry.live.distinct hx)
  obtain ⟨x, hx, rfl⟩ := h other id (Entries.get?_of_mem r.registry.live.distinct hy)
  rw [Option.some.inj (hg.symm.trans hx)]

/-! ### Tidy rosters -/

structure Tidy (r : Roster) : Prop where
  /-- Groups are numbered from one in order of creation. -/
  numbered : r.groups.map Group.id = List.range' 1 r.groups.length
  /-- What is registered collects, under its own key. -/
  live : ∀ key id, r.registry.get? key = some id →
    ∃ g, r.group? id = some g ∧ g.key = key ∧ g.completed = false
  /-- What collects is registered. -/
  collecting : ∀ g ∈ r.groups, g.completed = false → r.registry.get? g.key = some g.id

theorem tidy_empty : Tidy empty :=
  ⟨rfl, fun _ _ h => absurd h (by simp [empty, Registry.get?, Registry.empty, Bag.get?, Bag.empty,
    Entries.get?]), fun _ h => absurd h List.not_mem_nil⟩

namespace Tidy
variable {r : Roster}

theorem eq_of_id (h : Tidy r) {x y : Group} (hx : x ∈ r.groups) (hy : y ∈ r.groups)
    (hid : x.id = y.id) : x = y :=
  Numbered.eq_of_id h.numbered hx hy hid

theorem group?_eq_some (h : Tidy r) {id : Nat} {g : Group} :
    r.group? id = some g ↔ g ∈ r.groups ∧ g.id = id := by
  constructor
  · exact fun hg => ⟨mem_of_group? hg, id_of_group? hg⟩
  · rintro ⟨hm, rfl⟩
    exact Numbered.group?_of_mem h.numbered hm

theorem group?_of_mem (h : Tidy r) {g : Group} (hm : g ∈ r.groups) : r.group? g.id = some g :=
  h.group?_eq_some.2 ⟨hm, rfl⟩

/-- An id is never used again. -/
theorem id_lt_nextId (h : Tidy r) {g : Group} (hm : g ∈ r.groups) : g.id < r.nextId :=
  Numbered.id_lt_nextId h.numbered hm

/-- The group under a key is the one of that key that collects. -/
theorem registered?_eq_some (h : Tidy r) {key : String} {g : Group} :
    r.registered? key = some g ↔ g ∈ r.groups ∧ g.key = key ∧ g.completed = false := by
  simp only [registered?, Option.bind_eq_some_iff]
  constructor
  · rintro ⟨id, hr, hg⟩
    obtain ⟨x, hx, hkey, hc⟩ := h.live key id hr
    obtain rfl : x = g := Option.some.inj (hx.symm.trans hg)
    exact ⟨mem_of_group? hg, hkey, hc⟩
  · rintro ⟨hm, rfl, hc⟩
    exact ⟨g.id, h.collecting g hm hc, h.group?_of_mem hm⟩

theorem registry_of_registered? (h : Tidy r) {key : String} {g : Group}
    (hg : r.registered? key = some g) : r.registry.get? key = some g.id := by
  obtain ⟨hm, rfl, hc⟩ := h.registered?_eq_some.1 hg
  exact h.collecting g hm hc

theorem registry_of_registered?_none (h : Tidy r) {key : String} (hg : r.registered? key = none) :
    r.registry.get? key = none := by
  cases hr : r.registry.get? key with
  | none => rfl
  | some id =>
    obtain ⟨g, hg', -⟩ := h.live key id hr
    simp [registered?, hr, hg'] at hg

/-- A group that collects is none that is completed. -/
theorem id_ne_of_completed (h : Tidy r) {key : String} {g x : Group} {id : Nat}
    (hg : r.registered? key = some g) (hx : r.group? id = some x) (hc : x.completed = true) :
    g.id ≠ id := by
  obtain ⟨hm, -, hgc⟩ := h.registered?_eq_some.1 hg
  intro hid
  rw [h.eq_of_id hm (mem_of_group? hx) (hid.trans (id_of_group? hx).symm), hc] at hgc
  cases hgc

/-! ### Creating a group -/

theorem group?_nextId (h : Tidy r) : r.group? r.nextId = none :=
  Numbered.group?_nextId h.numbered

theorem create (h : Tidy r) {g : Group} (hk : r.registry.get? g.key = none) (hid : g.id = r.nextId)
    (hc : g.completed = false) : Tidy (r.create g.key g) := by
  have hget := Registry.get?_getOrCreate hk g.id
  refine ⟨Numbered.create h.numbered g.key hid, fun key id hr => ?_, fun x hx hxc => ?_⟩
  · rw [group?_create]
    change (r.registry.getOrCreate g.key g.id).2.get? key = some id at hr
    rw [hget] at hr
    split at hr
    · next hkey =>
      obtain rfl : g.id = id := by simpa using hr
      exact ⟨g, by rw [hid, h.group?_nextId, ← hid]; simp, hkey.symm, hc⟩
    · obtain ⟨x, hx, hkey, hxc⟩ := h.live key id hr
      exact ⟨x, by simp [hx], hkey, hxc⟩
  · show (r.registry.getOrCreate g.key g.id).2.get? x.key = some x.id
    rw [hget]
    rcases List.mem_append.1 hx with hx | hx
    · have hreg := h.collecting x hx hxc
      have hne : x.key ≠ g.key := fun e => by simp [← e, hreg] at hk
      simp [hne, hreg]
    · obtain rfl := List.mem_singleton.1 hx
      simp

theorem registered?_create (h : Tidy r) {g : Group} (hk : r.registry.get? g.key = none)
    (hid : g.id = r.nextId) (hc : g.completed = false) (key : String) :
    (r.create g.key g).registered? key = if key = g.key then some g else r.registered? key := by
  have hnew := h.create hk hid hc
  by_cases hkey : key = g.key
  · rw [if_pos hkey]
    exact hnew.registered?_eq_some.2 ⟨List.mem_append_right _ (List.mem_singleton_self g),
      hkey.symm, hc⟩
  · rw [if_neg hkey]
    ext x
    rw [hnew.registered?_eq_some, h.registered?_eq_some]
    show (x ∈ r.groups ++ [g] ∧ _) ↔ _
    simp only [List.mem_append, List.mem_singleton]
    constructor
    · rintro ⟨hx | rfl, hxk, hxc⟩
      · exact ⟨hx, hxk, hxc⟩
      · exact absurd hxk.symm hkey
    · exact fun ⟨hx, hxk, hxc⟩ => ⟨.inl hx, hxk, hxc⟩

/-! ### Changing a group -/

/-- A change that keeps a group's key and does not complete it. -/
theorem update (h : Tidy r) {g x : Group} (hg : r.group? x.id = some g) (hk : x.key = g.key)
    (hc : x.completed = g.completed) : Tidy (r.update x) := by
  refine ⟨Numbered.update h.numbered x, fun key id hr => ?_, fun y hy hyc => ?_⟩
  · obtain ⟨y, hy, hkey, hyc⟩ := h.live key id hr
    rw [group?_update, hy]
    by_cases hid : y.id = x.id
    · obtain rfl : y = g := h.eq_of_id (mem_of_group? hy) (mem_of_group? hg)
        (hid.trans (id_of_group? hg).symm)
      exact ⟨x, by simp [hid], hk.trans hkey, hc.trans hyc⟩
    · exact ⟨y, by simp [hid], hkey, hyc⟩
  · show r.registry.get? y.key = some y.id
    rcases mem_update.1 hy with ⟨hy, -⟩ | ⟨rfl, -⟩
    · exact h.collecting y hy hyc
    · have hid := id_of_group? hg
      rw [hk, ← hid]
      exact h.collecting g (mem_of_group? hg) (hc ▸ hyc)

/-- Replacing a group by itself changes nothing. -/
theorem update_self (h : Tidy r) {g : Group} (hm : g ∈ r.groups) : r.update g = r := by
  have hsame : (r.groups.map fun h => if h.id = g.id then g else h) = r.groups := by
    refine (List.map_congr_left fun y hy => ?_).trans (List.map_id _)
    by_cases hid : y.id = g.id
    · rw [if_pos hid, h.eq_of_id hy hm hid]
      rfl
    · rw [if_neg hid]
      rfl
  simp only [Roster.update, hsame]

theorem registered?_update (h : Tidy r) {key : String} {g x : Group}
    (hg : r.registered? key = some g) (hid : x.id = g.id) (other : String) :
    (r.update x).registered? other = if other = key then some x else r.registered? other := by
  rw [registered?_update_map]
  by_cases hk : other = key
  · subst hk
    simp [hg, hid]
  · rw [if_neg hk]
    cases ho : r.registered? other with
    | none => rfl
    | some y =>
      obtain ⟨hm, hkey, -⟩ := h.registered?_eq_some.1 hg
      obtain ⟨hym, hykey, -⟩ := h.registered?_eq_some.1 ho
      have hne : y.id ≠ x.id := fun e => by
        obtain rfl := h.eq_of_id hym hm (e.trans hid)
        exact hk (hykey.symm.trans hkey)
      simp [hne]

/-- A change to a group that is completed is not seen under any key. -/
theorem registered?_update_completed (h : Tidy r) {g x : Group} (hg : r.group? x.id = some g)
    (hc : g.completed = true) (key : String) :
    (r.update x).registered? key = r.registered? key := by
  rw [registered?_update_map]
  cases hy : r.registered? key with
  | none => rfl
  | some y =>
    show some (if y.id = x.id then x else y) = some y
    rw [if_neg (h.id_ne_of_completed hy hg hc)]

end Tidy

/-- Replace a group by its completed form and evict it. -/
def retire (r : Roster) (g : Group) : Roster :=
  ((r.update g).remove g.key g.id).2

namespace Tidy
variable {r : Roster}

theorem retire (h : Tidy r) {g x : Group} (hg : r.registered? x.key = some g) (hid : x.id = g.id)
    (hc : x.completed = true) : Tidy (r.retire x) := by
  obtain ⟨hm, hkey, hgc⟩ := h.registered?_eq_some.1 hg
  have hreg : r.registry.get? x.key = some x.id := hid ▸ h.registry_of_registered? hg
  have hget : ∀ other, (r.registry.remove x.key x.id).2.get? other =
      if other = x.key then none else r.registry.get? other := by
    intro other
    rw [Registry.get?_remove]
    simp [hreg]
  refine ⟨Numbered.update h.numbered x, fun key id hr => ?_, fun y hy hyc => ?_⟩
  · change (r.registry.remove x.key x.id).2.get? key = some id at hr
    rw [hget] at hr
    split at hr
    · exact absurd hr (by simp)
    · next hne =>
      obtain ⟨y, hy, hykey, hyc⟩ := h.live key id hr
      have hyid : y.id ≠ x.id := fun e => by
        obtain rfl := h.eq_of_id (mem_of_group? hy) hm (e.trans hid)
        exact hne (hykey.symm.trans hkey)
      refine ⟨y, ?_, hykey, hyc⟩
      show (r.update x).group? id = some y
      rw [group?_update, hy]
      simp [hyid]
  · show (r.registry.remove x.key x.id).2.get? y.key = some y.id
    rcases mem_update.1 hy with ⟨hym, hyid⟩ | ⟨rfl, -⟩
    · have hyreg := h.collecting y hym hyc
      have hne : y.key ≠ x.key := fun e => hyid (by simpa [e, hreg, eq_comm] using hyreg)
      rw [hget, if_neg hne, hyreg]
    · rw [hc] at hyc
      exact absurd hyc (by simp)

theorem registered?_retire (h : Tidy r) {g x : Group} (hg : r.registered? x.key = some g)
    (hid : x.id = g.id) (hc : x.completed = true) (key : String) :
    (r.retire x).registered? key = if key = x.key then none else r.registered? key := by
  obtain ⟨hm, hkey, -⟩ := h.registered?_eq_some.1 hg
  ext y
  rw [(h.retire hg hid hc).registered?_eq_some]
  show (y ∈ (r.update x).groups ∧ _) ↔ _
  rw [mem_update]
  by_cases hk : key = x.key
  · simp only [hk, if_true, reduceCtorEq, iff_false]
    rintro ⟨⟨hy, hyid⟩ | ⟨rfl, -⟩, hyk, hyc⟩
    · have hy' := h.registered?_eq_some.2 ⟨hy, hyk, hyc⟩
      rw [hg] at hy'
      exact hyid (Option.some.inj hy' ▸ hid.symm)
    · rw [hc] at hyc
      exact absurd hyc (by simp)
  · rw [if_neg hk, h.registered?_eq_some]
    constructor
    · rintro ⟨⟨hy, -⟩ | ⟨rfl, -⟩, hyk, hyc⟩
      · exact ⟨hy, hyk, hyc⟩
      · exact absurd hyk.symm hk
    · rintro ⟨hy, hyk, hyc⟩
      refine ⟨.inl ⟨hy, fun e => ?_⟩, hyk, hyc⟩
      obtain rfl := h.eq_of_id hy hm (e.trans hid)
      exact hk (hyk.symm.trans hkey)

end Tidy

/-! ### What the live groups hold -/

/-- The messages of all live groups. -/
def held (r : Roster) : List Message :=
  r.live.flatMap Group.messages

theorem live_update (r : Roster) (x : Group) :
    (r.update x).live = r.live.map fun h => if h.id = x.id then x else h := by
  simp only [live]
  show r.registry.ids.filterMap (r.update x).group? = _
  rw [List.map_filterMap]
  congr 1
  funext id
  exact group?_update r x id

/-- A change to a group that is not live is not seen among the live ones. -/
theorem live_update_of_notMem {r : Roster} {x : Group} (h : ∀ y ∈ r.live, y.id ≠ x.id) :
    (r.update x).live = r.live := by
  rw [live_update]
  refine (List.map_congr_left fun y hy => ?_).trans (List.map_id _)
  simp [h y hy]

namespace Tidy
variable {r : Roster}

theorem mem_live (h : Tidy r) {g : Group} : g ∈ r.live ↔ r.registered? g.key = some g := by
  simp only [Roster.live, List.mem_filterMap, Registry.mem_ids]
  constructor
  · rintro ⟨id, ⟨key, hr⟩, hg⟩
    obtain ⟨x, hx, hkey, hc⟩ := h.live key id hr
    obtain rfl := Option.some.inj (hx.symm.trans hg)
    exact h.registered?_eq_some.2 ⟨mem_of_group? hg, rfl, hc⟩
  · intro hg
    exact ⟨g.id, ⟨g.key, h.registry_of_registered? hg⟩,
      h.group?_of_mem (h.registered?_eq_some.1 hg).1⟩

theorem live_nodup (h : Tidy r) : r.live.Nodup := by
  have hids : r.registry.ids.Nodup := ids_nodup fun key id hr => by
    obtain ⟨g, hg, hkey, -⟩ := h.live key id hr
    exact ⟨g, hg, hkey⟩
  refine hids.filterMap fun id other g hg hother => ?_
  exact (id_of_group? hg).symm.trans (id_of_group? hother)

theorem live_create (h : Tidy r) {g : Group} (hk : r.registry.get? g.key = none)
    (hid : g.id = r.nextId) : (r.create g.key g).live = r.live ++ [g] := by
  have hold : ∀ id ∈ r.registry.ids, (r.create g.key g).group? id = r.group? id := by
    intro id hm
    obtain ⟨key, hr⟩ := Registry.mem_ids.1 hm
    obtain ⟨x, hx, -⟩ := h.live key id hr
    rw [group?_create, hx]
    rfl
  have hnew : (r.create g.key g).group? g.id = some g := by
    rw [group?_create, hid, h.group?_nextId, ← hid]
    simp
  simp only [Roster.live]
  show (r.registry.getOrCreate g.key g.id).2.ids.filterMap (r.create g.key g).group? = _
  rw [Registry.ids_getOrCreate hk, List.filterMap_append, List.filterMap_congr hold]
  simp [hnew]

/-- Evicting a live group takes it out of the live ones. -/
theorem live_perm (h : Tidy r) {key : String} {g : Group} (hg : r.registered? key = some g) :
    r.live.Perm (g :: (r.remove key g.id).2.live) := by
  have hperm := (Registry.ids_remove (h.registry_of_registered? hg)).filterMap r.group?
  rwa [List.filterMap_cons_some (h.group?_of_mem (h.registered?_eq_some.1 hg).1)] at hperm

theorem id_ne_of_mem_live_remove (h : Tidy r) {key : String} {g y : Group}
    (hg : r.registered? key = some g) (hy : y ∈ (r.remove key g.id).2.live) : y.id ≠ g.id := by
  intro hid
  simp only [Roster.live, List.mem_filterMap, Registry.mem_ids] at hy
  obtain ⟨id, ⟨other, hr⟩, hyg⟩ := hy
  change (r.registry.remove key g.id).2.get? other = some id at hr
  rw [Registry.get?_remove] at hr
  split at hr
  · exact absurd hr (by simp)
  · next hne =>
    obtain ⟨x, hx, hkey, -⟩ := h.live other id hr
    obtain rfl := Option.some.inj (hx.symm.trans hyg)
    obtain ⟨hm, hgk, -⟩ := h.registered?_eq_some.1 hg
    obtain rfl := h.eq_of_id (mem_of_group? hx) hm hid
    exact hne ⟨hkey.symm.trans hgk, h.registry_of_registered? hg⟩

/-- Changing a live group changes it among the live ones and nothing else. -/
theorem live_update_perm (h : Tidy r) {key : String} {g x : Group}
    (hg : r.registered? key = some g) (hid : x.id = g.id) :
    (r.update x).live.Perm (x :: (r.remove key g.id).2.live) := by
  rw [live_update]
  refine ((h.live_perm hg).map _).trans (.of_eq ?_)
  rw [List.map_cons, hid, if_pos rfl]
  congr 1
  refine (List.map_congr_left fun y hy => ?_).trans (List.map_id _)
  simp [h.id_ne_of_mem_live_remove hg hy]

theorem live_retire (h : Tidy r) {g x : Group} (hg : r.registered? x.key = some g)
    (hid : x.id = g.id) : (r.retire x).live = (r.remove x.key g.id).2.live := by
  rw [← live_update_of_notMem (x := x) (fun y hy => hid ▸ h.id_ne_of_mem_live_remove hg hy)]
  simp only [Roster.retire, ← hid]
  rfl

theorem held_create (h : Tidy r) {g : Group} (hk : r.registry.get? g.key = none)
    (hid : g.id = r.nextId) (hm : g.messages = []) : (r.create g.key g).held = r.held := by
  simp [held, h.live_create hk hid, hm]

theorem held_push (h : Tidy r) {key : String} {g : Group} (hg : r.registered? key = some g)
    (m : Message) : (r.update (g.push m)).held.Perm (r.held ++ [m]) := by
  have hnew := (h.live_update_perm hg (x := g.push m) rfl).flatMap_right Group.messages
  have hold := (h.live_perm hg).flatMap_right Group.messages
  simp only [List.flatMap_cons, Group.push_messages] at hnew hold
  refine hnew.trans (.trans ?_ (hold.symm.append_right [m]))
  rw [List.append_assoc, List.append_assoc]
  exact List.perm_append_comm.append_left _

theorem held_retire (h : Tidy r) {g x : Group} (hg : r.registered? x.key = some g)
    (hid : x.id = g.id) : r.held.Perm (g.messages ++ (r.retire x).held) := by
  have hold := (h.live_perm hg).flatMap_right Group.messages
  rwa [List.flatMap_cons, ← h.live_retire hg hid] at hold

/-- A group that is completed holds nothing that counts. -/
theorem held_update_completed (h : Tidy r) {g x : Group} (hg : r.group? x.id = some g)
    (hc : g.completed = true) : (r.update x).held = r.held := by
  have hne : ∀ y ∈ r.live, y.id ≠ x.id := fun y hy =>
    h.id_ne_of_completed (h.mem_live.1 hy) hg hc
  rw [held, held, live_update_of_notMem hne]

end Tidy

end Roster

end Aggregation
