import Aggregation.Proofs.Coordinator.Change

/-! What every change keeps true of a coordinator.

A coordinator is `Sound` when its roster is tidy, no sweep is under way, and each finalization in
flight is that of a completed group which still holds the messages that it was delivered with. -/
namespace Aggregation.Coordinator

/-- A finalization is that of a completed group which still holds what it was delivered with. -/
def Carried (r : Roster) (f : Finalization) : Prop :=
  ∃ g, r.group? f.group = some g ∧ g.completed = true ∧ f.outlet = g.outlet ∧
    f.result.key = g.key ∧ f.result.messages = g.messages

structure Sound (c : Coordinator) : Prop where
  tidy : c.roster.Tidy
  /-- No sweep is under way. -/
  swept : c.scheduler.sweep = []
  carried : ∀ f ∈ c.inFlight, Carried c.roster f
  /-- A group is in flight at most once. -/
  distinct : (c.inFlight.map Finalization.group).Nodup
  single : ∀ f ∈ c.inFlight, f.caller.isSingle = true

theorem sound_start (settings : Settings) (metrics : Bool) (now : Instant) :
    Sound (start settings metrics now) :=
  ⟨Roster.tidy_empty, rfl, fun _ h => absurd h List.not_mem_nil, List.nodup_nil,
    fun _ h => absurd h List.not_mem_nil⟩

/-! ### Finalizations in flight -/

namespace Carried
variable {r : Roster} {f : Finalization}

/-- A group that collects is not in flight. -/
theorem id_ne (h : Carried r f) (ht : r.Tidy) {key : String} {g : Group}
    (hg : r.registered? key = some g) : g.id ≠ f.group := by
  obtain ⟨x, hx, hxc, -⟩ := h
  exact ht.id_ne_of_completed hg hx hxc

theorem create (h : Carried r f) (key : String) (g : Group) : Carried (r.create key g) f := by
  obtain ⟨x, hx, hrest⟩ := h
  exact ⟨x, by rw [Roster.group?_create, hx]; rfl, hrest⟩

theorem update (h : Carried r f) {x : Group} (hne : x.id ≠ f.group) : Carried (r.update x) f := by
  obtain ⟨y, hy, hrest⟩ := h
  refine ⟨y, ?_, hrest⟩
  have hid : ¬ y.id = x.id := fun e => hne (e.symm.trans (Roster.id_of_group? hy))
  rw [Roster.group?_update, hy]
  simp [hid]

theorem retire (h : Carried r f) {x : Group} (hne : x.id ≠ f.group) : Carried (r.retire x) f :=
  h.update hne

end Carried

/-- Of groups that are in flight once each, taking the first of an id off takes all of it off. -/
theorem eraseP_group {fs : List Finalization} (hd : (fs.map Finalization.group).Nodup) (id : Nat) :
    (fs.eraseP fun f => f.group == id) = fs.filter fun f => !(f.group == id) := by
  induction fs with
  | nil => rfl
  | cons f rest ih =>
    obtain ⟨hf, hrest⟩ := List.nodup_cons.1 hd
    by_cases hid : f.group = id
    · have hall : ∀ x ∈ rest, x.group ≠ id := fun x hx e =>
        hf (List.mem_map.2 ⟨x, hx, e.trans hid.symm⟩)
      rw [List.eraseP_cons_of_pos (by simpa using hid),
        List.filter_cons_of_neg (by simpa using hid)]
      exact (List.filter_eq_self.2 fun x hx => by simpa using hall x hx).symm
    · rw [List.eraseP_cons_of_neg (by simpa using hid),
        List.filter_cons_of_pos (by simpa using hid), ih hrest]

/-- A finalization is found by its group. -/
theorem find?_group {fs : List Finalization} (hd : (fs.map Finalization.group).Nodup)
    {f : Finalization} (hf : f ∈ fs) : (fs.find? fun x => x.group == f.group) = some f := by
  cases hx : fs.find? fun x => x.group == f.group with
  | none => exact absurd BEq.rfl (List.find?_eq_none.1 hx f hf)
  | some x =>
    have hgroup : x.group = f.group := by simpa using List.find?_some hx
    rw [List.inj_on_of_nodup_map hd (List.mem_of_find?_eq_some hx) hf hgroup]

/-! ### What changes keep -/

namespace Sound
variable {c : Coordinator}

/-- Nothing else matters to soundness. -/
theorem congr (h : Sound c) {c' : Coordinator} (hr : c'.roster = c.roster)
    (hs : c'.scheduler = c.scheduler) (hf : c'.inFlight = c.inFlight) : Sound c' :=
  ⟨hr ▸ h.tidy, hs ▸ h.swept, by rw [hr, hf]; exact h.carried, hf ▸ h.distinct, hf ▸ h.single⟩

theorem record (h : Sound c) (e : Event) : Sound (c.record e) :=
  h.congr rfl rfl rfl

theorem take (h : Sound c) (d : Deadline) : Sound (c.take d) :=
  h.congr rfl rfl rfl

/-- The group under a key is of that key and collects. -/
theorem of_group? (h : Sound c) {key : String} {g : Group} (hg : c.group? key = some g) :
    g ∈ c.roster.groups ∧ g.key = key ∧ g.completed = false :=
  h.tidy.registered?_eq_some.1 hg

theorem group?_of_mem (h : Sound c) {g : Group} (hm : g ∈ c.roster.groups)
    (hc : g.completed = false) : c.group? g.key = some g :=
  h.tidy.registered?_eq_some.2 ⟨hm, rfl, hc⟩

theorem registry_none (h : Sound c) {key : String} (hk : c.group? key = none) :
    c.roster.registry.get? key = none :=
  h.tidy.registry_of_registered?_none hk

theorem remark (h : Sound c) (g : Group) (trigger : Trigger) : Sound (c.remark g trigger) :=
  h.congr (remark_roster ..) (remark_scheduler ..) (remark_inFlight ..)

theorem create (h : Sound c) {key : String} (params : Params) (hk : c.group? key = none) :
    Sound (c.create key params).2 := by
  refine ⟨?_, ?_, fun f hf => ?_, ?_, ?_⟩
  · rw [create_roster]
    exact h.tidy.create (g := c.newGroup key params) (h.registry_none hk) rfl rfl
  · rw [create_scheduler]
    split
    · simp only [Scheduler.schedule]
      split <;> exact h.swept
    · exact h.swept
  · rw [create_inFlight] at hf
    rw [create_roster]
    exact (h.carried f hf).create key _
  · rw [create_inFlight]
    exact h.distinct
  · rw [create_inFlight]
    exact h.single

theorem setGroup_push (h : Sound c) {key : String} {g : Group} (hg : c.group? key = some g)
    (m : Message) : Sound (c.setGroup (g.push m)) :=
  ⟨h.tidy.update (g := g) (h.tidy.group?_of_mem (h.of_group? hg).1) rfl rfl, h.swept,
    fun f hf => (h.carried f hf).update (x := g.push m)
      (show g.id ≠ f.group from (h.carried f hf).id_ne h.tidy hg), h.distinct, h.single⟩

theorem finalize (h : Sound c) {key : String} {g x : Group} (hg : c.group? key = some g)
    (hid : x.id = g.id) (hk : x.key = g.key) (trigger : Trigger) {caller : Caller}
    (hcaller : caller.isSingle = true) : Sound (c.finalize x trigger caller) := by
  obtain ⟨hm, rfl, -⟩ := h.of_group? hg
  have hgx : c.roster.registered? x.sealed.key = some g := hk ▸ hg
  have hne : ∀ f ∈ c.inFlight, x.id ≠ f.group := fun f hf =>
    hid ▸ (h.carried f hf).id_ne h.tidy hg
  refine ⟨?_, h.swept, fun f hf => ?_, ?_, fun f hf => ?_⟩
  · rw [finalize_roster]
    exact h.tidy.retire hgx hid rfl
  · rw [finalize_inFlight] at hf
    rw [finalize_roster]
    rcases List.mem_cons.1 hf with rfl | hf
    · refine ⟨x.sealed, ?_, rfl, rfl, rfl, rfl⟩
      show (c.roster.update x.sealed).group? x.id = _
      rw [Roster.group?_update, hid, h.tidy.group?_of_mem hm]
      simp [hid]
    · exact (h.carried f hf).retire (hne f hf)
  · rw [finalize_inFlight, List.map_cons]
    refine List.nodup_cons.2 ⟨fun hmem => ?_, h.distinct⟩
    obtain ⟨f, hf, hfg⟩ := List.mem_map.1 hmem
    exact hne f hf hfg.symm
  · rw [finalize_inFlight] at hf
    rcases List.mem_cons.1 hf with rfl | hf
    · exact hcaller
    · exact h.single f hf

theorem advance (h : Sound c) (ms : Nat) : Sound (c.advance ms) := by
  rw [advance_eq h.swept]
  exact ⟨h.tidy, h.swept, h.carried, h.distinct, h.single⟩

/-- The group of a finalization in flight. -/
theorem group_of_inFlight (h : Sound c) {f : Finalization} (hf : f ∈ c.inFlight) :
    ∃ g, c.roster.group? f.group = some g ∧ g.completed = true := by
  obtain ⟨g, hg, hc, -⟩ := h.carried f hf
  exact ⟨g, hg, hc⟩

/-- It is still there when the finalization is taken off. -/
theorem group_landed (h : Sound c) {f : Finalization} (hf : f ∈ c.inFlight) :
    ∃ g, (c.land f.group).roster.group? f.group = some g ∧ g.completed = true :=
  h.group_of_inFlight hf

/-- Taking a finalization off leaves those of the other groups. -/
theorem mem_land (h : Sound c) (id : Nat) {x : Finalization} :
    x ∈ (c.land id).inFlight ↔ x ∈ c.inFlight ∧ x.group ≠ id := by
  show x ∈ c.inFlight.eraseP (fun x => x.group == id) ↔ _
  rw [eraseP_group h.distinct]
  simp

theorem release (h : Sound c) {f : Finalization} (hf : f ∈ c.inFlight) (refusal : Option String) :
    Sound ((c.land f.group).release f.group refusal) := by
  obtain ⟨g, hg, hc⟩ := h.group_landed hf
  have hid := Roster.id_of_group? hg
  refine ⟨?_, ?_, fun x hx => ?_, ?_, fun x hx => ?_⟩
  · rw [release_roster hg refusal]
    exact h.tidy.update (x := g.clear) (g := g) (hid ▸ hg) rfl rfl
  · rw [release_scheduler hg refusal]
    exact h.swept
  · rw [release_inFlight hg refusal, h.mem_land] at hx
    rw [release_roster hg refusal]
    exact (h.carried x hx.1).update fun e => hx.2 (e.symm.trans hid)
  · rw [release_inFlight hg refusal]
    exact h.distinct.sublist (List.eraseP_sublist.map _)
  · rw [release_inFlight hg refusal, h.mem_land] at hx
    exact h.single x hx.1

end Sound

theorem Change.sound {a b : Coordinator} {l : List Message} (hc : Change a l b) (h : Sound a) :
    Sound b := by
  cases hc with
  | answered _ => exact h.record _
  | opened params hk => exact h.create params hk
  | kept hg _ _ => exact (h.record _).setGroup_push hg _
  | @filled _ g m trigger caller hg _ _ hcaller =>
    exact (h.record _).finalize (x := g.push m) hg rfl rfl trigger hcaller
  | refused _ _ => exact h.congr rfl rfl rfl
  | @forced key g caller hg hcaller =>
    exact (h.remark g _).finalize ((group?_remark ..).trans hg) rfl rfl _ hcaller
  | @expired d g _ hg _ =>
    exact ((h.take d).remark g _).finalize ((group?_remark ..).trans hg) rfl rfl _ rfl
  | stale _ _ => exact (h.take _).record _
  | advanced ms => exact h.advance ms
  | released hf refusal => exact h.release hf refusal

theorem Changes.sound {a b : Coordinator} {l : List Message} (hc : Changes a l b) (h : Sound a) :
    Sound b := by
  induction hc with
  | refl => exact h
  | tail _ hc ih => exact hc.sound ih

/-- What every change of a sound coordinator keeps, changes one after the other keep. -/
theorem Changes.keeps {P : Coordinator → Prop}
    (hP : ∀ {a l b}, Sound a → Change a l b → P a → P b) {a b : Coordinator} {l : List Message}
    (hc : Changes a l b) (h : Sound a) (ha : P a) : P b := by
  induction hc with
  | refl => exact ha
  | tail hbefore hc ih => exact hP (hbefore.sound h) hc ih

end Aggregation.Coordinator
