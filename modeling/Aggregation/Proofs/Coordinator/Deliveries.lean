import Aggregation.Proofs.Coordinator.Run

/-! What sinks are handed.

A group is handed to its sink when it is completed and at no other time, so each group is in one of
two places (`delivered_run`): it collects and was handed to nobody, or it is completed and was
handed to its sink once. -/
namespace Aggregation

/-- What a sink was handed, and of which group. -/
def Event.delivery? : Event → Option (Nat × Result)
  | .delivered id result _ _ => some (id, result)
  | _ => none

namespace Coordinator

/-- What was handed to the sink, and of which groups, the oldest first. -/
def deliveries (c : Coordinator) : List (Nat × Result) :=
  c.history.filterMap Event.delivery?

/-- What was handed to the sink of one group. -/
def deliveriesOf (c : Coordinator) (id : Nat) : List Result :=
  (c.deliveries.filter fun d => d.1 == id).map Prod.snd

theorem deliveries_record (c : Coordinator) (e : Event) :
    (c.record e).deliveries = c.deliveries ++ e.delivery?.toList := by
  simp only [deliveries, record, List.filterMap_append]
  cases h : e.delivery? <;> simp [h]

/-- Most events hand nothing over. -/
theorem deliveries_record_none (c : Coordinator) {e : Event} (he : e.delivery? = none) :
    (c.record e).deliveries = c.deliveries := by
  rw [deliveries_record, he]
  exact List.append_nil _

theorem delivery?_of_isAnswer {e : Event} (h : isAnswer e = true) : e.delivery? = none := by
  cases e with
  | delivered => cases h
  | _ => rfl

theorem deliveries_fault (c : Coordinator) (outlet : Outlet) (m : Message) (f : Fault) :
    (c.fault outlet m f).deliveries = c.deliveries := by
  unfold fault
  rw [deliveries_record]
  split <;> exact List.append_nil _

/-- A message that its group has no room for is handed to nobody. -/
theorem deliveries_refused (c : Coordinator) (g : Group) (m : Message) (key : String) :
    (((c.record (.offered g m c.now)).record (.rejected key (g.fullFault m))).fault g.outlet m
      (g.fullFault m)).deliveries = c.deliveries := by
  rw [deliveries_fault, deliveries_record_none _ rfl, deliveries_record_none _ rfl]

theorem deliveries_remark (c : Coordinator) (g : Group) (trigger : Trigger) :
    (c.remark g trigger).deliveries = c.deliveries := by
  unfold remark
  split
  · rw [deliveries_record]
    exact List.append_nil _
  · rfl

theorem deliveries_finalize (c : Coordinator) (g : Group) (trigger : Trigger) (caller : Caller) :
    (c.finalize g trigger caller).deliveries = c.deliveries ++ [(g.id, resultOf g trigger)] := by
  simp only [deliveries, finalize_history, List.filterMap_append]
  rfl

theorem deliveries_create (c : Coordinator) (key : String) (params : Params) :
    (c.create key params).2.deliveries = c.deliveries := by
  simp only [deliveries, create_history, List.filterMap_append, List.filterMap_cons,
    Event.delivery?]
  split <;> simp [Event.delivery?]

theorem deliveries_advance {c : Coordinator} (h : c.scheduler.sweep = []) (ms : Nat) :
    (c.advance ms).deliveries = c.deliveries := by
  rw [advance_eq h]
  simp only [deliveries, List.filterMap_append, List.filterMap_map]
  exact List.append_right_eq_self.2 (List.filterMap_eq_nil_iff.2 fun _ _ => rfl)

theorem deliveries_release {c : Coordinator} {id : Nat} {g : Group}
    (hg : c.roster.group? id = some g) (refusal : Option String) :
    (c.release id refusal).deliveries = c.deliveries := by
  obtain ⟨_, events, h, hevents⟩ := release_eq hg refusal
  rw [h]
  simp only [deliveries, setGroup, List.filterMap_append]
  refine List.append_right_eq_self.2 (List.filterMap_eq_nil_iff.2 fun e he => ?_)
  obtain ⟨fault, rfl | ⟨m, rfl | rfl⟩⟩ := hevents e he <;> rfl

/-! ### Once each -/

/-- Each group collects and was handed to nobody, or is completed and was handed to its sink
once. -/
structure Delivered (c : Coordinator) : Prop where
  none : ∀ id, (∀ g, c.roster.group? id = some g → g.completed = false) → c.deliveriesOf id = []
  once : ∀ id g, c.roster.group? id = some g → g.completed = true →
    ∃ result, c.deliveriesOf id = [result] ∧ result.key = g.key

theorem delivered_start (settings : Settings) (metrics : Bool) (now : Instant) :
    Delivered (start settings metrics now) :=
  ⟨fun _ _ => rfl, fun _ _ hg => nomatch hg⟩

theorem deliveriesOf_finalize (c : Coordinator) (g : Group) (trigger : Trigger) (caller : Caller)
    (id : Nat) : (c.finalize g trigger caller).deliveriesOf id =
      c.deliveriesOf id ++ if g.id = id then [resultOf g trigger] else [] := by
  simp only [deliveriesOf, deliveries_finalize, List.filter_append, List.map_append]
  by_cases hid : g.id = id <;> simp [hid]

namespace Delivered
variable {c b : Coordinator}

/-- Nothing changes as long as nothing is handed over and no group changes its key or is
completed. -/
theorem congr (h : Delivered c) (hd : b.deliveries = c.deliveries)
    (hg : ∀ id x, b.roster.group? id = some x →
      ∃ g, c.roster.group? id = some g ∧ x.key = g.key ∧ x.completed = g.completed)
    (hg' : ∀ id g, c.roster.group? id = some g →
      ∃ x, b.roster.group? id = some x ∧ x.completed = g.completed) : Delivered b := by
  refine ⟨fun id hid => ?_, fun id x hx hxc => ?_⟩
  · simp only [deliveriesOf, hd]
    refine h.none id fun g hgid => ?_
    obtain ⟨x, hx, hxc⟩ := hg' id g hgid
    exact hxc ▸ hid x hx
  · obtain ⟨g, hgid, hk, hc⟩ := hg id x hx
    simp only [deliveriesOf, hd, hk]
    exact h.once id g hgid (hc ▸ hxc)

theorem of_roster (h : Delivered c) (hd : b.deliveries = c.deliveries)
    (hr : b.roster = c.roster) : Delivered b :=
  h.congr hd (fun _ x hx => ⟨x, hr ▸ hx, rfl, rfl⟩) fun _ g hg => ⟨g, hr ▸ hg, rfl⟩

/-- A group may be changed, its key and its completion apart. -/
theorem update (h : Delivered c) {g x : Group} (hg : c.roster.group? x.id = some g)
    (hk : x.key = g.key) (hc : x.completed = g.completed) (hd : b.deliveries = c.deliveries)
    (hr : b.roster = c.roster.update x) : Delivered b := by
  refine h.congr hd (fun id y hy => ?_) fun id y hy => ?_
  · rw [hr, Roster.group?_update, Option.map_eq_some_iff] at hy
    obtain ⟨z, hz, rfl⟩ := hy
    refine ⟨z, hz, ?_⟩
    by_cases hid : z.id = x.id
    · rw [← hid, Roster.id_of_group? hz, hz] at hg
      obtain rfl := Option.some.inj hg
      simp [hid, hk, hc]
    · simp [hid]
  · refine ⟨_, by rw [hr, Roster.group?_update, hy]; rfl, ?_⟩
    by_cases hid : y.id = x.id
    · rw [← hid, Roster.id_of_group? hy, hy] at hg
      obtain rfl := Option.some.inj hg
      simp [hid, hc]
    · simp [hid]

theorem create (h : Delivered c) {key : String} {params : Params} :
    Delivered (c.create key params).2 := by
  refine ⟨fun id hid => ?_, fun id x hx hxc => ?_⟩
  · simp only [deliveriesOf, deliveries_create]
    refine h.none id fun g hg => hid g ?_
    rw [create_roster, Roster.group?_create, hg]
    rfl
  · rw [create_roster, Roster.group?_create, Option.or_eq_some_iff] at hx
    simp only [deliveriesOf, deliveries_create]
    rcases hx with hx | ⟨-, hx⟩
    · exact h.once id x hx hxc
    · split at hx
      · obtain rfl := Option.some.inj hx
        exact absurd hxc (by simp [newGroup])
      · cases hx

/-- A group that collects is handed over, which completes it. -/
theorem finalize (h : Delivered c) (hs : Sound c) {key : String} {g x : Group}
    (hg : c.group? key = some g) (hid : x.id = g.id) (hk : x.key = g.key) (trigger : Trigger)
    (caller : Caller) : Delivered (c.finalize x trigger caller) := by
  obtain ⟨hm, -, hgc⟩ := hs.of_group? hg
  have hfound := hs.tidy.group?_of_mem hm
  have hgroup : ∀ id, (c.finalize x trigger caller).roster.group? id =
      (c.roster.group? id).map fun y => if y.id = x.id then x.sealed else y := fun id =>
    Roster.group?_update c.roster x.sealed id
  refine ⟨fun id hall => ?_, fun id y hy hyc => ?_⟩
  · have hne : x.id ≠ id := by
      rintro rfl
      have hsealed := hall x.sealed (by rw [hgroup, hid, hfound]; simp)
      exact absurd hsealed (by simp)
    rw [deliveriesOf_finalize, if_neg hne, List.append_nil]
    refine h.none id fun y hy => hall y ?_
    have hyid : y.id ≠ x.id := fun e => hne (e.symm.trans (Roster.id_of_group? hy))
    rw [hgroup, hy]
    simp [hyid]
  · rw [hgroup, Option.map_eq_some_iff] at hy
    obtain ⟨z, hz, rfl⟩ := hy
    have hzid := Roster.id_of_group? hz
    by_cases he : z.id = x.id
    · obtain rfl : z = g := hs.tidy.eq_of_id (Roster.mem_of_group? hz) hm (he.trans hid)
      have hbefore := h.none id fun y hy => by
        obtain rfl := Option.some.inj (hz.symm.trans hy)
        exact hgc
      refine ⟨resultOf x trigger, ?_, by simp [he, resultOf]⟩
      rw [deliveriesOf_finalize, hbefore, if_pos (he.symm.trans hzid)]
      rfl
    · rw [if_neg he] at hyc ⊢
      rw [deliveriesOf_finalize, if_neg fun e => he (hzid.trans e.symm), List.append_nil]
      exact h.once id z hz hyc

end Delivered

theorem Change.delivered {a b : Coordinator} {l : List Message} (hs : Sound a)
    (hc : Change a l b) (h : Delivered a) : Delivered b := by
  cases hc with
  | answered he =>
    exact h.of_roster (deliveries_record_none _ (delivery?_of_isAnswer he)) rfl
  | opened params hk => exact h.create
  | @kept key g m hg _ _ =>
    have hfound := hs.tidy.group?_of_mem (hs.of_group? hg).1
    exact h.update (x := g.push m) hfound rfl rfl
      (deliveries_record_none a rfl) rfl
  | @filled key g m trigger caller hg _ _ _ =>
    have hr := hs.record (.offered g m a.now)
    have hd : Delivered (a.record (.offered g m a.now)) :=
      h.of_roster (deliveries_record_none a rfl) rfl
    exact hd.finalize hr (x := g.push m) hg rfl rfl trigger caller
  | refused _ _ => exact h.of_roster (deliveries_refused ..) rfl
  | @forced key g caller hg _ =>
    have hd : Delivered (a.remark g (g.claimTrigger a.now)) :=
      h.of_roster (deliveries_remark ..) (remark_roster ..)
    exact hd.finalize (hs.remark g _) ((group?_remark ..).trans hg) rfl rfl _ caller
  | @expired d g _ hg _ =>
    have hd : Delivered ((a.take d).remark g (g.claimTrigger a.now)) :=
      h.of_roster (deliveries_remark (a.take d) ..) (remark_roster (a.take d) ..)
    exact hd.finalize ((hs.take d).remark g _) ((group?_remark ..).trans hg) rfl rfl _ .expiry
  | @stale d _ _ =>
    exact h.of_roster (deliveries_record_none (a.take d) rfl) rfl
  | advanced ms =>
    refine h.of_roster (deliveries_advance hs.swept ms) ?_
    rw [advance_eq hs.swept]
  | @released f hf refusal =>
    obtain ⟨g, hg, -⟩ := hs.group_landed hf
    exact h.update (x := g.clear) (g := g) (Roster.id_of_group? hg ▸ hg) rfl rfl
      (deliveries_release hg refusal) (release_roster hg refusal)

theorem delivered_run {c : Coordinator} (hs : Sound c) (h : Delivered c) (moves : List Move) :
    Delivered (run c moves) := by
  refine run_keeps (fun move _ _ hs h => ?_) hs h
  refine apply_keeps move Change.delivered (fun _ _ h => h.of_roster rfl rfl) ?_ hs h
  intro _ a key g m hs hg _ h
  have hfound := hs.tidy.group?_of_mem (hs.of_group? hg).1
  exact h.update (x := g.push m) hfound rfl rfl rfl rfl

end Coordinator

end Aggregation
