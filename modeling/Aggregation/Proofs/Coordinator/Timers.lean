import Aggregation.Proofs.Coordinator.Deliveries

/-! Timers and groups correspond one to one.

Deadlines are never cancelled: a group that is finalized leaves its deadline in the queue, and its
key may be reused before that fires. A coordinator is `Timed` when all deadlines that are pending
or fired are those of groups on its roster, at most one each, and those of live groups are among
them. It stays so until its scheduler is stopped (`timed_run`), so a live group has one deadline
with its key and id, on time, and a deadline that finds another group under its key does nothing. -/
namespace Aggregation.Coordinator

/-- The deadlines that are pending, or that fired and are not handled. -/
def timers (c : Coordinator) : List Deadline :=
  c.scheduler.queue ++ c.expired

/-- How many groups were created that have a deadline. -/
def timedGroups (c : Coordinator) : Nat :=
  c.roster.groups.countP fun g => g.timeout.isSome

structure Timed (c : Coordinator) : Prop where
  running : c.scheduler.stopped = false
  inOrder : Scheduler.InOrder c.scheduler.queue
  /-- What is pending is not due. -/
  ahead : ∀ d ∈ c.scheduler.queue, c.now < d.due
  /-- Nothing fires before it is due. -/
  passed : ∀ d ∈ c.expired, d.due ≤ c.now
  distinct : (c.timers.map Deadline.group).Nodup
  known : ∀ d ∈ c.timers, ∃ g ∈ c.roster.groups, g.deadline? = some d
  armed : ∀ key g d, c.group? key = some g → g.deadline? = some d → d ∈ c.timers
  pending : c.scheduler.pending = c.scheduler.queue.length
  counted : c.scheduler.pending + c.scheduler.fired = c.timedGroups
  dated : ∀ g ∈ c.roster.groups, g.Dated

theorem timed_start (settings : Settings) (metrics : Bool) (now : Instant) :
    Timed (start settings metrics now) :=
  ⟨rfl, List.Pairwise.nil, fun _ h => absurd h List.not_mem_nil,
    fun _ h => absurd h List.not_mem_nil, List.nodup_nil, fun _ h => absurd h List.not_mem_nil,
    fun _ _ _ h => (nomatch h), rfl, rfl, fun _ h => absurd h List.not_mem_nil⟩

/-! ### What changes keep -/

theorem timedGroups_congr {b c : Coordinator}
    (h : b.roster.groups.map Group.blank = c.roster.groups.map Group.blank) :
    b.timedGroups = c.timedGroups := by
  have hcount := congrArg (List.countP fun g => g.timeout.isSome) h
  rwa [List.countP_map, List.countP_map] at hcount

namespace Timed
variable {b c : Coordinator}

/-- Groups may be changed and evicted, and deadlines of groups that are not live may be handled. -/
theorem frame (h : Timed c)
    (hgroups : b.roster.groups.map Group.blank = c.roster.groups.map Group.blank)
    (hlive : ∀ key x, b.group? key = some x → ∃ g, c.group? key = some g ∧ x.blank = g.blank)
    (hnow : b.now = c.now) (hs : b.scheduler = c.scheduler) (hsub : b.expired.Sublist c.expired)
    (hkeep : ∀ key x d, b.group? key = some x → x.deadline? = some d → d ∈ c.expired →
      d ∈ b.expired) : Timed b := by
  have htimers : b.timers.Sublist c.timers := by
    rw [timers, timers, hs]
    exact hsub.append_left _
  have hborn : ∀ {g}, g ∈ c.roster.groups → ∃ x ∈ b.roster.groups, x.blank = g.blank := by
    intro g hg
    have hblank : g.blank ∈ b.roster.groups.map Group.blank := hgroups ▸ List.mem_map_of_mem hg
    exact List.mem_map.1 hblank
  refine ⟨hs ▸ h.running, hs ▸ h.inOrder, ?_, ?_, h.distinct.sublist (htimers.map _), ?_, ?_, ?_,
    ?_, ?_⟩
  · rw [hs, hnow]
    exact h.ahead
  · rw [hnow]
    exact fun d hd => h.passed d (hsub.subset hd)
  · intro d hd
    obtain ⟨g, hg, hgd⟩ := h.known d (htimers.subset hd)
    obtain ⟨x, hx, hxg⟩ := hborn hg
    exact ⟨x, hx, (Group.deadline?_congr hxg).trans hgd⟩
  · intro key x d hx hd
    obtain ⟨g, hg, hxg⟩ := hlive key x hx
    rw [timers, List.mem_append, hs]
    refine (List.mem_append.1 (h.armed key g d hg ?_)).imp_right (hkeep key x d hx hd)
    rw [← Group.deadline?_congr hxg, hd]
  · rw [hs]
    exact h.pending
  · rw [hs, timedGroups_congr hgroups]
    exact h.counted
  · intro x hx
    have hblank : x.blank ∈ c.roster.groups.map Group.blank := hgroups ▸ List.mem_map_of_mem hx
    obtain ⟨g, hg, hgx⟩ := List.mem_map.1 hblank
    have hdated : g.blank.Dated := h.dated g hg
    rw [hgx] at hdated
    exact hdated

/-- Nothing else matters to timers. -/
theorem congr (h : Timed c) (hr : b.roster = c.roster) (hnow : b.now = c.now)
    (hs : b.scheduler = c.scheduler) (he : b.expired = c.expired) : Timed b := by
  refine h.frame (by rw [hr]) (fun key x hx => ⟨x, ?_, rfl⟩) hnow hs (by rw [he])
    fun _ _ _ _ _ hd => he ▸ hd
  rw [← hx, group?, group?, hr]

/-- A group may be changed without a change to what it was born with. -/
theorem update (h : Timed c) (hc : Sound c) {g x : Group} (hg : c.roster.group? x.id = some g)
    (hx : x.blank = g.blank) (hr : b.roster = c.roster.update x) (hnow : b.now = c.now)
    (hs : b.scheduler = c.scheduler) (he : b.expired = c.expired) : Timed b := by
  have hsame : ∀ y ∈ c.roster.groups, y.id = x.id → x.blank = y.blank := by
    intro y hy hid
    have hid' := hid.trans (Roster.id_of_group? hg).symm
    rwa [hc.tidy.eq_of_id hy (Roster.mem_of_group? hg) hid']
  refine h.frame (by rw [hr, Roster.map_blank_update hsame]) (fun key y hy => ?_) hnow hs
    (by rw [he]) fun _ _ _ _ _ hd => he ▸ hd
  rw [group?, hr, Roster.registered?_update_map, Option.map_eq_some_iff] at hy
  obtain ⟨z, hz, rfl⟩ := hy
  refine ⟨z, hz, ?_⟩
  by_cases hid : z.id = x.id
  · rw [if_pos hid]
    exact hsame z (hc.of_group? hz).1 hid
  · rw [if_neg hid]

theorem finalize (h : Timed c) (hc : Sound c) {key : String} {g x : Group}
    (hg : c.group? key = some g) (hid : x.id = g.id) (hx : x.blank = g.blank) (trigger : Trigger)
    (caller : Caller) : Timed (c.finalize x trigger caller) := by
  have hk : x.key = g.key := by
    show x.blank.key = g.blank.key
    rw [hx]
  refine h.frame ?_ (fun other y hy => ?_) rfl rfl (.refl _) fun _ _ _ _ _ hd => hd
  · rw [finalize_roster]
    refine Roster.map_blank_update (x := x.sealed) fun y hy hyid => ?_
    rw [hc.tidy.eq_of_id hy (hc.of_group? hg).1 (hyid.trans hid)]
    exact hx
  · rw [hc.group?_finalize hg hid hk] at hy
    split at hy
    · cases hy
    · exact ⟨y, hy, rfl⟩

/-- A deadline may be handled once its group is not live any more. -/
theorem take (h : Timed c) (hc : Sound c) {d : Deadline}
    (hd : ∀ g, c.group? d.key = some g → g.id ≠ d.group) : Timed (c.take d) := by
  refine h.frame rfl (fun key x hx => ⟨x, hx, rfl⟩) rfl rfl List.erase_sublist ?_
  intro key x e hx he hm
  refine (List.mem_erase_of_ne ?_).2 hm
  rintro rfl
  obtain ⟨hkey, hgroup, -⟩ := Group.of_deadline? he
  obtain ⟨-, rfl, -⟩ := hc.of_group? hx
  exact hd x (hkey ▸ hx) hgroup.symm

end Timed

/-! ### New groups -/

section Create
variable {c : Coordinator} (key : String) (params : Params)

theorem create_groups : (c.create key params).2.roster.groups =
    c.roster.groups ++ [c.newGroup key params] := by
  rw [create_roster]
  rfl

theorem timedGroups_create : (c.create key params).2.timedGroups =
    c.timedGroups + if (c.newGroup key params).timeout.isSome then 1 else 0 := by
  simp only [timedGroups, create_groups, List.countP_append, List.countP_singleton]

theorem newGroup_dated : (c.newGroup key params).Dated :=
  Group.create_dated ..

/-- A group without a timeout asks for nothing. -/
theorem create_scheduler_untimed (ht : (c.newGroup key params).timeout = none) :
    (c.create key params).2.scheduler = c.scheduler := by
  rw [create_scheduler, (newGroup_dated key params).1, ht]
  rfl

theorem create_scheduler_timed {t : Nat} (ht : (c.newGroup key params).timeout = some t) :
    (c.create key params).2.scheduler =
      c.scheduler.schedule ⟨key, c.roster.nextId, c.now + t⟩ := by
  rw [create_scheduler, (newGroup_dated key params).1, ht]
  rfl

theorem newGroup_deadline? : (c.newGroup key params).deadline? =
    (c.newGroup key params).timeout.map fun (t : Nat) => ⟨key, c.roster.nextId, c.now + t⟩ := by
  rw [Group.deadline?, (newGroup_dated key params).1, Option.map_map]
  rfl

end Create

namespace Timed
variable {c : Coordinator}

theorem dated_create (h : Timed c) (key : String) (params : Params) :
    ∀ g ∈ (c.create key params).2.roster.groups, g.Dated := by
  intro g hg
  rw [create_groups, List.mem_append, List.mem_singleton] at hg
  rcases hg with hg | rfl
  · exact h.dated g hg
  · exact newGroup_dated key params

theorem known_create (h : Timed c) (key : String) (params : Params) {d : Deadline}
    (hd : d ∈ c.timers) : ∃ g ∈ (c.create key params).2.roster.groups, g.deadline? = some d := by
  obtain ⟨g, hg, hgd⟩ := h.known d hd
  refine ⟨g, ?_, hgd⟩
  rw [create_groups]
  exact List.mem_append_left _ hg

theorem armed_create (h : Timed c) (hc : Sound c) {key other : String} {params : Params}
    (hk : c.group? key = none) {g : Group} {d : Deadline}
    (hg : (c.create key params).2.group? other = some g) (hd : g.deadline? = some d) :
    d ∈ c.timers ∨ (c.newGroup key params).deadline? = some d := by
  rw [hc.group?_create params hk] at hg
  split at hg
  · rw [Option.some.inj hg]
    exact .inr hd
  · exact .inl (h.armed other g d hg hd)

theorem create_untimed (h : Timed c) (hc : Sound c) {key : String} {params : Params}
    (hk : c.group? key = none) (ht : (c.newGroup key params).timeout = none) :
    Timed (c.create key params).2 := by
  have hs := create_scheduler_untimed key params ht
  have htimers : (c.create key params).2.timers = c.timers := by
    rw [timers, hs, create_expired, timers]
  refine ⟨hs ▸ h.running, hs ▸ h.inOrder, ?_, ?_, htimers ▸ h.distinct, ?_, ?_, hs ▸ h.pending, ?_,
    h.dated_create key params⟩
  · rw [hs, create_now]
    exact h.ahead
  · rw [create_expired, create_now]
    exact h.passed
  · rw [htimers]
    exact fun d hd => h.known_create key params hd
  · intro other g d hg hd
    rw [htimers]
    refine (h.armed_create hc hk hg hd).resolve_right fun hnew => ?_
    rw [newGroup_deadline?, ht] at hnew
    cases hnew
  · rw [hs, timedGroups_create, ht]
    exact h.counted

theorem create_timed (h : Timed c) (hc : Sound c) {key : String} {params : Params}
    (hk : c.group? key = none) {t : Nat} (ht : (c.newGroup key params).timeout = some t) :
    Timed (c.create key params).2 := by
  obtain ⟨d, hd⟩ : ∃ d : Deadline, d = ⟨key, c.roster.nextId, c.now + t⟩ := ⟨_, rfl⟩
  have hnew : (c.newGroup key params).deadline? = some d := by
    rw [newGroup_deadline?, ht, hd]
    rfl
  have hs : (c.create key params).2.scheduler = {c.scheduler with
      channel := c.scheduler.channel ++ [d], pending := c.scheduler.pending + 1} := by
    rw [create_scheduler_timed key params ht, ← hd, Scheduler.schedule_of_running h.running]
  have hqueue : (c.create key params).2.scheduler.queue =
      Scheduler.enqueue d c.scheduler.queue := by
    rw [create_scheduler_timed key params ht, ← hd, Scheduler.queue_schedule h.running]
  have htimers : (c.create key params).2.timers.Perm (d :: c.timers) := by
    rw [timers, hqueue, create_expired]
    exact (Scheduler.enqueue_perm d _).append_right _
  have hdue : c.now < d.due := by
    have hpos := (newGroup_dated key params).2 t ht
    rw [hd]
    exact Int.lt_add_of_pos_right c.now (Int.natCast_pos.2 hpos)
  -- The id is new, and all deadlines are those of groups on the roster.
  have hfresh : d.group ∉ c.timers.map Deadline.group := by
    intro hm
    obtain ⟨e, he, hgroup⟩ := List.mem_map.1 hm
    obtain ⟨g, hg, hge⟩ := h.known e he
    have hlt := hc.tidy.id_lt_nextId hg
    rw [← (Group.of_deadline? hge).2.1, hgroup, hd] at hlt
    exact Nat.lt_irrefl _ hlt
  refine ⟨?_, ?_, ?_, ?_, ?_, ?_, ?_, ?_, ?_, h.dated_create key params⟩
  · rw [hs]
    exact h.running
  · rw [hqueue]
    exact h.inOrder.enqueue d
  · rw [hqueue, create_now]
    intro e he
    rcases Scheduler.mem_enqueue.1 he with rfl | he
    · exact hdue
    · exact h.ahead e he
  · rw [create_expired, create_now]
    exact h.passed
  · refine (htimers.map Deadline.group).nodup_iff.2 ?_
    exact List.nodup_cons.2 ⟨hfresh, h.distinct⟩
  · intro e he
    rcases List.mem_cons.1 (htimers.mem_iff.1 he) with rfl | he
    · refine ⟨c.newGroup key params, ?_, hnew⟩
      rw [create_groups]
      exact List.mem_append_right _ (List.mem_singleton_self _)
    · exact h.known_create key params he
  · intro other g e hg he
    rw [htimers.mem_iff, List.mem_cons]
    rcases h.armed_create hc hk hg he with hm | hm
    · exact .inr hm
    · exact .inl (Option.some.inj (hm.symm.trans hnew))
  · rw [hqueue, hs, (Scheduler.enqueue_perm d _).length_eq, List.length_cons, ← h.pending]
  · rw [hs, timedGroups_create, ht, ← h.counted]
    show c.scheduler.pending + 1 + c.scheduler.fired = _ + 1
    omega

theorem create (h : Timed c) (hc : Sound c) {key : String} (params : Params)
    (hk : c.group? key = none) : Timed (c.create key params).2 := by
  cases ht : (c.newGroup key params).timeout with
  | none => exact h.create_untimed hc hk ht
  | some t => exact h.create_timed hc hk ht

/-! ### Time -/

/-- What comes due moves from the queue to what fired. -/
theorem advance (h : Timed c) (hc : Sound c) (ms : Nat) : Timed (c.advance ms) := by
  have hlength := Scheduler.length_dueBy_add_length_later (c.now + ms) c.scheduler.queue
  have htimers : (c.advance ms).timers.Perm c.timers := by
    rw [advance_eq hc.swept]
    show (Scheduler.later _ _ ++ (c.expired ++ Scheduler.dueBy _ _)).Perm (c.scheduler.queue ++ _)
    rw [← List.append_assoc]
    refine List.perm_append_comm.trans ?_
    rw [← List.append_assoc, Scheduler.dueBy_append_later]
  have hroster : (c.advance ms).roster = c.roster := by rw [advance_eq hc.swept]
  refine ⟨?_, ?_, ?_, ?_, (htimers.map _).nodup_iff.2 h.distinct, ?_, ?_, ?_, ?_, hroster ▸ h.dated⟩
  · rw [advance_eq hc.swept]
    exact h.running
  · rw [advance_eq hc.swept]
    exact h.inOrder.later _
  · rw [advance_eq hc.swept]
    exact fun d hd => Scheduler.lt_due_of_mem_later h.inOrder hd
  · rw [advance_eq hc.swept]
    intro d hd
    rcases List.mem_append.1 hd with hd | hd
    · exact Int.le_trans (h.passed d hd) (Int.le_add_of_nonneg_right (Int.natCast_nonneg ms))
    · exact Scheduler.due_le_of_mem_dueBy hd
  · intro d hd
    rw [hroster]
    exact h.known d (htimers.mem_iff.1 hd)
  · intro key g d hg hd
    refine htimers.mem_iff.2 (h.armed key g d ?_ hd)
    rw [← hg, group?, group?, hroster]
  · rw [advance_eq hc.swept]
    show c.scheduler.pending - _ = (Scheduler.later _ _).length
    rw [h.pending]
    omega
  · have hcount : (c.advance ms).timedGroups = c.timedGroups := by
      rw [timedGroups, hroster, timedGroups]
    rw [hcount, ← h.counted, advance_eq hc.swept]
    show c.scheduler.pending - _ + (c.scheduler.fired + _) = c.scheduler.pending + c.scheduler.fired
    rw [h.pending]
    omega

end Timed

/-! ### Runs -/

theorem Change.timed {a b : Coordinator} {l : List Message} (hs : Sound a) (hc : Change a l b)
    (h : Timed a) : Timed b := by
  cases hc with
  | answered _ => exact h.congr rfl rfl rfl rfl
  | opened params hk => exact h.create hs params hk
  | @kept key g m hg _ _ =>
    have hfound := hs.tidy.group?_of_mem (hs.of_group? hg).1
    exact h.update hs (x := g.push m) hfound rfl rfl rfl rfl rfl
  | @filled key g m trigger caller hg _ _ _ =>
    have hr := hs.record (.offered g m a.now)
    have ht : Timed (a.record (.offered g m a.now)) := h.congr rfl rfl rfl rfl
    exact ht.finalize hr (x := g.push m) hg rfl rfl trigger caller
  | refused _ _ => exact h.congr rfl rfl rfl rfl
  | @forced key g caller hg _ =>
    have ht : Timed (a.remark g (g.claimTrigger a.now)) :=
      h.congr (remark_roster ..) (remark_now ..) (remark_scheduler ..) (remark_expired ..)
    exact ht.finalize (hs.remark g _) ((group?_remark ..).trans hg) rfl rfl _ caller
  | @expired d g _ hg hid =>
    -- The deadline is handled last: until then the group is live.
    have ht : Timed (a.remark g (g.claimTrigger a.now)) :=
      h.congr (remark_roster ..) (remark_now ..) (remark_scheduler ..) (remark_expired ..)
    have hgone := (group?_remark a g (g.claimTrigger a.now) d.key).trans hg
    have hfinal := ht.finalize (hs.remark g _) hgone rfl rfl (g.claimTrigger a.now) .expiry
    have hsound : Sound ((a.remark g (g.claimTrigger a.now)).finalize g (g.claimTrigger a.now)
      .expiry) := (hs.remark g _).finalize hgone rfl rfl _ rfl
    rw [take_remark, take_finalize]
    refine hfinal.take hsound fun x hx => ?_
    rw [(hs.remark g _).group?_finalize hgone rfl rfl, if_pos rfl] at hx
    cases hx
  | @stale d _ hg => exact (h.take hs hg).congr rfl rfl rfl rfl
  | advanced ms => exact h.advance hs ms
  | @released f hf refusal =>
    obtain ⟨g, hg, -⟩ := hs.group_landed hf
    exact h.update hs (x := g.clear) (g := g) (Roster.id_of_group? hg ▸ hg) rfl
      (release_roster hg refusal) (release_now hg refusal) (release_scheduler hg refusal)
      (release_expired hg refusal)

theorem timed_run {c : Coordinator} {moves : List Move}
    (hstop : ∀ move ∈ moves, move.isStop = false) (hs : Sound c) (h : Timed c) :
    Timed (run c moves) := by
  refine run_keeps (fun move hm _ hs h => ?_) hs h
  refine apply_keeps move Change.timed (fun hstopped => ?_) ?_ hs h
  · rw [hstop move hm] at hstopped
    cases hstopped
  · intro _ a key g m hs hg _ h
    have hfound := hs.tidy.group?_of_mem (hs.of_group? hg).1
    exact h.update hs (x := g.push m) hfound rfl rfl rfl rfl rfl

/-! ### One to one -/

/-- Whether a deadline is one that was scheduled for a group. -/
def isTimerOf (g : Group) (d : Deadline) : Bool :=
  d.key == g.key && d.group == g.id

theorem isTimerOf_iff {g : Group} {d : Deadline} :
    isTimerOf g d = true ↔ d.key = g.key ∧ d.group = g.id := by
  simp [isTimerOf]

/-- Among deadlines of distinct groups, a group has the one it has or none. -/
theorem filter_isTimerOf {ds : List Deadline} (hd : (ds.map Deadline.group).Nodup) {g : Group}
    {d : Deadline} (hm : d ∈ ds) (hg : isTimerOf g d = true) : ds.filter (isTimerOf g) = [d] := by
  induction ds with
  | nil => cases hm
  | cons e rest ih =>
    obtain ⟨he, hrest⟩ := List.nodup_cons.1 hd
    have hid := (isTimerOf_iff.1 hg).2
    rcases List.mem_cons.1 hm with rfl | hm
    · rw [List.filter_cons_of_pos hg]
      congr 1
      refine List.filter_eq_nil_iff.2 fun x hx hxg => he ?_
      exact List.mem_map.2 ⟨x, hx, (isTimerOf_iff.1 hxg).2.trans hid.symm⟩
    · have hne : ¬ isTimerOf g e = true := fun heg =>
        he (List.mem_map.2 ⟨d, hm, hid.trans (isTimerOf_iff.1 heg).2.symm⟩)
      rw [List.filter_cons_of_neg hne, ih hrest hm]

namespace Timed
variable {c : Coordinator}

/-- A deadline with a group's id is that group's. -/
theorem deadline?_of_mem (h : Timed c) (hs : Sound c) {key : String} {g : Group}
    (hg : c.group? key = some g) {d : Deadline} (hd : d ∈ c.timers) (hid : d.group = g.id) :
    g.deadline? = some d := by
  obtain ⟨x, hx, hxd⟩ := h.known d hd
  have hxid := (Group.of_deadline? hxd).2.1
  rwa [hs.tidy.eq_of_id (hs.of_group? hg).1 hx (hid.symm.trans hxid)]

theorem filter_timers (h : Timed c) (hs : Sound c) {key : String} {g : Group}
    (hg : c.group? key = some g) : c.timers.filter (isTimerOf g) =
      (g.timeout.map fun (t : Nat) => (⟨key, g.id, g.created + t⟩ : Deadline)).toList := by
  obtain ⟨hm, rfl, -⟩ := hs.of_group? hg
  have hdeadline : g.deadline? =
      g.timeout.map fun (t : Nat) => ⟨g.key, g.id, g.created + t⟩ := by
    rw [Group.deadline?, (h.dated g hm).1, Option.map_map]
    rfl
  rw [← hdeadline]
  cases hd : g.deadline? with
  | none =>
    refine List.filter_eq_nil_iff.2 fun d hdm hdg => ?_
    rw [h.deadline?_of_mem hs hg hdm (isTimerOf_iff.1 hdg).2] at hd
    cases hd
  | some d =>
    obtain ⟨hkey, hgroup, -⟩ := Group.of_deadline? hd
    exact filter_isTimerOf h.distinct (h.armed g.key g d hg hd) (isTimerOf_iff.2 ⟨hkey, hgroup⟩)

/-- A live group whose deadline fired has expired, and is completed as timed out. -/
theorem isExpired_of_fired (h : Timed c) (hs : Sound c) {d : Deadline} (hd : d ∈ c.expired)
    {g : Group} (hg : c.group? d.key = some g) (hid : g.id = d.group) :
    g.policy.isExpired c.now = true := by
  have hdeadline := h.deadline?_of_mem hs hg (List.mem_append_right _ hd) hid.symm
  have hdue := h.passed d hd
  simp only [Policy.isExpired, (Group.of_deadline? hdeadline).2.2, hdue, decide_true]

/-- A deadline that fired completes its group as timed out, if that is live. -/
theorem expire_eq (h : Timed c) (hs : Sound c) {d : Deadline} (hd : d ∈ c.expired) {g : Group}
    (hg : c.group? d.key = some g) (hid : g.id = d.group) : (c.take d).expire d =
      ((c.take d).record (.timedOut d.key)).finalize g .timeout .expiry := by
  have htrigger : g.claimTrigger (c.take d).now = .timeout :=
    Group.claimTrigger_of_isExpired (h.isExpired_of_fired hs hd hg hid)
  rw [expire_live (hs.take d) hg hid, htrigger, remark, if_pos rfl, (hs.of_group? hg).2.1]

/-- Once what fired is handled, the deadlines of live groups lie ahead. -/
theorem lt_due (h : Timed c) (hnone : c.expired = []) {key : String} {g : Group}
    (hg : c.group? key = some g) {due : Instant} (hdue : g.policy.expiry = some due) :
    c.now < due := by
  have hm := h.armed key g ⟨g.key, g.id, due⟩ hg (by rw [Group.deadline?, hdue]; rfl)
  rw [timers, hnone, List.append_nil] at hm
  exact h.ahead _ hm

end Timed

/-- Until the scheduler is stopped, each live group that has a timeout has exactly one deadline,
pending or fired and not handled, and one that has none has none; each group that ever had a timeout
is counted as pending or fired. A deadline that fired completes its group, at once and as timed out,
if that is live; else neither its firing nor its handling touches anything. -/
theorem timers_match (settings : Settings) (metrics : Bool) (now : Instant) (moves : List Move)
    (hstop : ∀ move ∈ moves, move.isStop = false) :
    let c := run (start settings metrics now) moves
    (∀ key g, c.group? key = some g →
      let timer := (g.timeout.map fun (t : Nat) => (⟨key, g.id, g.created + t⟩ : Deadline)).toList
      c.timers.filter (isTimerOf g) = timer ∧
        (c.expired = [] → c.scheduler.queue.filter (isTimerOf g) = timer)) ∧
    c.scheduler.pending = c.scheduler.queue.length ∧
    c.scheduler.pending + c.scheduler.fired = c.timedGroups ∧
    (∀ d ∈ c.expired, ∀ g, c.group? d.key = some g → g.id = d.group →
      let b := (Move.expire d).apply c
      b = ((c.take d).record (.timedOut d.key)).finalize g .timeout .expiry ∧
        b.now = c.now ∧ b.group? d.key = none ∧
        b.deliveries = c.deliveries ++ [(g.id, ⟨d.key, g.messages, .timeout⟩)]) ∧
    (∀ d ∈ c.expired, (∀ g, c.group? d.key = some g → g.id ≠ d.group) →
      (Move.expire d).apply c =
        {c with expired := c.expired.erase d, history := c.history ++ [.stale d]}) ∧
    ∀ ms : Nat, ∃ due later, due ++ later = c.scheduler.queue ∧
      (∀ d ∈ due, d.due ≤ c.now + ms) ∧ (∀ d ∈ later, c.now + ms < d.due) ∧
      c.advance ms = {c with
        now := c.now + ms
        scheduler := {c.scheduler with
          channel := []
          heap := later
          pending := c.scheduler.pending - due.length
          fired := c.scheduler.fired + due.length}
        expired := c.expired ++ due
        history := c.history ++ due.map .fired} := by
  intro c
  have hstart := sound_start settings metrics now
  have hs : Sound c := run_sound hstart moves
  have h : Timed c := timed_run hstop hstart (timed_start settings metrics now)
  refine ⟨fun key g hg => ?_, h.pending, h.counted, fun d hd g hg hid => ?_, fun d hd hg => ?_,
    fun ms => ⟨_, _, Scheduler.dueBy_append_later (c.now + ms) _, fun d hd =>
      Scheduler.due_le_of_mem_dueBy hd, fun d hd => Scheduler.lt_due_of_mem_later h.inOrder hd,
      advance_eq hs.swept ms⟩⟩
  · have hfilter := h.filter_timers hs hg
    refine ⟨hfilter, fun hnone => ?_⟩
    rwa [timers, hnone, List.append_nil] at hfilter
  · obtain ⟨-, hkey, -⟩ := hs.of_group? hg
    have happly : (Move.expire d).apply c =
        ((c.take d).record (.timedOut d.key)).finalize g .timeout .expiry := by
      simp only [Move.apply, hd, if_true]
      exact h.expire_eq hs hd hg hid
    refine ⟨happly, ?_, ?_, ?_⟩
    · rw [happly]
      rfl
    · have hrecord := (hs.take d).record (.timedOut d.key)
      rw [happly, hrecord.group?_finalize hg rfl rfl, if_pos rfl]
    · rw [happly, deliveries_finalize, deliveries_record, resultOf, hkey]
      exact congrArg (· ++ _) (List.append_nil _)
  · simp only [Move.apply, hd, if_true]
    rw [expire_stale (c := c.take d) hg]
    rfl

/-- A key that is reused has two deadlines pending, one of them that of its live group. -/
theorem timers_match_of_reuse :
    let moves : List Move :=
      [.openGroup "k" ⟨1000, 0, 0⟩, .force (.outside 0) "k", .openGroup "k" ⟨1000, 0, 0⟩]
    let c := run (start ⟨"name", "sink", none, true⟩ false 0) moves
    (∀ move ∈ moves, move.isStop = false) ∧ c.scheduler.pending + c.scheduler.fired = 2 ∧
      ∃ g, c.group? "k" = some g ∧ c.scheduler.queue.filter (isTimerOf g) = [⟨"k", 2, 1000⟩] := by
  intro moves c
  have hstop : ∀ move ∈ moves, move.isStop = false := by decide
  obtain ⟨htimers, -, hcount, -⟩ := timers_match ⟨"name", "sink", none, true⟩ false 0 moves hstop
  refine ⟨hstop, hcount.trans (by decide), _, rfl, ?_⟩
  exact (htimers "k" _ rfl).2 rfl

end Aggregation.Coordinator
