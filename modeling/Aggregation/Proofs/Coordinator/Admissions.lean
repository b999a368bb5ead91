import Aggregation.Proofs.Calls
import Aggregation.Proofs.Coordinator.Completion
import Aggregation.Proofs.Coordinator.Execution
import Aggregation.Proofs.Coordinator.Handles
import Aggregation.Proofs.Coordinator.Strand
import Aggregation.Proofs.Coordinator.Stroke

/-! What an admission does, and what it says that it did.

A live group never holds more than its maximum, messages that are added through handles included
(`fitted_carried`). So with a sink that answers at once an admission does one of three things, and
its outcome tells which (`Admits`): the group goes on with the message, or is handed over with it
and the key is free, or is full and nothing changes. Each leaves traces that the others do not, so
the outcome may be read off what was done (`admission_agrees`). -/
namespace Aggregation

/-- A group that is within its maximum and goes where groups go. -/
structure Group.Fits (outlet : Outlet) (g : Group) : Prop where
  within : ∀ max, g.policy.max = some max → g.messages.length ≤ max
  outlet : g.outlet = outlet

namespace Coordinator

/-! ### Groups within their maximum -/

/-- Where the groups of a coordinator go that was started with some settings. -/
def outletOf (settings : Settings) : Outlet :=
  ⟨settings.sink, true, settings.hasFaultSink⟩

structure Fitted (settings : Settings) (c : Coordinator) : Prop where
  live : Live (Group.Fits (outletOf settings)) c
  settings : c.settings = settings

theorem fitted_start (settings : Settings) (metrics : Bool) (now : Instant) :
    Fitted settings (start settings metrics now) :=
  ⟨fun _ _ hg => (nomatch hg), rfl⟩

theorem fits_push {outlet : Outlet} {g : Group} (h : g.Fits outlet) (hr : g.hasCapacity = true)
    (m : Message) : (g.push m).Fits outlet :=
  ⟨Group.Recorded.push_within hr m, h.outlet⟩

theorem Fitted.newGroup {settings : Settings} {c : Coordinator} (h : Fitted settings c)
    (key : String) (params : Params) : (c.newGroup key params).Fits (outletOf settings) :=
  ⟨fun _ _ => Nat.zero_le _, by rw [← h.settings]; rfl⟩

theorem Change.fitted {settings : Settings} {a b : Coordinator} {l : List Message} (hs : Sound a)
    (hc : Change a l b) (h : Fitted settings a) : Fitted settings b :=
  ⟨hc.live hs h.newGroup (fun hr _ hg => fits_push hg hr _) h.live,
    (hc.settings hs).trans h.settings⟩

theorem fitted_carried {settings : Settings} {c : Coordinator} (hs : Ready settings c)
    (h : Fitted settings c) (moves : List (Move × Verdict)) :
    Fitted settings (c.carried moves) := by
  induction moves generalizing c with
  | nil => exact h
  | cons x rest ih =>
    have hstop : ∀ {a : Coordinator}, Fitted settings a → Fitted settings a.stop :=
      fun h => ⟨h.live, h.settings⟩
    refine ih (hs.carry x) (carry_keeps Change.fitted hstop ?_ hs.sound h x)
    intro a key g m hs hg hr h
    exact ⟨h.live.setGroup hs (x := g.push m) hg rfl (fits_push (h.live key g hg) hr m), h.settings⟩

/-! ### Completing a group -/

section Complete
variable {c : Coordinator} {key : String} {g x : Group} (h : Sound c) (hg : c.group? key = some g)
  (hid : x.id = g.id) (verdict : Verdict) (trigger : Trigger)
include h hg hid

theorem complete_scheduler : (c.complete verdict x trigger).scheduler = c.scheduler :=
  release_scheduler (c := {c.finalize x trigger .expiry with inFlight := c.inFlight})
    (group?_sealed h hg hid trigger) _

theorem complete_deliveries : (c.complete verdict x trigger).deliveries =
    c.deliveries ++ [(x.id, resultOf x trigger)] := by
  rw [← deliveries_finalize c x trigger .expiry]
  exact deliveries_release (c := {c.finalize x trigger .expiry with inFlight := c.inFlight})
    (group?_sealed h hg hid trigger) _

/-- Nobody's admission is answered. -/
theorem complete_outcomes : (c.complete verdict x trigger).outcomes = c.outcomes := by
  obtain ⟨_, events, hrelease, hevents⟩ := release_eq
    (c := {c.finalize x trigger .expiry with inFlight := c.inFlight})
    (group?_sealed h hg hid trigger) (verdict (resultOf x trigger))
  have hnone : events.filterMap Event.outcome? = [] := by
    refine List.filterMap_eq_nil_iff.2 fun e he => ?_
    obtain ⟨fault, rfl | ⟨m, rfl | rfl⟩⟩ := hevents e he <;> rfl
  rw [outcomes, complete, hrelease]
  show (c.history ++ [_] ++ events).filterMap Event.outcome? = _
  rw [List.filterMap_append, List.filterMap_append, hnone, List.append_nil]
  exact List.append_nil _

end Complete

/-! ### What is done to the group under a key -/

/-- What an admission does, told by its outcome, to a group of a key that held some messages. -/
inductive Admits (settings : Settings) (key : String) (m : Message) (id : Nat)
    (prior : List Message) (c b : Coordinator) : Outcome → Prop where
  | pending (g : Group) (hroom : ∀ x, c.group? key = some x → x.hasCapacity = true)
      (hg : b.group? key = some g) (hid : g.id = id) (hc : g.completed = false)
      (hm : g.messages = prior ++ [m]) (hdeliveries : b.deliveries = c.deliveries)
      (hreported : b.reported = c.reported) : Admits settings key m id prior c b .pending
  | completed (trigger : Trigger) (hroom : ∀ x, c.group? key = some x → x.hasCapacity = true)
      (hfree : b.group? key = none)
      (hdeliveries : b.deliveries = c.deliveries ++ [(id, ⟨key, prior ++ [m], trigger⟩)]) :
      Admits settings key m id prior c b (.completed trigger)
  | rejected (g : Group) (hg : c.group? key = some g) (hfull : g.hasCapacity = false)
      (hid : g.id = id) (hm : g.messages = prior) (hmax : g.policy.max = some prior.length)
      (hroster : b.roster = c.roster) (hdeliveries : b.deliveries = c.deliveries)
      (hreported : b.reported = c.reported ++
        if settings.hasFaultSink then [(m, .groupFull key prior.length m.id)] else []) :
      Admits settings key m id prior c b .rejected

/-- What an admission leaves behind, and how it is answered. -/
structure Admitted (settings : Settings) (call : Call) (key : String) (m : Message) (id : Nat)
    (prior : List Message) (c : Coordinator) (outcome : Outcome) (b : Coordinator) : Prop where
  answered : b.outcomes = c.outcomes ++ [(call, outcome)]
  admits : Admits settings key m id prior c b outcome
  others : ∀ other, other ≠ key → b.group? other = c.group? other

section Live
variable {settings : Settings} {c : Coordinator} (h : Sound c) (hf : c.inFlight = [])
  (hd : c.expired = []) {key : String} {g : Group} (hg : c.group? key = some g) (call : Call)
  (verdict : Verdict)
include h hf hd hg

theorem admitted_full (hfits : g.Fits (outletOf settings)) (hr : g.hasCapacity = false)
    (m : Message) (params : Params) :
    Admitted settings call key m g.id g.messages c .rejected
        ((c.submit call key m params).settle verdict) ∧
      ((c.submit call key m params).settle verdict).scheduler = c.scheduler := by
  obtain ⟨-, hkey, -⟩ := h.of_group? hg
  have hmax := (Group.full_iff hfits.within).1 hr
  rw [settle_submit_full h hf hd hg call verdict hr]
  refine ⟨⟨?_, .rejected g hg hr rfl rfl hmax rfl ?_ ?_, fun _ _ => rfl⟩, rfl⟩
  · rw [outcomes_record, outcomes_fault, outcomes_record, outcomes_record]
    simp [Event.outcome?]
  · rw [deliveries_record_none _ rfl, deliveries_refused]
  · have hfault : g.fullFault m = .groupFull key g.messages.length m.id := by
      rw [Group.fullFault, hkey, hmax]
      rfl
    have hhistory : ((((c.record (.offered g m c.now)).record (.rejected key (g.fullFault m))).fault
        g.outlet m (g.fullFault m)).record (.answered call (.outcome .rejected))).history =
        c.history ++ [.offered g m c.now, .rejected key (g.fullFault m),
          if g.outlet.hasFaultSink then .faulted m (g.fullFault m) else .lost m (g.fullFault m),
          .answered call (.outcome .rejected)] := by
      simp [record, fault, count]
    rw [reported_append hhistory, hfault, hfits.outlet]
    show _ = c.reported ++ if (outletOf settings).hasFaultSink then _ else _
    cases (outletOf settings).hasFaultSink <;> rfl

theorem admitted_pending (hr : g.hasCapacity = true) {m : Message}
    (he : g.policy.evaluate (g.messages ++ [m]) c.now = .incomplete) (params : Params) :
    Admitted settings call key m g.id g.messages c .pending
        ((c.submit call key m params).settle verdict) ∧
      ((c.submit call key m params).settle verdict).scheduler = c.scheduler := by
  have hroom : ∀ x, c.group? key = some x → x.hasCapacity = true := fun x hx =>
    Option.some.inj (hg.symm.trans hx) ▸ hr
  have hgroup := (h.record (.offered g m c.now)).group?_setGroup (x := g.push m) hg rfl
  rw [settle_submit_pending h hf hd hg call verdict hr he]
  refine ⟨⟨?_, .pending (g.push m) hroom ((hgroup key).trans (if_pos rfl)) rfl
    (h.of_group? hg).2.2 rfl ?_ ?_, fun other hother => (hgroup other).trans (if_neg hother)⟩, rfl⟩
  · rw [outcomes_record]
    show (c.record (.offered g m c.now)).outcomes ++ _ = _
    rw [outcomes_record]
    simp [Event.outcome?]
  · rw [deliveries_record_none _ rfl]
    exact deliveries_record_none c rfl
  · have hhistory : (((c.record (.offered g m c.now)).setGroup (g.push m)).record
        (.answered call (.outcome .pending))).history =
        c.history ++ [.offered g m c.now, .answered call (.outcome .pending)] := by
      simp [record, setGroup]
    rw [reported_append hhistory]
    exact List.append_nil _

theorem admitted_claimed (hr : g.hasCapacity = true) {m : Message} {trigger : Trigger}
    (he : g.policy.evaluate (g.messages ++ [m]) c.now = .complete trigger) (params : Params) :
    Admitted settings call key m g.id g.messages c (.completed trigger)
        ((c.submit call key m params).settle verdict) ∧
      ((c.submit call key m params).settle verdict).scheduler = c.scheduler := by
  obtain ⟨-, hkey, -⟩ := h.of_group? hg
  have hroom : ∀ x, c.group? key = some x → x.hasCapacity = true := fun x hx =>
    Option.some.inj (hg.symm.trans hx) ▸ hr
  have hs := h.record (.offered g m c.now)
  have hgroup := group?_complete hs (x := g.push m) hg rfl verdict trigger rfl
  rw [settle_submit_claimed h hf hd hg call verdict hr he]
  refine ⟨⟨?_, .completed trigger hroom ((hgroup key).trans (if_pos rfl)) ?_,
    fun other hother => (hgroup other).trans (if_neg hother)⟩, ?_⟩
  · rw [outcomes_record, complete_outcomes hs (x := g.push m) hg rfl, outcomes_record]
    simp [Event.outcome?]
  · rw [deliveries_record_none _ rfl, complete_deliveries hs (x := g.push m) hg rfl,
      deliveries_record_none c rfl, ← hkey]
    rfl
  · exact complete_scheduler hs (x := g.push m) hg rfl verdict trigger

/-- An admission to a group that is there. -/
theorem admitted_live (hfits : g.Fits (outletOf settings)) (m : Message) (params : Params) :
    ∃ outcome, Admitted settings call key m g.id g.messages c outcome
        ((c.submit call key m params).settle verdict) ∧
      ((c.submit call key m params).settle verdict).scheduler = c.scheduler := by
  cases hr : g.hasCapacity with
  | false => exact ⟨_, admitted_full h hf hd hg call verdict hfits hr m params⟩
  | true =>
    cases he : g.policy.evaluate (g.messages ++ [m]) c.now with
    | incomplete => exact ⟨_, admitted_pending h hf hd hg call verdict hr he params⟩
    | complete trigger => exact ⟨_, admitted_claimed h hf hd hg call verdict hr he params⟩

end Live

section Free
variable {settings : Settings} {c : Coordinator} {key : String} {params : Params}

theorem newGroup_hasCapacity : (c.newGroup key params).hasCapacity = true :=
  Group.hasCapacity_iff.2 (Policy.short_nil ..).under.2.2

theorem reported_create : (c.create key params).2.reported = c.reported := by
  rw [reported_append (create_history c key params)]
  refine List.append_right_eq_self.2 (List.filterMap_eq_nil_iff.2 fun e he => ?_)
  rcases List.mem_cons.1 he with rfl | he
  · rfl
  · split at he
    · rw [List.mem_singleton.1 he]
      rfl
    · cases he

/-- What is done to a group that had to be created is done to one that held nothing. -/
theorem Admitted.of_create (h : Sound c) (hk : c.group? key = none) {call : Call} {m : Message}
    {outcome : Outcome} {b : Coordinator}
    (ha : Admitted settings call key m c.roster.nextId [] (c.create key params).2 outcome b) :
    Admitted settings call key m c.roster.nextId [] c outcome b := by
  obtain ⟨hanswered, hadmits, hothers⟩ := ha
  have hroom : ∀ x, c.group? key = some x → x.hasCapacity = true := fun x hx => by
    rw [hk] at hx
    cases hx
  refine ⟨hanswered.trans (by rw [outcomes_create]), ?_, fun other hother => ?_⟩
  · cases hadmits with
    | pending g _ hg hid hc hm hdeliveries hreported =>
      exact .pending g hroom hg hid hc hm (hdeliveries.trans (deliveries_create ..))
        (hreported.trans reported_create)
    | completed trigger _ hfree hdeliveries =>
      exact .completed trigger hroom hfree (hdeliveries.trans (by rw [deliveries_create]))
    | rejected g hg hfull =>
      rw [h.group?_create_self params hk] at hg
      rw [← Option.some.inj hg, newGroup_hasCapacity] at hfull
      cases hfull
  · exact (hothers other hother).trans ((h.group?_create params hk other).trans (if_neg hother))

end Free

section Carried
variable {settings : Settings} {c : Coordinator} (h : Ready settings c) (hfits : Fitted settings c)
  (call : Call) (key : String) (m : Message) (params : Params) (verdict : Verdict)
include h hfits

/-- Every admission that is carried through; the scheduler sees nothing of it but the deadline of a
group that is created. -/
theorem admitted_carry : ∃ outcome,
    Admitted settings call key m (((c.group? key).map Group.id).getD c.roster.nextId)
        (((c.group? key).map Group.messages).getD []) c outcome
        (c.carry (.submit call key m params, verdict)) ∧
      (c.carry (.submit call key m params, verdict)).scheduler =
        if c.group? key = none then (c.create key params).2.scheduler else c.scheduler := by
  show ∃ outcome, Admitted settings call key m _ _ c outcome
    ((c.submit call key m params).settle verdict) ∧
      ((c.submit call key m params).settle verdict).scheduler = _
  cases hk : c.group? key with
  | some g =>
    obtain ⟨outcome, hadmitted, hscheduler⟩ := admitted_live h.sound h.inFlight h.expired hk call
      verdict (hfits.live key g hk) m params
    exact ⟨outcome, hadmitted, hscheduler⟩
  | none =>
    obtain ⟨outcome, hadmitted, hscheduler⟩ := admitted_live (h.sound.create params hk)
      ((create_inFlight ..).trans h.inFlight) ((create_expired ..).trans h.expired)
      (h.sound.group?_create_self params hk) call verdict (hfits.newGroup key params) m params
    rw [submit_create h.sound hk]
    exact ⟨outcome, hadmitted.of_create h.sound hk, hscheduler⟩

end Carried

/-! ### Reading the outcome off the effects -/

namespace Admits
variable {settings : Settings} {key : String} {m : Message} {id : Nat}
  {prior : List Message} {c b : Coordinator} {outcome : Outcome}
  (h : Admits settings key m id prior c b outcome)
include h

theorem pending_iff : outcome = .pending ↔
    (∃ g, b.group? key = some g ∧ g.completed = false ∧ g.messages = prior ++ [m]) ∧
      b.deliveries = c.deliveries ∧ b.reported = c.reported := by
  cases h with
  | pending g _ hg _ hc hm hdeliveries hreported =>
    exact ⟨fun _ => ⟨⟨g, hg, hc, hm⟩, hdeliveries, hreported⟩, fun _ => rfl⟩
  | completed trigger _ hfree _ =>
    refine ⟨fun e => (nomatch e), ?_⟩
    rintro ⟨⟨g, hg, -⟩, -⟩
    rw [hfree] at hg
    cases hg
  | rejected g hg _ _ hm _ hroster _ _ =>
    refine ⟨fun e => (nomatch e), ?_⟩
    rintro ⟨⟨x, hx, -, hxm⟩, -⟩
    have hsame : b.group? key = some g := (congrArg (Roster.registered? · key) hroster).trans hg
    obtain rfl := Option.some.inj (hsame.symm.trans hx)
    simp [hm] at hxm

theorem completed_iff (trigger : Trigger) : outcome = .completed trigger ↔
    (∃ x, b.deliveries = c.deliveries ++ [(x, ⟨key, prior ++ [m], trigger⟩)]) ∧
      b.group? key = none := by
  cases h with
  | pending g _ hg _ _ _ _ _ =>
    refine ⟨fun e => (nomatch e), ?_⟩
    rintro ⟨-, hfree⟩
    rw [hfree] at hg
    cases hg
  | completed t _ hfree hdeliveries =>
    constructor
    · intro e
      obtain rfl := Outcome.completed.inj e
      exact ⟨⟨_, hdeliveries⟩, hfree⟩
    · rintro ⟨⟨_, hother⟩, -⟩
      have hlast := List.append_cancel_left (hdeliveries.symm.trans hother)
      simp only [List.cons.injEq, Prod.mk.injEq, Result.mk.injEq] at hlast
      rw [hlast.1.2.2.2]
  | rejected g _ _ _ _ _ _ hdeliveries _ =>
    refine ⟨fun e => (nomatch e), ?_⟩
    rintro ⟨⟨_, hother⟩, -⟩
    simp [hdeliveries] at hother

theorem rejected_iff (hs : Sound c) : outcome = .rejected ↔
    ∃ g, c.group? key = some g ∧ g.completed = false ∧
      g.policy.max = some g.messages.length := by
  have hfull : ∀ {g : Group}, g.hasCapacity = true → g.policy.max ≠ some g.messages.length :=
    fun hr hmax => Nat.lt_irrefl _ (Group.hasCapacity_iff.1 hr _ hmax)
  cases h with
  | pending _ hroom _ _ _ _ _ _ =>
    exact ⟨fun e => (nomatch e), fun ⟨g, hg, _, hmax⟩ => absurd hmax (hfull (hroom g hg))⟩
  | completed _ hroom _ _ =>
    exact ⟨fun e => (nomatch e), fun ⟨g, hg, _, hmax⟩ => absurd hmax (hfull (hroom g hg))⟩
  | rejected g hg _ _ hm hmax _ _ _ =>
    exact ⟨fun _ => ⟨g, hg, (hs.of_group? hg).2.2, hm ▸ hmax⟩, fun _ => rfl⟩

/-- The group that is under the key or was handed over is the one that the message came to. -/
theorem same_group : (∀ g, b.group? key = some g → g.id = id) ∧
    ∀ x result, b.deliveries = c.deliveries ++ [(x, result)] → x = id := by
  cases h with
  | pending g _ hg hid _ _ hdeliveries _ =>
    refine ⟨fun x hx => Option.some.inj (hg.symm.trans hx) ▸ hid, fun x result hother => ?_⟩
    simp [hdeliveries] at hother
  | completed _ _ hfree hdeliveries =>
    refine ⟨fun x hx => absurd (hfree.symm.trans hx) (by simp), fun x result hother => ?_⟩
    have hlast := List.append_cancel_left (hdeliveries.symm.trans hother)
    simp only [List.cons.injEq, Prod.mk.injEq] at hlast
    exact hlast.1.1.symm
  | rejected g hg _ hid _ _ hroster hdeliveries _ =>
    have hsame : b.group? key = some g := (congrArg (Roster.registered? · key) hroster).trans hg
    refine ⟨fun x hx => Option.some.inj (hsame.symm.trans hx) ▸ hid, fun x result hother => ?_⟩
    simp [hdeliveries] at hother

end Admits

/-- The deadline of the group that is created, if it has one, is scheduled. -/
theorem create_schedules (c : Coordinator) (key : String) (params : Params) :
    (params.timeout ≠ 0 → c.scheduler.stopped = false →
      (c.create key params).2.scheduler.queue.Perm
        (⟨key, c.roster.nextId, c.now + (params.timeout : Nat)⟩ :: c.scheduler.queue) ∧
      (c.create key params).2.scheduler.pending = c.scheduler.pending + 1) ∧
    (params.timeout = 0 ∨ c.scheduler.stopped = true →
      (c.create key params).2.scheduler = c.scheduler) := by
  by_cases ht : params.timeout = 0
  · have hnone : (c.newGroup key params).timeout = none := if_pos ht
    exact ⟨fun hne => absurd ht hne, fun _ => create_scheduler_untimed key params hnone⟩
  · have hsome : (c.newGroup key params).timeout = some params.timeout := if_neg ht
    rw [create_scheduler_timed key params hsome]
    refine ⟨fun _ hrunning => ⟨?_, ?_⟩, fun h => ?_⟩
    · rw [Scheduler.queue_schedule hrunning]
      exact Scheduler.enqueue_perm _ _
    · rw [Scheduler.schedule_of_running hrunning]
    · exact Scheduler.schedule_of_stopped (h.resolve_left ht) _

end Coordinator

end Aggregation
