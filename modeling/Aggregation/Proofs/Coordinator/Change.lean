import Aggregation.Coordinator.Conclusion
import Aggregation.Proofs.Roster
import Aggregation.Proofs.Scheduler

/-! What can change in a coordinator.

A `Change` is one thing that can happen to a coordinator between two points at which somebody else
could look: a group is opened, takes a message, is filled, is completed by force or because of its
deadline, is released by its sink. Everything that the operations do is a sequence of changes, so
what each change keeps true is kept by every operation. -/
namespace Aggregation

/-- Whether a caller waits for anything but a list of siblings. -/
def Caller.isSingle : Caller → Bool
  | .siblings .. => false
  | _ => true

namespace Coordinator

/-! ### Finalizing a group -/

/-- Complete a group, evict it and hand it to its sink. -/
def finalize (c : Coordinator) (g : Group) (trigger : Trigger) (caller : Caller) : Coordinator :=
  (c.setGroup g.sealed).deliver g.sealed trigger caller

/-- Remark that a group's deadline has come, if that is why it is completed. -/
def remark (c : Coordinator) (g : Group) (trigger : Trigger) : Coordinator :=
  if trigger = .timeout then c.record (.timedOut g.key) else c

/-- A group is completed by force and handed over, and somebody waits for its sink. -/
def forced (c : Coordinator) (g : Group) (caller : Caller) : Coordinator :=
  (c.remark g (g.claimTrigger c.now)).finalize g (g.claimTrigger c.now) caller

/-- Take a deadline off those that fired and are not handled. -/
def take (c : Coordinator) (d : Deadline) : Coordinator :=
  {c with expired := c.expired.erase d}

/-- Take a finalization off those in flight. -/
def land (c : Coordinator) (id : Nat) : Coordinator :=
  {c with inFlight := c.inFlight.eraseP fun f => f.group == id}

/-- What a group's sink is handed. -/
def resultOf (g : Group) (trigger : Trigger) : Result :=
  ⟨g.key, g.messages, trigger⟩

section Finalize
variable (c : Coordinator) (g : Group) (trigger : Trigger) (caller : Caller)

theorem finalize_roster : (c.finalize g trigger caller).roster = c.roster.retire g.sealed := rfl
theorem finalize_now : (c.finalize g trigger caller).now = c.now := rfl
theorem finalize_settings : (c.finalize g trigger caller).settings = c.settings := rfl
theorem finalize_scheduler : (c.finalize g trigger caller).scheduler = c.scheduler := rfl
theorem finalize_expired : (c.finalize g trigger caller).expired = c.expired := rfl

theorem finalize_inFlight : (c.finalize g trigger caller).inFlight =
    ⟨g.id, g.outlet, resultOf g trigger, caller⟩ :: c.inFlight := rfl

theorem finalize_history : (c.finalize g trigger caller).history =
    c.history ++ [.delivered g.id (resultOf g trigger) g.outlet.recorded
      ((c.roster.retire g.sealed).registry.contains g.key)] := rfl

theorem remark_roster : (c.remark g trigger).roster = c.roster := by
  unfold remark; split <;> rfl
theorem remark_now : (c.remark g trigger).now = c.now := by
  unfold remark; split <;> rfl
theorem remark_settings : (c.remark g trigger).settings = c.settings := by
  unfold remark; split <;> rfl
theorem remark_scheduler : (c.remark g trigger).scheduler = c.scheduler := by
  unfold remark; split <;> rfl
theorem remark_expired : (c.remark g trigger).expired = c.expired := by
  unfold remark; split <;> rfl
theorem remark_inFlight : (c.remark g trigger).inFlight = c.inFlight := by
  unfold remark; split <;> rfl

theorem remark_metrics : (c.remark g trigger).metrics = c.metrics := by
  unfold remark; split <;> rfl

theorem group?_remark (key : String) : (c.remark g trigger).group? key = c.group? key := by
  unfold remark; split <;> rfl

/-- Taking a deadline off matters to nothing that is done to a group. -/
theorem take_remark (d : Deadline) : (c.take d).remark g trigger = (c.remark g trigger).take d := by
  unfold remark; split <;> rfl

theorem take_finalize (d : Deadline) :
    (c.take d).finalize g trigger caller = (c.finalize g trigger caller).take d := rfl

end Finalize

/-- Claiming a group that collects completes it. -/
theorem claim_collecting {c : Coordinator} {g : Group} (hc : g.completed = false) :
    c.claim g = (some (g.sealed, g.claimTrigger c.now),
      (c.remark g (g.claimTrigger c.now)).setGroup g.sealed) := by
  simp only [claim, Group.claim_collecting hc, remark]
  split <;> rfl

theorem claim_completed {c : Coordinator} {g : Group} (hc : g.completed = true) :
    c.claim g = (none, c) := by
  simp only [claim, Group.claim_completed hc]

/-! ### Opening a group -/

/-- The group that is made for a key. -/
def newGroup (c : Coordinator) (key : String) (params : Params) : Group :=
  Group.create c.roster.nextId key params (sequenceProperty c.settings.aggregator) c.outlet c.now

section Create
variable (c : Coordinator) (key : String) (params : Params)

theorem schedule_eq (d : Deadline) : c.schedule d =
    {c with
      scheduler := c.scheduler.schedule d
      history := c.history ++ if c.scheduler.stopped then [.dropped] else []} := by
  unfold schedule
  split <;> simp [record]

theorem create_fst : (c.create key params).1 = c.newGroup key params := by
  simp only [create]
  split <;> rfl

theorem create_roster :
    (c.create key params).2.roster = c.roster.create key (c.newGroup key params) := by
  simp only [create, schedule_eq]
  split <;> rfl

theorem create_now : (c.create key params).2.now = c.now := by
  simp only [create, schedule_eq]
  split <;> rfl

theorem create_settings : (c.create key params).2.settings = c.settings := by
  simp only [create, schedule_eq]
  split <;> rfl

theorem create_inFlight : (c.create key params).2.inFlight = c.inFlight := by
  simp only [create, schedule_eq]
  split <;> rfl

theorem create_expired : (c.create key params).2.expired = c.expired := by
  simp only [create, schedule_eq]
  split <;> rfl

theorem create_metrics : (c.create key params).2.metrics = c.metrics.map Metrics.recordCreated := by
  simp only [create, schedule_eq]
  split <;> rfl

theorem create_scheduler : (c.create key params).2.scheduler =
    match (c.newGroup key params).policy.expiry with
    | some due => c.scheduler.schedule ⟨key, (c.newGroup key params).id, due⟩
    | none => c.scheduler := by
  simp only [create, schedule_eq]
  show (match (c.newGroup key params).policy.expiry with
    | some due => _
    | none => _ : Group × Coordinator).2.scheduler = _
  cases (c.newGroup key params).policy.expiry <;> rfl

theorem create_history : (c.create key params).2.history = c.history ++
    .opened (c.newGroup key params) ::
      if (c.newGroup key params).policy.expiry.isSome && c.scheduler.stopped then [.dropped]
      else [] := by
  simp only [create, schedule_eq]
  split
  · next due hdue =>
    have hdue' : (c.newGroup key params).policy.expiry = some due := hdue
    rw [hdue', Option.isSome_some, Bool.true_and]
    exact List.append_assoc c.history [_] _
  · next hdue =>
    have hdue' : (c.newGroup key params).policy.expiry = none := hdue
    rw [hdue']
    rfl

end Create

/-! ### Releasing a group -/

section Release
variable {c : Coordinator} {id : Nat} {g : Group} (hg : c.roster.group? id = some g)
  (refusal : Option String)
include hg

/-- Reporting a refusal counts and notes it and touches nothing else. -/
theorem release_eq : ∃ metrics events,
    c.release id refusal =
      ({c with metrics, history := c.history ++ events}.setGroup g.clear) ∧
    ∀ e ∈ events, ∃ fault,
      e = .lostEmpty g.key fault ∨ ∃ m, e = .faulted m fault ∨ e = .lost m fault := by
  simp only [release, hg]
  cases refusal with
  | none => exact ⟨c.metrics, [], by simp, fun e he => nomatch he⟩
  | some cause =>
    simp only [reportRefusal]
    cases g.last with
    | error _ => exact ⟨_, [_], rfl, by simp⟩
    | ok m =>
      refine ⟨_, [_], rfl, fun e he => ?_⟩
      obtain rfl := List.mem_singleton.1 he
      split <;> simp

theorem release_roster : (c.release id refusal).roster = c.roster.update g.clear := by
  obtain ⟨_, _, h, -⟩ := release_eq hg refusal
  rw [h]
  rfl

theorem release_now : (c.release id refusal).now = c.now := by
  obtain ⟨_, _, h, -⟩ := release_eq hg refusal
  rw [h]
  rfl

theorem release_settings : (c.release id refusal).settings = c.settings := by
  obtain ⟨_, _, h, -⟩ := release_eq hg refusal
  rw [h]
  rfl

theorem release_scheduler : (c.release id refusal).scheduler = c.scheduler := by
  obtain ⟨_, _, h, -⟩ := release_eq hg refusal
  rw [h]
  rfl

theorem release_expired : (c.release id refusal).expired = c.expired := by
  obtain ⟨_, _, h, -⟩ := release_eq hg refusal
  rw [h]
  rfl

theorem release_inFlight : (c.release id refusal).inFlight = c.inFlight := by
  obtain ⟨_, _, h, -⟩ := release_eq hg refusal
  rw [h]
  rfl

end Release

/-! ### Visiting groups -/

/-- Every group is visited, whatever the order. -/
theorem Visiting.mem_arrange (order : Visiting) {ids : List Nat} {id : Nat} :
    id ∈ order.arrange ids ↔ id ∈ ids :=
  (order.perm ids).mem_iff

/-! ### Finding room for a group -/

/-- The coordinator as opening leaves it. -/
def Opening.state : Opening → Coordinator
  | .handed _ c | .panicked c => c

section Opening
variable {P : Coordinator → Prop} {key : String} {params : Params}
  (hreplaced : ∀ {c : Coordinator} (id : Nat), P c → P ((c.record (.replaced key id)).evict key id))
  (hcreated : ∀ {c : Coordinator}, P c → P (c.create key params).2)
include hreplaced hcreated

/-- Each pass evicts a group at most, and the last one may create one. -/
theorem openWithin_keeps {passes : Nat} {c : Coordinator} {o : Opening}
    (h : openWithin passes key params c = some o) (hp : P c) : P o.state := by
  induction passes generalizing c with
  | zero => cases h
  | succ passes ih =>
    simp only [openWithin] at h
    cases hg : c.group? key with
    | none =>
      rw [hg] at h
      obtain rfl := Option.some.inj h
      unfold make
      split
      · exact hcreated hp
      · exact hp
    | some held =>
      simp only [hg] at h
      split at h
      · exact ih h (hreplaced held.id hp)
      · obtain rfl := Option.some.inj h
        exact hp

theorem openGroup_keeps {c : Coordinator} (hp : P c) : P (c.openGroup key params).2 := by
  unfold openGroup
  split
  · next g b hopen => exact openWithin_keeps hreplaced hcreated hopen hp
  · next b hopen => exact hcreated (openWithin_keeps hreplaced hcreated hopen hp)
  · exact hcreated hp

end Opening

theorem openGroup_of_make {c b : Coordinator} {key : String} {params : Params}
    (h : openWithin 2 key params c = some (b.make key params)) :
    c.openGroup key params = b.create key params := by
  by_cases hfits : params.Fits b.now <;>
    simp only [openGroup, h, make, hfits, if_true, if_false]

/-! ### Letting time pass -/

theorem fireAll_eq (c : Coordinator) : c.fireAll =
    {c with
      scheduler := c.scheduler.swept
      expired := c.expired ++ c.scheduler.sweep
      history := c.history ++ c.scheduler.sweep.map .fired} := by
  simp only [fireAll]
  rw [Scheduler.finish_idle]

/-- When nothing is left of an earlier sweep, what comes due fires. -/
theorem advance_eq {c : Coordinator} (h : c.scheduler.sweep = []) (ms : Nat) :
    c.advance ms =
      {c with
        now := c.now + ms
        scheduler := {c.scheduler with
          channel := []
          heap := Scheduler.later (c.now + ms) c.scheduler.queue
          pending := c.scheduler.pending - (Scheduler.dueBy (c.now + ms) c.scheduler.queue).length
          fired := c.scheduler.fired + (Scheduler.dueBy (c.now + ms) c.scheduler.queue).length}
        expired := c.expired ++ Scheduler.dueBy (c.now + ms) c.scheduler.queue
        history := c.history ++ (Scheduler.dueBy (c.now + ms) c.scheduler.queue).map .fired} := by
  simp only [advance, fireAll_eq, Scheduler.begin_receiveAll h, Scheduler.swept, h]

/-! ### Changes -/

/-- Whether an event merely tells somebody something. -/
def isAnswer : Event → Bool
  | .answered _ _ | .uncorrelated _ | .missing _ => true
  | _ => false

/-- One thing that happens to a coordinator, and the messages that it records. -/
inductive Change : Coordinator → List Message → Coordinator → Prop where
  | answered {c : Coordinator} {e : Event} (he : isAnswer e = true) : Change c [] (c.record e)
  | opened {c : Coordinator} {key : String} (params : Params) (hk : c.group? key = none) :
      Change c [] (c.create key params).2
  /-- A group takes a message and goes on collecting. -/
  | kept {c : Coordinator} {key : String} {g : Group} {m : Message} (hg : c.group? key = some g)
      (hr : g.hasCapacity = true)
      (he : g.policy.evaluate (g.messages ++ [m]) c.now = .incomplete) :
      Change c [m] ((c.record (.offered g m c.now)).setGroup (g.push m))
  /-- A group takes the message that completes it. -/
  | filled {c : Coordinator} {key : String} {g : Group} {m : Message} {trigger : Trigger}
      {caller : Caller} (hg : c.group? key = some g) (hr : g.hasCapacity = true)
      (he : g.policy.evaluate (g.messages ++ [m]) c.now = .complete trigger)
      (hcaller : caller.isSingle = true) :
      Change c [m] ((c.record (.offered g m c.now)).finalize (g.push m) trigger caller)
  /-- A full group turns a message away. -/
  | refused {c : Coordinator} {key : String} {g : Group} {m : Message}
      (hg : c.group? key = some g) (hr : g.hasCapacity = false) :
      Change c [] (((c.record (.offered g m c.now)).record (.rejected key (g.fullFault m))).fault
        g.outlet m (g.fullFault m))
  | forced {c : Coordinator} {key : String} {g : Group} {caller : Caller}
      (hg : c.group? key = some g) (hcaller : caller.isSingle = true) :
      Change c [] ((c.remark g (g.claimTrigger c.now)).finalize g (g.claimTrigger c.now) caller)
  /-- A deadline that fired completes the group that it was scheduled for. -/
  | expired {c : Coordinator} {d : Deadline} {g : Group} (hd : d ∈ c.expired)
      (hg : c.group? d.key = some g) (hid : g.id = d.group) :
      Change c [] (((c.take d).remark g (g.claimTrigger c.now)).finalize g (g.claimTrigger c.now)
        .expiry)
  /-- A deadline that fired finds its group gone. -/
  | stale {c : Coordinator} {d : Deadline} (hd : d ∈ c.expired)
      (hg : ∀ g, c.group? d.key = some g → g.id ≠ d.group) :
      Change c [] ((c.take d).record (.stale d))
  | advanced {c : Coordinator} (ms : Nat) : Change c [] (c.advance ms)
  /-- A sink has answered. -/
  | released {c : Coordinator} {f : Finalization} (hf : f ∈ c.inFlight) (refusal : Option String) :
      Change c [] ((c.land f.group).release f.group refusal)

/-- Changes one after the other, and the messages that they record together. -/
inductive Changes : Coordinator → List Message → Coordinator → Prop where
  | refl (c : Coordinator) : Changes c [] c
  | tail {a b c : Coordinator} {l m : List Message} (h : Changes a l b) (hc : Change b m c) :
      Changes a (l ++ m) c

theorem Change.changes {a b : Coordinator} {l : List Message} (h : Change a l b) :
    Changes a l b :=
  (Changes.refl a).tail h

theorem Changes.trans {a b c : Coordinator} {l m : List Message} (h : Changes a l b)
    (h' : Changes b m c) : Changes a (l ++ m) c := by
  induction h' with
  | refl => rwa [List.append_nil]
  | tail _ hc ih => exact (List.append_assoc ..) ▸ ih.tail hc

end Coordinator

end Aggregation
