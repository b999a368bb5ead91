import Aggregation.Proofs.Coordinator.Sound

/-! What the operations of a coordinator consist of.

Each operation on a sound coordinator is a sequence of changes; an admission records its message
exactly if its outcome, known at once or when the sink has answered, is that it is pending or
completed (`submit_changes`). -/
namespace Aggregation

/-- Whether an outcome says that the message was recorded. -/
def Outcome.isRecorded : Outcome → Bool
  | .pending | .completed _ => true
  | .rejected | .late _ | .uncorrelated _ => false

/-- What a placement comes to: its outcome, or that of the finalization it leads to. -/
def Coordinator.Placement.outcome : Coordinator.Placement → Outcome
  | .settled outcome => outcome
  | .claimed _ trigger => .completed trigger

/-- The message, if its placement records it. -/
def Coordinator.Placement.recorded (p : Coordinator.Placement) (m : Message) : List Message :=
  if p.outcome.isRecorded then [m] else []

namespace Coordinator
variable {c : Coordinator} {key : String} {g : Group} {m : Message} {params : Params}

/-! ### What is found under the keys -/

namespace Sound

theorem group?_create (h : Sound c) (params : Params) (hk : c.group? key = none) (other : String) :
    (c.create key params).2.group? other =
      if other = key then some (c.newGroup key params) else c.group? other := by
  show (c.create key params).2.roster.registered? other = _
  rw [create_roster]
  exact h.tidy.registered?_create (g := c.newGroup key params) (h.registry_none hk) rfl rfl other

theorem group?_create_self (h : Sound c) (params : Params) (hk : c.group? key = none) :
    (c.create key params).2.group? key = some (c.newGroup key params) := by
  rw [h.group?_create params hk, if_pos rfl]

theorem group?_setGroup (h : Sound c) {x : Group} (hg : c.group? key = some g) (hid : x.id = g.id)
    (other : String) :
    (c.setGroup x).group? other = if other = key then some x else c.group? other :=
  h.tidy.registered?_update hg hid other

theorem group?_finalize (h : Sound c) {x : Group} (hg : c.group? key = some g) (hid : x.id = g.id)
    (hk : x.key = g.key) (trigger : Trigger) (caller : Caller) (other : String) :
    (c.finalize x trigger caller).group? other =
      if other = key then none else c.group? other := by
  obtain ⟨-, rfl, -⟩ := h.of_group? hg
  show (c.finalize x trigger caller).roster.registered? other = _
  rw [finalize_roster, h.tidy.registered?_retire (x := x.sealed) (hk ▸ hg) hid rfl other]
  show (if other = x.key then _ else _) = _
  rw [hk]
  rfl

end Sound

/-! ### Opening -/

theorem openGroup_of_group (h : Sound c) (hg : c.group? key = some g) :
    c.openGroup key params = (g, c) := by
  simp only [openGroup, openWithin, hg, (h.of_group? hg).2.2, Bool.false_eq_true, if_false]

theorem openGroup_of_none (hk : c.group? key = none) :
    c.openGroup key params = c.create key params :=
  openGroup_of_make (by simp only [openWithin, hk])

/-- Opening finds the group under a key, or creates it. -/
theorem openGroup_changes (h : Sound c) (key : String) (params : Params) :
    ∃ g b, c.openGroup key params = (g, b) ∧ Changes c [] b ∧ b.group? key = some g := by
  cases hk : c.group? key with
  | some g => exact ⟨g, c, openGroup_of_group h hk, .refl c, hk⟩
  | none =>
    refine ⟨c.newGroup key params, (c.create key params).2, ?_,
      (Change.opened params hk).changes, ?_⟩
    · rw [openGroup_of_none hk, ← create_fst]
    · exact h.group?_create_self params hk

/-! ### Admitting -/

theorem place_full (h : Sound c) (hg : c.group? key = some g) (hr : g.hasCapacity = false) :
    c.place key m params = (.settled .rejected,
      ((c.record (.offered g m c.now)).record (.rejected key (g.fullFault m))).fault g.outlet m
        (g.fullFault m)) := by
  obtain ⟨hm, -, hc⟩ := h.of_group? hg
  have hsame : (c.record (.offered g m c.now)).setGroup g = c.record (.offered g m c.now) := by
    simp only [setGroup, record, h.tidy.update_self hm]
  simp only [place, openGroup_of_group h hg, Group.offer_full hc hr, hsame]

theorem place_pending (h : Sound c) (hg : c.group? key = some g) (hr : g.hasCapacity = true)
    (he : g.policy.evaluate (g.messages ++ [m]) c.now = .incomplete) :
    c.place key m params =
      (.settled .pending, (c.record (.offered g m c.now)).setGroup (g.push m)) := by
  simp only [place, openGroup_of_group h hg, Group.offer_pending (h.of_group? hg).2.2 hr he]

theorem place_claimed (h : Sound c) (hg : c.group? key = some g) (hr : g.hasCapacity = true)
    {trigger : Trigger}
    (he : g.policy.evaluate (g.messages ++ [m]) c.now = .complete trigger) :
    c.place key m params = (.claimed (g.push m).sealed trigger,
      (c.record (.offered g m c.now)).setGroup (g.push m).sealed) := by
  simp only [place, openGroup_of_group h hg, Group.offer_claimed (h.of_group? hg).2.2 hr he]

/-- Without a group, one is created first. -/
theorem place_create (h : Sound c) (hk : c.group? key = none) :
    c.place key m params = (c.create key params).2.place key m params := by
  have hg := h.group?_create_self params hk
  have hcreate : c.create key params = (c.newGroup key params, (c.create key params).2) := by
    rw [← create_fst]
  simp only [place, openGroup_of_none hk, openGroup_of_group (h.create params hk) hg]
  rw [hcreate]

theorem settleAdmission_place (h : Sound c) (call : Call) (hg : c.group? key = some g) :
    Changes c ((c.place key m params).1.recorded m)
      (settleAdmission call (c.place key m params)) := by
  cases hr : g.hasCapacity with
  | false =>
    rw [place_full h hg hr]
    exact (Change.refused hg hr).changes.tail (.answered rfl)
  | true =>
    cases he : g.policy.evaluate (g.messages ++ [m]) c.now with
    | incomplete =>
      rw [place_pending h hg hr he]
      exact (Change.kept hg hr he).changes.tail (.answered rfl)
    | complete trigger =>
      rw [place_claimed h hg hr he]
      exact (Change.filled hg hr he rfl).changes

/-- An admission records its message exactly if its outcome says so. -/
theorem submit_changes (h : Sound c) (call : Call) (key : String) (m : Message) (params : Params) :
    Changes c ((c.place key m params).1.recorded m) (c.submit call key m params) := by
  cases hk : c.group? key with
  | some g => exact settleAdmission_place h call hk
  | none =>
    rw [submit, place_create h hk]
    exact (Change.opened params hk).changes.trans
      (settleAdmission_place (h.create params hk) call (h.group?_create_self params hk))

theorem submitCorrelated_changes (h : Sound c) (call : Call) (m : Message) (params : Params) :
    Changes c ((c.placeCorrelated m params).1.recorded m) (c.submitCorrelated call m params) := by
  simp only [submitCorrelated, placeCorrelated]
  cases m.correlationKey? c.settings.aggregator with
  | some key => exact submit_changes h call key m params
  | none => exact (Change.answered (c := c) (e := .uncorrelated m) rfl).changes.tail (.answered rfl)

/-! ### Forcing -/

/-- A group that is completed by force is claimed, unless somebody has completed it. -/
theorem force_cases (c : Coordinator) (call : Call) (key : String) :
    (c.group? key = none ∧
        c.force call key = (c.record (.missing key)).record (.answered call (.flag false))) ∨
      ∃ g, c.group? key = some g ∧
        ((g.completed = true ∧ c.force call key = c.record (.answered call (.flag false))) ∨
          (g.completed = false ∧ c.force call key = c.forced g (.force call))) := by
  simp only [force]
  cases hg : c.group? key with
  | none => exact .inl ⟨rfl, rfl⟩
  | some g =>
    refine .inr ⟨g, rfl, ?_⟩
    cases hc : g.completed with
    | true =>
      simp only [claim_completed hc]
      exact .inl ⟨trivial, trivial⟩
    | false =>
      simp only [claim_collecting hc]
      exact .inr ⟨trivial, rfl⟩

theorem force_changes (h : Sound c) (call : Call) (key : String) :
    Changes c [] (c.force call key) := by
  simp only [force]
  cases hg : c.group? key with
  | none => exact (Change.answered (c := c) (e := .missing key) rfl).changes.tail (.answered rfl)
  | some g =>
    simp only [claim_collecting (h.of_group? hg).2.2]
    exact (Change.forced hg rfl).changes

/-- Groups that are completed meanwhile are passed over. -/
theorem forceEach_cases (c : Coordinator) (call : Call) (done id : Nat) (rest : List Nat) :
    ((∀ x, c.roster.group? id = some x → x.completed = true) ∧
        forceEach call done (id :: rest) c = forceEach call done rest c) ∨
      ∃ x trigger, c.roster.group? id = some x ∧ x.completed = false ∧
        trigger = x.claimTrigger c.now ∧
        forceEach call done (id :: rest) c =
          (c.remark x trigger).finalize x trigger (.drain call done rest) := by
  simp only [forceEach]
  cases hx : c.roster.group? id with
  | none => exact .inl ⟨fun _ h => (nomatch h), rfl⟩
  | some x =>
    cases hc : x.completed with
    | true =>
      simp only [claim_completed hc]
      exact .inl ⟨fun y hy => Option.some.inj hy ▸ hc, trivial⟩
    | false =>
      simp only [claim_collecting hc]
      exact .inr ⟨x, _, rfl, hc, rfl, rfl⟩

/-- Those that are completed are passed over until one is claimed, or none is left. -/
theorem forceEach_eq (c : Coordinator) (call : Call) (done : Nat) (rest : List Nat) :
    ((∀ id ∈ rest, ∀ x, c.roster.group? id = some x → x.completed = true) ∧
        forceEach call done rest c = c.record (.answered call (.count done))) ∨
      ∃ skipped x left, rest = skipped ++ x.id :: left ∧
        (∀ id ∈ skipped, ∀ y, c.roster.group? id = some y → y.completed = true) ∧
        c.roster.group? x.id = some x ∧ x.completed = false ∧
        forceEach call done rest c = c.forced x (.drain call done left) := by
  induction rest with
  | nil => exact .inl ⟨fun _ hid => absurd hid List.not_mem_nil, rfl⟩
  | cons id rest ih =>
    rcases forceEach_cases c call done id rest with ⟨hid, hskip⟩ | ⟨x, _, hx, hc, rfl, hclaim⟩
    · rw [hskip]
      rcases ih with ⟨hrest, hanswer⟩ | ⟨skipped, x, left, rfl, hskipped, hx, hc, hclaim⟩
      · exact .inl ⟨List.forall_mem_cons.2 ⟨hid, hrest⟩, hanswer⟩
      · exact .inr ⟨id :: skipped, x, left, rfl, List.forall_mem_cons.2 ⟨hid, hskipped⟩, hx, hc,
          hclaim⟩
    · obtain rfl : x.id = id := Roster.id_of_group? hx
      exact .inr ⟨[], x, rest, rfl, fun _ hid => absurd hid List.not_mem_nil, hx, hc, hclaim⟩

theorem forceEach_changes (h : Sound c) (call : Call) (done : Nat) (rest : List Nat) :
    Changes c [] (forceEach call done rest c) := by
  rcases forceEach_eq c call done rest with ⟨-, hanswer⟩ | ⟨_, x, left, -, -, hx, hc, hclaim⟩
  · rw [hanswer]
    exact (Change.answered rfl).changes
  · rw [hclaim]
    exact (Change.forced (h.group?_of_mem (Roster.mem_of_group? hx) hc) rfl).changes

/-- A deadline finds no group of its own any more, or claims it unless somebody has completed it. -/
theorem expire_cases (c : Coordinator) (d : Deadline) :
    c.expire d = c.record (.stale d) ∨
      ∃ g, c.group? d.key = some g ∧ g.id = d.group ∧
        ((g.completed = true ∧ c.expire d = c) ∨
          (g.completed = false ∧ c.expire d = c.forced g .expiry)) := by
  simp only [expire]
  cases hg : c.group? d.key with
  | none => exact .inl rfl
  | some g =>
    by_cases hid : g.id = d.group
    · refine .inr ⟨g, rfl, hid, ?_⟩
      cases hc : g.completed with
      | true =>
        simp only [hid, if_true, claim_completed hc]
        exact .inl ⟨trivial, trivial⟩
      | false =>
        simp only [hid, if_true, claim_collecting hc]
        exact .inr ⟨trivial, rfl⟩
    · simp only [hid, if_false]
      exact .inl trivial

/-- A deadline whose group is live completes it. -/
theorem expire_live (h : Sound c) {d : Deadline} (hg : c.group? d.key = some g)
    (hid : g.id = d.group) : c.expire d =
      (c.remark g (g.claimTrigger c.now)).finalize g (g.claimTrigger c.now) .expiry := by
  simp only [expire, hg, hid, if_true, claim_collecting (h.of_group? hg).2.2]
  rfl

/-- A deadline that finds no group, or another one, is stale. -/
theorem expire_stale {d : Deadline} (hg : ∀ g, c.group? d.key = some g → g.id ≠ d.group) :
    c.expire d = c.record (.stale d) := by
  simp only [expire]
  cases hk : c.group? d.key with
  | none => rfl
  | some g => simp only [hg g hk, if_false]

/-- Handling a deadline that fired. -/
theorem expire_changes (h : Sound c) {d : Deadline} (hd : d ∈ c.expired) :
    Changes c [] ((c.take d).expire d) := by
  by_cases hlive : ∃ g, c.group? d.key = some g ∧ g.id = d.group
  · obtain ⟨g, hg, hid⟩ := hlive
    rw [expire_live (h.take d) hg hid]
    exact (Change.expired hd hg hid).changes
  · have hg : ∀ g, c.group? d.key = some g → g.id ≠ d.group := fun g hg hid =>
      hlive ⟨g, hg, hid⟩
    rw [expire_stale (c := c.take d) hg]
    exact (Change.stale hd hg).changes

/-! ### Concluding -/

/-- A finalization in flight is found by its group. -/
theorem conclude_changes (h : Sound c) (id : Nat) (refusal : Option String) :
    Changes c [] (c.conclude id refusal) := by
  simp only [conclude]
  cases hf : c.inFlight.find? fun f => f.group == id with
  | none => exact .refl c
  | some f =>
    have hm := List.mem_of_find?_eq_some hf
    obtain rfl : f.group = id := by simpa using List.find?_some hf
    have hchange := Change.released hm refusal
    show Changes c [] (((c.land f.group).release f.group refusal).resume f.result.trigger f.caller)
    have hsingle := h.single f hm
    cases hcaller : f.caller with
    | admission call => exact hchange.changes.tail (.answered rfl)
    | siblings call params done rest =>
      rw [hcaller] at hsingle
      exact absurd hsingle (by simp [Caller.isSingle])
    | force call => exact hchange.changes.tail (.answered rfl)
    | drain call done rest =>
      exact hchange.changes.trans (forceEach_changes (hchange.sound h) call (done + 1) rest)
    | expiry => exact hchange.changes

end Coordinator

end Aggregation
