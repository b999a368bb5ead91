import Aggregation.Proofs.Coordinator.Run

/-! What admissions are answered.

An admission is answered at once, or it waits for the sink of the group that it completed. The tally
lists the answers of both kinds: an admission adds what came of it (`tally_submit`), and nothing
else changes it, whatever becomes of the finalizations that admissions wait for
(`tally_conclude`). -/
namespace Aggregation

/-- The answer to an admission. -/
def Event.outcome? : Event → Option (Call × Outcome)
  | .answered call (.outcome outcome) => some (call, outcome)
  | _ => none

/-- The answer that an admission waits for. -/
def Finalization.awaited? (f : Finalization) : Option (Call × Outcome) :=
  match f.caller with
  | .admission call => some (call, .completed f.result.trigger)
  | _ => none

namespace Coordinator

/-- The answers given to admissions. -/
def outcomes (c : Coordinator) : List (Call × Outcome) :=
  c.history.filterMap Event.outcome?

/-- The answers that admissions wait for. -/
def awaited (c : Coordinator) : List (Call × Outcome) :=
  c.inFlight.filterMap Finalization.awaited?

/-- What admissions were answered or will be. -/
def tally (c : Coordinator) : List (Call × Outcome) :=
  c.outcomes ++ c.awaited

theorem outcomes_record (c : Coordinator) (e : Event) :
    (c.record e).outcomes = c.outcomes ++ e.outcome?.toList := by
  simp only [outcomes, record, List.filterMap_append]
  cases h : e.outcome? <;> simp [h]

theorem tally_record {c : Coordinator} {e : Event} (he : e.outcome? = none) :
    (c.record e).tally = c.tally := by
  simp only [tally, outcomes_record, he, Option.toList_none, List.append_nil]
  rfl

/-- An answer given at once joins those given. -/
theorem tally_answered (c : Coordinator) (call : Call) (outcome : Outcome) :
    (c.record (.answered call (.outcome outcome))).tally.Perm (c.tally ++ [(call, outcome)]) := by
  simp only [tally, outcomes_record]
  rw [List.append_assoc, List.append_assoc]
  exact List.perm_append_comm.append_left _

theorem outcomes_fault (c : Coordinator) (outlet : Outlet) (m : Message) (f : Fault) :
    (c.fault outlet m f).outcomes = c.outcomes := by
  unfold fault
  rw [outcomes_record]
  split <;> exact List.append_nil _

theorem tally_fault (c : Coordinator) (outlet : Outlet) (m : Message) (f : Fault) :
    (c.fault outlet m f).tally = c.tally := by
  rw [tally, outcomes_fault]
  rfl

theorem tally_remark (c : Coordinator) (g : Group) (trigger : Trigger) :
    (c.remark g trigger).tally = c.tally := by
  unfold remark
  split
  · exact tally_record rfl
  · rfl

theorem outcomes_create (c : Coordinator) (key : String) (params : Params) :
    (c.create key params).2.outcomes = c.outcomes := by
  simp only [outcomes, create_history, List.filterMap_append, List.filterMap_cons, Event.outcome?]
  split <;> simp [Event.outcome?]

theorem tally_create (c : Coordinator) (key : String) (params : Params) :
    (c.create key params).2.tally = c.tally := by
  simp only [tally, awaited, outcomes_create, create_inFlight]

theorem awaited_cons (f : Finalization) (fs : List Finalization) :
    (f :: fs).filterMap Finalization.awaited? =
      f.awaited?.toList ++ fs.filterMap Finalization.awaited? := by
  cases h : f.awaited? <;> simp [h]

/-- What a group is delivered for waits with it. -/
theorem tally_deliver (c : Coordinator) (g : Group) (trigger : Trigger) (caller : Caller) :
    (c.deliver g trigger caller).tally.Perm
      (c.tally ++ (Finalization.awaited? ⟨g.id, g.outlet, resultOf g trigger, caller⟩).toList) := by
  have houtcomes : (c.deliver g trigger caller).outcomes = c.outcomes :=
    (outcomes_record _ _).trans (List.append_nil _)
  have hawaited : (c.deliver g trigger caller).awaited =
      (Finalization.awaited? ⟨g.id, g.outlet, resultOf g trigger, caller⟩).toList ++ c.awaited :=
    awaited_cons _ c.inFlight
  rw [tally, houtcomes, hawaited, tally, List.append_assoc]
  exact List.perm_append_comm.append_left _

theorem tally_place_live {c : Coordinator} (h : Sound c) {key : String} {g : Group}
    (hg : c.group? key = some g) (m : Message) (params : Params) :
    (c.place key m params).2.tally = c.tally := by
  cases hr : g.hasCapacity with
  | false =>
    rw [place_full h hg hr]
    exact (tally_fault ..).trans ((tally_record rfl).trans (tally_record rfl))
  | true =>
    cases he : g.policy.evaluate (g.messages ++ [m]) c.now with
    | incomplete =>
      rw [place_pending h hg hr he]
      exact tally_record (c := c) rfl
    | complete trigger =>
      rw [place_claimed h hg hr he]
      exact tally_record (c := c) rfl

/-- Placing a message answers nobody. -/
theorem tally_place {c : Coordinator} (h : Sound c) (key : String) (m : Message) (params : Params) :
    (c.place key m params).2.tally = c.tally := by
  cases hk : c.group? key with
  | some g => exact tally_place_live h hk m params
  | none =>
    have hg := h.group?_create_self params hk
    rw [place_create h hk, tally_place_live (h.create params hk) hg, tally_create]

/-- An admission is answered what came of it, now or later. -/
theorem tally_settleAdmission (c : Coordinator) (call : Call) (p : Placement) :
    (settleAdmission call (p, c)).tally.Perm (c.tally ++ [(call, p.outcome)]) := by
  cases p with
  | settled outcome => exact tally_answered c call outcome
  | claimed g trigger => exact tally_deliver c g trigger (.admission call)

theorem tally_submit {c : Coordinator} (h : Sound c) (call : Call) (key : String) (m : Message)
    (params : Params) : (c.submit call key m params).tally.Perm
      (c.tally ++ [(call, (c.place key m params).1.outcome)]) := by
  have hsettle := tally_settleAdmission (c.place key m params).2 call (c.place key m params).1
  rwa [tally_place h] at hsettle

theorem tally_submitCorrelated {c : Coordinator} (h : Sound c) (call : Call) (m : Message)
    (params : Params) : (c.submitCorrelated call m params).tally.Perm
      (c.tally ++ [(call, (c.placeCorrelated m params).1.outcome)]) := by
  simp only [submitCorrelated, placeCorrelated]
  cases m.correlationKey? c.settings.aggregator with
  | some key => exact tally_submit h call key m params
  | none =>
    have hrecord : (c.record (.uncorrelated m)).tally = c.tally := tally_record rfl
    rw [← hrecord]
    exact tally_settleAdmission (c.record (.uncorrelated m)) call (.settled (.uncorrelated m))

/-- Claiming a group for anybody but an admission leaves the answers alone. -/
theorem tally_finalize_remark (c : Coordinator) (g : Group) (trigger : Trigger) {caller : Caller}
    (hcaller : Finalization.awaited? ⟨g.id, g.outlet, resultOf g trigger, caller⟩ = none) :
    ((c.remark g trigger).finalize g trigger caller).tally.Perm c.tally := by
  have hdeliver := tally_deliver ((c.remark g trigger).setGroup g.sealed) g.sealed trigger caller
  rw [show Finalization.awaited? ⟨g.sealed.id, g.sealed.outlet, resultOf g.sealed trigger, caller⟩ =
    none from hcaller, Option.toList_none, List.append_nil] at hdeliver
  rw [← tally_remark c g trigger]
  exact hdeliver

theorem tally_force {c : Coordinator} (h : Sound c) (call : Call) (key : String) :
    (c.force call key).tally.Perm c.tally := by
  simp only [force]
  cases hg : c.group? key with
  | none => exact .of_eq ((tally_record rfl).trans (tally_record rfl))
  | some g =>
    simp only [claim_collecting (h.of_group? hg).2.2]
    exact tally_finalize_remark c g _ rfl

theorem tally_forceEach (c : Coordinator) (call : Call) (done : Nat) (rest : List Nat) :
    (forceEach call done rest c).tally.Perm c.tally := by
  rcases forceEach_eq c call done rest with ⟨-, hanswer⟩ | ⟨_, x, left, -, -, -, -, hclaim⟩
  · rw [hanswer]
    exact .of_eq (tally_record rfl)
  · rw [hclaim]
    exact tally_finalize_remark c x _ rfl

theorem tally_expire {c : Coordinator} (h : Sound c) (d : Deadline) :
    (c.expire d).tally.Perm c.tally := by
  by_cases hlive : ∃ g, c.group? d.key = some g ∧ g.id = d.group
  · obtain ⟨g, hg, hid⟩ := hlive
    rw [expire_live h hg hid]
    exact tally_finalize_remark c g _ rfl
  · rw [expire_stale fun g hg hid => hlive ⟨g, hg, hid⟩]
    exact .of_eq (tally_record rfl)

theorem tally_advance {c : Coordinator} (h : Sound c) (ms : Nat) :
    (c.advance ms).tally = c.tally := by
  rw [advance_eq h.swept]
  simp only [tally, outcomes, awaited, List.filterMap_append, List.filterMap_map]
  congr 1
  exact List.append_right_eq_self.2 (List.filterMap_eq_nil_iff.2 fun _ _ => rfl)

/-- Taking a finalization off takes off what waits for it. -/
theorem awaited_land {fs : List Finalization} {f : Finalization} {id : Nat}
    (hf : fs.find? (fun f => f.group == id) = some f) :
    (fs.filterMap Finalization.awaited?).Perm (f.awaited?.toList ++
      (fs.eraseP fun f => f.group == id).filterMap Finalization.awaited?) := by
  induction fs with
  | nil => cases hf
  | cons x rest ih =>
    by_cases hx : x.group = id
    · rw [List.find?_cons_of_pos (by simpa using hx)] at hf
      obtain rfl := Option.some.inj hf
      rw [List.eraseP_cons_of_pos (by simpa using hx), awaited_cons]
    · rw [List.find?_cons_of_neg (by simpa using hx)] at hf
      rw [List.eraseP_cons_of_neg (by simpa using hx), awaited_cons, awaited_cons]
      refine ((ih hf).append_left _).trans ?_
      rw [← List.append_assoc, ← List.append_assoc]
      exact List.perm_append_comm.append_right _

/-- Releasing a group answers nobody; what waited for it is still to be answered. -/
theorem tally_release {c : Coordinator} (h : Sound c) {f : Finalization} {id : Nat}
    (hf : c.inFlight.find? (fun f => f.group == id) = some f) (refusal : Option String) :
    (((c.land id).release id refusal).tally ++ f.awaited?.toList).Perm c.tally := by
  obtain rfl : f.group = id := by simpa using List.find?_some hf
  obtain ⟨g, hg, -⟩ := h.group_of_inFlight (List.mem_of_find?_eq_some hf)
  obtain ⟨_, events, hrelease, hevents⟩ := release_eq (c := c.land f.group) hg refusal
  have houtcomes : ((c.land f.group).release f.group refusal).outcomes = c.outcomes := by
    rw [hrelease]
    simp only [outcomes, setGroup, List.filterMap_append]
    refine List.append_right_eq_self.2 (List.filterMap_eq_nil_iff.2 fun e he => ?_)
    obtain ⟨fault, rfl | ⟨m, rfl | rfl⟩⟩ := hevents e he <;> rfl
  have hawaited : ((c.land f.group).release f.group refusal).awaited =
      (c.land f.group).awaited := by
    rw [hrelease]
    rfl
  rw [tally, houtcomes, hawaited, tally, List.append_assoc]
  exact (List.perm_append_comm.trans (awaited_land hf).symm).append_left _

theorem tally_conclude {c : Coordinator} (h : Sound c) (id : Nat) (refusal : Option String) :
    (c.conclude id refusal).tally.Perm c.tally := by
  simp only [conclude]
  cases hf : c.inFlight.find? fun f => f.group == id with
  | none => exact .refl _
  | some f =>
    have hrelease := tally_release h hf refusal
    have hsingle := h.single f (List.mem_of_find?_eq_some hf)
    show (((c.land id).release id refusal).resume f.result.trigger f.caller).tally.Perm _
    cases hcaller : f.caller with
    | admission call =>
      have hwaits : f.awaited? = some (call, .completed f.result.trigger) := by
        simp only [Finalization.awaited?, hcaller]
      rw [hwaits] at hrelease
      exact (tally_answered _ call _).trans hrelease
    | siblings call params done rest =>
      rw [hcaller] at hsingle
      exact absurd hsingle (by simp [Caller.isSingle])
    | force call =>
      have hwaits : f.awaited? = none := by simp only [Finalization.awaited?, hcaller]
      rw [hwaits, Option.toList_none, List.append_nil] at hrelease
      exact (List.Perm.of_eq (tally_record rfl)).trans hrelease
    | drain call done rest =>
      have hwaits : f.awaited? = none := by simp only [Finalization.awaited?, hcaller]
      rw [hwaits, Option.toList_none, List.append_nil] at hrelease
      exact (tally_forceEach _ call (done + 1) rest).trans hrelease
    | expiry =>
      have hwaits : f.awaited? = none := by simp only [Finalization.awaited?, hcaller]
      rwa [hwaits, Option.toList_none, List.append_nil] at hrelease

end Coordinator

end Aggregation
