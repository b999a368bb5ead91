import Aggregation.Proofs.Coordinator.Handles

/-! What a sink's refusal changes.

A coordinator whose sink refuses a result goes on as if the sink had taken it, but that the fault is
counted and noted (`conclude_refused`). The fault sink gets the last message of the very result that
was refused, since nobody but the coordinator changes a completed group, short of clearing it. So
the fault sink is told once of each refusal of a result that is not empty, and of nothing else
(`told_after`), and a finalization is over when its sink has answered, whatever the answer
(`over_conclude`). -/
namespace Aggregation

open Custody

/-- What the fault sink is told by an act. -/
def Act.report (c : Coordinator) (act : Act) : List (Message × Fault) :=
  match act.answered? c with
  | some (f, some cause) => c.outlet.report f.result.key f.result.messages cause
  | _ => []

namespace Coordinator

/-! ### Going on after a refusal -/

/-- Two coordinators that differ in one thing: the second one counted a fault and noted an event
after the history of a third one. What else they have both noted since does not concern the fault
sink. -/
def NotedAfter (c : Coordinator) (kind : String) (e : Event) (a b : Coordinator) : Prop :=
  ∃ rest, a.history = c.history ++ rest ∧ rest.filterMap Event.handed? = [] ∧
    b = {a with
      metrics := a.metrics.map fun m => m.recordFault kind
      history := c.history ++ e :: rest}

namespace NotedAfter
variable {c : Coordinator} {kind : String} {e : Event}

variable {a b : Coordinator}

theorem noting (h : a.history = c.history) : NotedAfter c kind e a (a.noting kind e) :=
  ⟨[], by rw [h, List.append_nil], rfl, by rw [Coordinator.noting, h]⟩

variable (h : NotedAfter c kind e a b)
include h

theorem record {x : Event} (hx : x.handed? = none) :
    NotedAfter c kind e (a.record x) (b.record x) := by
  obtain ⟨rest, ha, hrest, rfl⟩ := h
  refine ⟨rest ++ [x], ?_, ?_, ?_⟩
  · rw [Coordinator.record, ha, List.append_assoc]
  · rw [List.filterMap_append, hrest, List.filterMap_cons_none hx]
    rfl
  · simp only [Coordinator.record, List.append_assoc, List.cons_append]

theorem remark (g : Group) (trigger : Trigger) :
    NotedAfter c kind e (a.remark g trigger) (b.remark g trigger) := by
  unfold Coordinator.remark
  split
  · exact h.record rfl
  · exact h

/-- What is counted of a completed group is counted beside the faults. -/
theorem finalize (g : Group) (trigger : Trigger) (caller : Caller) :
    NotedAfter c kind e (a.finalize g trigger caller) (b.finalize g trigger caller) := by
  obtain ⟨rest, ha, hrest, rfl⟩ := h
  refine ⟨rest ++ [.delivered g.id (resultOf g trigger) g.outlet.recorded
    ((a.roster.retire g.sealed).registry.contains g.key)], ?_, ?_, ?_⟩
  · rw [finalize_history, ha, List.append_assoc]
  · rw [List.filterMap_append, hrest]
    rfl
  · simp only [Coordinator.finalize, deliver, Coordinator.record, count, evict, setGroup,
      Option.map_map, List.append_assoc, List.cons_append]
    rfl

theorem forceEach (call : Call) (done : Nat) (rest : List Nat) :
    NotedAfter c kind e (forceEach call done rest a) (forceEach call done rest b) := by
  have hroster : b.roster = a.roster := by
    obtain ⟨-, -, -, rfl⟩ := h
    rfl
  have hnow : b.now = a.now := by
    obtain ⟨-, -, -, rfl⟩ := h
    rfl
  induction rest with
  | nil => exact h.record rfl
  | cons id rest ih =>
    simp only [Coordinator.forceEach, hroster]
    cases hx : a.roster.group? id with
    | none => exact ih
    | some x =>
      cases hc : x.completed with
      | true =>
        simp only [claim_completed hc]
        exact ih
      | false =>
        simp only [claim_collecting hc, hnow]
        exact (h.remark x _).finalize x _ _

/-- Whoever waits goes on in the same way. -/
theorem resume (trigger : Trigger) {caller : Caller} (hcaller : caller.isSingle = true) :
    NotedAfter c kind e (a.resume trigger caller) (b.resume trigger caller) := by
  cases caller with
  | admission call => exact h.record rfl
  | siblings => cases hcaller
  | force call => exact h.record rfl
  | drain call done rest => exact h.forceEach call (done + 1) rest
  | expiry => exact h

/-- The fault sink is handed what the event that was noted hands it. -/
theorem reported : b.reported = c.reported ++ [e].filterMap Event.handed? := by
  obtain ⟨rest, -, hrest, rfl⟩ := h
  rw [reported_append (c := c) rfl, ← List.singleton_append, List.filterMap_append, hrest,
    List.append_nil]

end NotedAfter

section Conclusion
variable {kept : Nat → Prop} {c : Coordinator} (h : Intact kept c.custody) {f : Finalization}
  (hf : f ∈ c.inFlight)
include h hf

/-- The group of a finalization has the key, the messages and the outlet that it was handed over
with. -/
theorem group_of_carried (hkept : kept f.group) :
    ∃ g, c.roster.group? f.group = some g ∧ g.key = f.result.key ∧
      g.messages = f.result.messages ∧ g.outlet = c.outlet := by
  obtain ⟨g, hg, -, -, hkey, hm, -⟩ := h.carried f hf
  exact ⟨g, hg, hkey.symm, (hm hkept).symm, h.linked.outlets g (Roster.mem_of_group? hg)⟩

/-- A refusal makes no difference but that it is counted and noted. -/
theorem conclude_refused (hkept : kept f.group) (cause : String) :
    NotedAfter c "sink_failed" (c.outlet.refused f.result.key f.result.messages cause)
      (c.conclude f.group none) (c.conclude f.group (some cause)) := by
  obtain ⟨g, hg, hkey, hm, hout⟩ := group_of_carried h hf hkept
  have hg' : (c.land f.group).roster.group? f.group = some g := hg
  have hhistory : ((c.land f.group).release f.group none).history = c.history := by
    simp only [release, hg']
    rfl
  rw [conclude_eq h hf, conclude_eq h hf, release_refused hg', hkey, hm, hout]
  exact (NotedAfter.noting hhistory).resume f.result.trigger (h.single f hf)

/-- When its sink has answered, a finalization is over for ever. -/
theorem over_conclude (refusal : Option String) (later : List Act) :
    Over f (after (c.conclude f.group refusal) later).custody := by
  have hnobody : Intact (fun _ => False) c.custody := h.mono fun _ hk => hk.elim
  obtain ⟨g, hg, -⟩ := h.carried f hf
  have hself : c.roster.group? g.id = some g := (Roster.id_of_group? hg).symm ▸ hg
  have hedits := (conclude_deeds hnobody hf hg refusal).edits
  have hreleased := hnobody.release hself refusal
  exact after_over (Custody.keeps hedits Edit.intact hreleased)
    ((hnobody.over_release hf hg refusal).edits hreleased.linked hedits) later

end Conclusion

/-! ### What the fault sink is told -/

/-- What the fault sink is told in a run. -/
def reports (c : Coordinator) : List Act → List (Message × Fault)
  | [] => []
  | act :: rest => act.report c ++ reports (act.apply c) rest

/-- An act tells the fault sink of a sink that refused and of nothing else. -/
theorem told_apply {c : Coordinator} (h : Intact (fun _ => True) c.custody) (act : Act) :
    (act.apply c).told = c.told ++ act.report c := by
  rcases act.apply_custody h with ⟨hnone, he⟩ | ⟨f, refusal, g, hsome, hf, hg, he⟩ |
    ⟨g, hnone, -, -, he⟩
  · rw [Act.report, hnone, List.append_nil]
    exact Edits.refusals he
  · obtain ⟨y, hy, hkey, hm, hout⟩ := group_of_carried h hf trivial
    obtain rfl := Option.some.inj (hy.symm.trans hg)
    have htold : (act.apply c).told =
        c.told ++ refusal.toList.flatMap (y.outlet.report y.key y.messages) := Edits.refusals he
    rw [htold, Act.report, hsome, hkey, hm, hout]
    cases refusal with
    | none => rfl
    | some cause => rw [Option.toList_some, List.flatMap_singleton]
  · rw [Act.report, hnone, List.append_nil]
    exact congrArg Custody.refusals he

theorem told_after {c : Coordinator} (h : Intact (fun _ => True) c.custody) {acts : List Act}
    (hacts : ∀ act ∈ acts, ∀ id, act.clears id = false) :
    (after c acts).told = c.told ++ reports c acts := by
  induction acts generalizing c with
  | nil => exact (List.append_nil _).symm
  | cons act rest ih =>
    have hact : ∀ id, act.clears id = false := hacts act List.mem_cons_self
    have hrest := ih (Act.intact h fun id _ => hact id) fun x hx =>
      hacts x (List.mem_cons_of_mem act hx)
    rw [after, hrest, told_apply h act, reports, List.append_assoc]

/-- Whatever anybody did before, but clear the group of a finalization through a handle, and
whatever its caller waits for: the group was handed over once, with one result. When the sink
refuses it, the fault sink is handed the last message of that result, if there is one and there is a
fault sink, and nothing else. The coordinator is the same as if the sink had taken the result, but
that the fault is counted and noted. Whoever waits goes on as if it had, and from then on the group
is completed, empty and not registered, and is not handed over again. In a run in which nobody
clears any group through a handle, those are all the reports that the fault sink gets of sinks that
refused. -/
theorem refusal_contained (settings : Settings) (metrics : Bool) (now : Instant) (acts : List Act)
    (f : Finalization) (hf : f ∈ (after (start settings metrics now) acts).inFlight)
    (hkept : ∀ act ∈ acts, act.clears f.group = false) (cause : String) :
    let first := start settings metrics now
    let c := after first acts
    let taken := c.conclude f.group none
    let refused := c.conclude f.group (some cause)
    let fault := Fault.sinkFailed f.result.key settings.sink cause []
    c.deliveriesOf f.group = [f.result] ∧
      refused.reported = c.reported ++
        (if settings.hasFaultSink then
          match f.result.messages.getLast? with
          | some m => [(m, fault)]
          | none => []
        else []) ∧
      (∃ rest, taken.history = c.history ++ rest ∧ rest.filterMap Event.handed? = [] ∧
        refused = {taken with
          metrics := taken.metrics.map fun m => m.recordFault fault.kind
          history := c.history ++ c.outlet.refused f.result.key f.result.messages cause :: rest}) ∧
      (match f.caller with
        | .admission call => refused.history.getLast? =
            some (.answered call (.outcome (.completed f.result.trigger)))
        | .force call => refused.history.getLast? = some (.answered call (.flag true))
        | .drain call done rest =>
          refused = forceEach call (done + 1) rest ((c.land f.group).release f.group (some cause))
        | .expiry => refused = (c.land f.group).release f.group (some cause)
        | .siblings .. => False) ∧
      (∀ later, let d := after refused later
        ∃ g, d.roster.group? f.group = some g ∧ g.key = f.result.key ∧ g.completed = true ∧
          g.messages = [] ∧ (∀ key, d.roster.registry.get? key ≠ some f.group) ∧
          (∀ x ∈ d.inFlight, x.group ≠ f.group) ∧ d.deliveriesOf f.group = [f.result]) ∧
      ((∀ act ∈ acts, ∀ id, act.clears id = false) → c.told = reports first acts) := by
  intro first c taken refused fault
  have hintact : Intact (· = f.group) c.custody :=
    after_intact (intact_start _ settings metrics now) fun act hact id hid => hid ▸ hkept act hact
  have hout : c.outlet = ⟨settings.sink, true, settings.hasFaultSink⟩ :=
    after_outlet (intact_start _ settings metrics now) acts
  have hnoted := conclude_refused hintact hf rfl cause
  refine ⟨hintact.tallied.claimed f hf, ?_, hnoted, ?_, fun later => ?_, fun hacts => ?_⟩
  · rw [hnoted.reported, Outlet.handed_refused, hout, Outlet.report]
    cases f.result.messages.getLast? <;> rfl
  · have hcaller := hintact.single f hf
    have heq : refused = ((c.land f.group).release f.group (some cause)).resume f.result.trigger
        f.caller := conclude_eq hintact hf (some cause)
    cases hc : f.caller with
    | admission call =>
      rw [heq, hc]
      exact List.getLast?_concat
    | siblings => simp [hc, Caller.isSingle] at hcaller
    | force call =>
      rw [heq, hc]
      exact List.getLast?_concat
    | drain call done rest =>
      rw [heq, hc]
      rfl
    | expiry =>
      rw [heq, hc]
      rfl
  · obtain ⟨⟨g, hg, hc, -, hkey, hm, haway⟩, hlanded, hhanded⟩ :=
      over_conclude hintact hf (some cause) later
    exact ⟨g, hg, hkey.symm, hc, (hm trivial).symm, haway, hlanded, hhanded⟩
  · have htold := told_after (intact_start _ settings metrics now) hacts
    rw [htold]
    rfl

/-- A message comes through a handle, the group is completed by force, and its sink refuses. -/
theorem refusal_contained_forced :
    let m := Message.ofAction "m" "op" (Timestamp.ofMillis 0)
    let acts : List Act := [.move (.openGroup "k" .none), .call 1 0 (.add m),
      .move (.force (.outside 0) "k")]
    let f : Finalization := ⟨1, ⟨"sink", true, true⟩, ⟨"k", [m], .forced⟩, .force (.outside 0)⟩
    let c := after (start ⟨"name", "sink", none, true⟩ true 0) acts
    f ∈ c.inFlight ∧ (∀ act ∈ acts, act.clears f.group = false) ∧
      (c.conclude 1 (some "full")).reported = [(m, .sinkFailed "k" "sink" "full" [])] ∧
      (c.conclude 1 (some "full")).history.getLast? =
        some (.answered (.outside 0) (.flag true)) := by
  intro m acts f c
  have hf : f ∈ c.inFlight := by
    have hflight : c.inFlight = [f] := by rfl
    rw [hflight]
    exact List.mem_cons_self
  have hkept : ∀ act ∈ acts, act.clears f.group = false := by
    decide
  have hbefore : c.reported = [] := by rfl
  obtain ⟨-, hreported, -, hanswered, -, -⟩ :=
    refusal_contained ⟨"name", "sink", none, true⟩ true 0 acts f hf hkept "full"
  exact ⟨hf, hkept, hreported.trans (by rw [hbefore]; rfl), hanswered⟩

end Coordinator

end Aggregation
