import Aggregation.Proofs.Coordinator.Callers
import Aggregation.Proofs.Coordinator.Refusals
import Aggregation.Proofs.Coordinator.Settling
import Mathlib.Data.List.Lattice

/-! What is completed by force.

A drain works from a list of the groups that were registered when it was called, while others open
groups under the same keys and complete groups that are on the list. What carries it is that each
group of the list is completed or still to come (`Covers`), which every act keeps, and that a group
whose sink has answered is waited for no more (`notMem_waited`). So a drain at any time waits for
the sink of one group of its list, or has returned (`Drain.apply`), and when it returns all of them
are completed and it answers how many it claimed itself (`Drain.after`). With a sink that answers at
once it claims all of them (`settleWith_forceEach`). The main result on drains and on single groups
is `forcing_completes`. -/
namespace Aggregation

open Custody

namespace Custody

/-- Each of some groups is there, and is completed or still to come. -/
def Covers (ids rest : List Nat) (d : Custody) : Prop :=
  ∀ id ∈ ids, ∃ g, d.roster.group? id = some g ∧ (id ∈ rest ∨ g.completed = true)

theorem Covers.of_lasts {ids rest : List Nat} {d e : Custody} (h : Covers ids rest d)
    (he : ∀ {g}, Lasts g d → Lasts g e) : Covers ids rest e := by
  intro id hid
  obtain ⟨g, hg, hrest⟩ := h id hid
  obtain rfl : g.id = id := Roster.id_of_group? hg
  obtain ⟨x, hx, -, hxc⟩ := he ⟨g, hg, rfl, fun hc => hc⟩
  exact ⟨x, hx, hrest.imp_right hxc⟩

end Custody

namespace Coordinator

/-! ### One group -/

/-- The finalization that this puts in flight. -/
def forcing (c : Coordinator) (g : Group) (caller : Caller) : Finalization :=
  ⟨g.id, g.outlet, resultOf g (g.claimTrigger c.now), caller⟩

/-- The group is released when its sink has answered. -/
def dispatched (c : Coordinator) (g : Group) (caller : Caller) (refusal : Option String) :
    Coordinator :=
  ((c.forced g caller).land g.id).release g.id refusal

section Forced
variable {kept : Nat → Prop}

section Any
variable (c : Coordinator) (g : Group) (caller : Caller)

theorem forced_inFlight : (c.forced g caller).inFlight = c.forcing g caller :: c.inFlight := by
  rw [forced, finalize_inFlight, remark_inFlight]
  rfl

theorem forced_custody : (c.forced g caller).custody =
    c.custody.claim g.sealed (g.claimTrigger c.now) caller := by
  rw [forced, custody_finalize, custody_remark]

theorem forced_roster : (c.forced g caller).roster = c.roster.retire g.sealed :=
  congrArg Custody.roster (forced_custody c g caller)

theorem forced_answers : (c.forced g caller).answers = c.answers := by
  rw [← (Quiet.remark c g (g.claimTrigger c.now)).answers, answers, forced, finalize_history,
    List.filterMap_append]
  exact List.append_nil _

theorem dispatched_quiet (refusal : Option String) : Quiet c (c.dispatched g caller refusal) := by
  have hland : Quiet c ((c.forced g caller).land g.id) := by
    refine ⟨?_, forced_answers c g caller⟩
    simp only [land, forced_inFlight]
    exact List.eraseP_cons_of_pos (by simp [forcing])
  exact hland.trans (.release _ g.id refusal)

end Any

theorem registry_forced {c : Coordinator} {g : Group} (caller : Caller)
    (hr : c.roster.registry.get? g.key = some g.id) :
    (c.forced g caller).roster.registry.get? g.key = none := by
  rw [forced_roster]
  exact (Registry.get?_remove ..).trans (if_pos ⟨rfl, hr⟩)

section Found
variable {c : Coordinator} {g : Group} (hg : c.roster.group? g.id = some g) (caller : Caller)
include hg

theorem group?_forced (id : Nat) : (c.forced g caller).roster.group? id =
    if id = g.id then some g.sealed else c.roster.group? id := by
  rw [forced_roster]
  exact Roster.group?_changed (x := g.sealed) hg rfl id

theorem group?_forced_self : (c.forced g caller).roster.group? g.sealed.id = some g.sealed :=
  (group?_forced hg caller g.id).trans (if_pos rfl)

/-- What is registered was registered before, and is not the group. -/
theorem registered_forced (h : Intact kept c.custody) {key : String} {id : Nat}
    (hr : (c.forced g caller).roster.registry.get? key = some id) :
    c.roster.registry.get? key = some id ∧ id ≠ g.id := by
  rw [forced_roster] at hr
  have hr' : (c.roster.registry.remove g.key g.id).2.get? key = some id := hr
  have hne : id ≠ g.id := by
    rintro rfl
    exact h.linked.away hg key hr'
  rw [Registry.get?_remove] at hr'
  split at hr'
  · cases hr'
  · exact ⟨hr', hne⟩

theorem live_forced (h : Intact kept c.custody) {other : String} (hother : other ≠ g.key) :
    (c.forced g caller).group? other = c.group? other := by
  have hget : (c.forced g caller).roster.registry.get? other = c.roster.registry.get? other := by
    rw [forced_roster]
    exact (Registry.get?_remove ..).trans (if_neg fun e => hother e.1)
  rw [group?, group?, Roster.registered?, Roster.registered?, hget]
  cases hr : c.roster.registry.get? other with
  | none => rfl
  | some id =>
    obtain ⟨x, hx, hxk⟩ := h.linked.registered other id hr
    have hne : ¬ id = g.id := by
      rintro rfl
      exact hother (hxk.symm.trans (congrArg Group.key (Option.some.inj (hx.symm.trans hg))))
    exact (group?_forced hg caller id).trans (if_neg hne)

theorem dispatched_custody (refusal : Option String) : (c.dispatched g caller refusal).custody =
    (c.forced g caller).custody.release g.sealed refusal :=
  custody_release (group?_forced_self hg caller) refusal

theorem dispatched_roster (refusal : Option String) : (c.dispatched g caller refusal).roster =
    (c.forced g caller).roster.update g.sealed.clear :=
  congrArg Custody.roster (dispatched_custody hg caller refusal)

theorem group?_dispatched (refusal : Option String) {id : Nat} (hid : id ≠ g.id) :
    (c.dispatched g caller refusal).roster.group? id = c.roster.group? id := by
  rw [dispatched_roster hg,
    Roster.group?_changed (x := g.sealed.clear) (group?_forced_self hg caller) rfl]
  exact (if_neg hid).trans ((group?_forced hg caller id).trans (if_neg hid))

theorem registered_dispatched (h : Intact kept c.custody) (refusal : Option String) {key : String}
    {id : Nat} (hr : (c.dispatched g caller refusal).roster.registry.get? key = some id) :
    c.roster.registry.get? key = some id ∧ id ≠ g.id := by
  rw [dispatched_roster hg] at hr
  exact registered_forced hg caller h hr

end Found

section Intact
variable {c : Coordinator} {g : Group} {caller : Caller} (h : Intact kept c.custody)
  (hg : c.roster.group? g.id = some g)
  (hc : g.completed = false) (hcaller : caller.isSingle = true)
include h hg hc hcaller

theorem forced_intact : Intact kept (c.forced g caller).custody :=
  (forced_deed hg hc hcaller).edit.intact h

theorem dispatched_intact (refusal : Option String) :
    Intact kept (c.dispatched g caller refusal).custody := by
  rw [dispatched_custody hg]
  exact (forced_intact h hg hc hcaller).release (group?_forced_self hg caller) refusal

theorem conclude_forced (refusal : Option String) : (c.forced g caller).conclude g.id refusal =
    (c.dispatched g caller refusal).resume (g.claimTrigger c.now) caller :=
  conclude_eq (f := c.forcing g caller) (forced_intact h hg hc hcaller)
    (forced_inFlight c g caller ▸ List.mem_cons_self) refusal

end Intact

end Forced

/-! ### Groups in turn -/

/-- A group that collects is claimed when its turn comes. -/
theorem forceEach_cons {c : Coordinator} {g : Group} (hg : c.roster.group? g.id = some g)
    (hc : g.completed = false) (call : Call) (done : Nat) (rest : List Nat) :
    forceEach call done (g.id :: rest) c = c.forced g (.drain call done rest) := by
  simp only [forceEach, hg, claim_collecting hc]
  rfl

section Answers
variable {c : Coordinator} {call : Call}

theorem answersTo_record (c : Coordinator) (call : Call) (answer : Answer) :
    (c.record (.answered call answer)).answersTo call = c.answersTo call ++ [answer] := by
  simp [answersTo, answers, record, List.filterMap_append, Event.answer?]

theorem waiting_forced {g : Group} {caller : Caller} (hcaller : caller.call? = some call)
    (hwaits : c.waiting call = []) : (c.forced g caller).waiting call = [c.forcing g caller] := by
  rw [waiting, forced_inFlight, List.filter_cons_of_pos (by simp [forcing, hcaller])]
  exact congrArg _ hwaits

theorem mem_inFlight {f : Finalization} (hf : f ∈ c.waiting call) :
    f ∈ c.inFlight ∧ f.caller.call? = some call := by
  simpa [waiting] using hf

/-- A sink that answers is waited for no more, and nobody has been answered yet. -/
theorem released_apart {kept : Nat → Prop} (h : Intact kept c.custody) {f : Finalization}
    (hwaits : c.waiting call = [f]) (refusal : Option String) :
    ((c.land f.group).release f.group refusal).waiting call = [] ∧
      ((c.land f.group).release f.group refusal).answersTo call = c.answersTo call := by
  obtain ⟨hwaiting, hanswers⟩ := (Quiet.release (c.land f.group) f.group refusal).apart call
  refine ⟨?_, hanswers⟩
  rw [hwaiting, waiting_land h, hwaits]
  simp

end Answers

/-! ### Drains -/

/-- What a drain has come to that was called on its way `done` times: it waits for the sink of a
group, with others still to come, or it has returned. -/
inductive Drain (call : Call) (ids : List Nat) (done : Nat) (c : Coordinator) : Prop where
  | waits (f : Finalization) (rest : List Nat) (hwaits : c.waiting call = [f])
      (hcaller : f.caller = .drain call done rest) (hanswers : c.answersTo call = [])
      (hids : f.group ∈ ids) (hrest : ∀ id ∈ rest, id ∈ ids) (hcovers : Covers ids rest c.custody)
  | returned (hwaits : c.waiting call = []) (hanswers : c.answersTo call = [.count done])
      (hcovers : Covers ids [] c.custody)

/-- The group that is claimed is completed, and those before it on the list already were. -/
theorem covers_forced {c : Coordinator} {ids skipped left : List Nat} {x : Group}
    (h : Covers ids (skipped ++ x.id :: left) c.custody)
    (hskipped : ∀ id ∈ skipped, ∀ y, c.roster.group? id = some y → y.completed = true)
    (hx : c.roster.group? x.id = some x) (caller : Caller) :
    Covers ids left (c.forced x caller).custody := by
  intro id hid
  have hgroup : (c.forced x caller).custody.roster.group? id =
      if id = x.id then some x.sealed else c.roster.group? id :=
    group?_forced hx caller id
  obtain ⟨g, hg, hrest⟩ := h id hid
  by_cases hself : id = x.id
  · exact ⟨x.sealed, hgroup.trans (if_pos hself), .inr rfl⟩
  · refine ⟨g, hgroup.trans ((if_neg hself).trans hg), ?_⟩
    rcases hrest with hrest | hc
    · rcases List.mem_append.1 hrest with hskip | hrest
      · exact .inr (hskipped id hskip g hg)
      · exact .inl ((List.mem_cons.1 hrest).resolve_left hself)
    · exact .inr hc

namespace Drain
variable {c : Coordinator} {call : Call} {ids rest : List Nat} {done : Nat}

/-- Going through the groups that are still to come. -/
theorem of_forceEach (hwaits : c.waiting call = []) (hanswers : c.answersTo call = [])
    (hrest : ∀ id ∈ rest, id ∈ ids) (hcovers : Covers ids rest c.custody) :
    Drain call ids done (forceEach call done rest c) := by
  rcases forceEach_eq c call done rest with ⟨hall, heq⟩ |
    ⟨skipped, x, left, rfl, hskipped, hx, -, heq⟩
  · rw [heq]
    refine .returned hwaits ?_ fun id hid => ?_
    · rw [answersTo_record, hanswers]
      rfl
    · obtain ⟨g, hg, hcome⟩ := hcovers id hid
      exact ⟨g, hg, .inr (hcome.elim (fun hmem => hall id hmem g hg) fun hc => hc)⟩
  · rw [heq]
    have hmem : ∀ id ∈ x.id :: left, id ∈ ids := fun id hid =>
      hrest id (List.mem_append_right _ hid)
    exact .waits (c.forcing x (.drain call done left)) left (waiting_forced rfl hwaits) rfl
      ((answersTo_congr (forced_answers c x _) call).trans hanswers)
      (hmem x.id List.mem_cons_self) (fun id hid => hmem id (List.mem_cons_of_mem _ hid))
      (covers_forced hcovers hskipped hx _)

/-- Whatever others do leaves a drain alone; when the sink that it waits for has answered, that
finalization is over and the drain goes on. -/
theorem apply (h : Intact (fun _ => False) c.custody) (hd : Drain call ids done c) {act : Act}
    (hact : act.call? ≠ some call) :
    ((act.apply c).waiting call = c.waiting call ∧ Drain call ids done (act.apply c)) ∨
      ∃ f, c.waiting call = [f] ∧ Over f (act.apply c).custody ∧
        Drain call ids (done + 1) (act.apply c) := by
  rcases apart_or_answered h hact with ⟨hwaiting, hsame⟩ | ⟨f, hf, refusal, happly⟩
  · have hlasts : ∀ {g}, Lasts g c.custody → Lasts g (act.apply c).custody := fun hl =>
      Act.lasts_apply h hl act
    refine .inl ⟨hwaiting, ?_⟩
    cases hd with
    | waits f rest hwaits hcaller hanswers hids hrest hcovers =>
      exact .waits f rest (hwaiting.trans hwaits) hcaller (hsame.trans hanswers) hids hrest
        (hcovers.of_lasts hlasts)
    | returned hwaits hanswers hcovers =>
      exact .returned (hwaiting.trans hwaits) (hsame.trans hanswers) (hcovers.of_lasts hlasts)
  · cases hd with
    | returned hwaits => exact absurd (hwaits ▸ hf) List.not_mem_nil
    | waits f' rest hwaits hcaller hanswers hids hrest hcovers =>
      obtain rfl : f = f' := List.mem_singleton.1 (hwaits ▸ hf)
      have hflight : f ∈ c.inFlight := (mem_inFlight hf).1
      obtain ⟨g, hg, -⟩ := h.carried f hflight
      have hself : c.roster.group? g.id = some g := (Roster.id_of_group? hg).symm ▸ hg
      obtain ⟨hwaiting, hsame⟩ := released_apart h hwaits refusal
      have hreleased : Covers ids rest ((c.land f.group).release f.group refusal).custody := by
        rw [custody_release hg]
        exact hcovers.of_lasts fun hl => hl.release hself refusal
      rw [happly]
      refine .inr ⟨f, hwaits, over_conclude h hflight refusal [], ?_⟩
      rw [conclude_eq h hflight, hcaller]
      exact of_forceEach hwaiting (hsame.trans hanswers) hrest hreleased

end Drain

/-- The groups whose sinks a call has waited for. -/
def waited (call : Call) (c : Coordinator) : List Act → List Nat
  | [] => (c.waiting call).map Finalization.group
  | act :: rest => (c.waiting call).map Finalization.group ∪ waited call (act.apply c) rest

section Waited
variable {c : Coordinator} {call : Call}

theorem mem_waited {id : Nat} (hid : id ∈ (c.waiting call).map Finalization.group)
    (acts : List Act) : id ∈ waited call c acts := by
  cases acts with
  | nil => exact hid
  | cons act rest => exact List.mem_union_iff.2 (.inl hid)

/-- Nobody waits for a sink that has answered. -/
theorem notMem_waited (h : Intact (fun _ => False) c.custody) {f : Finalization}
    (hf : Over f c.custody) (acts : List Act) : f.group ∉ waited call c acts := by
  have hnow : ∀ {c : Coordinator}, Over f c.custody →
      f.group ∉ (c.waiting call).map Finalization.group := by
    intro c hf hmem
    obtain ⟨x, hx, hxf⟩ := List.mem_map.1 hmem
    exact hf.landed x (mem_inFlight hx).1 hxf
  induction acts generalizing c with
  | nil => exact hnow hf
  | cons act rest ih =>
    intro hmem
    rcases List.mem_union_iff.1 hmem with hmem | hmem
    · exact hnow hf hmem
    · exact ih (Act.intact h fun _ hk => hk.elim) (Act.over_apply h hf act) hmem

/-- As long as a call waits for the same sinks, nothing is added. -/
theorem waited_cons {act : Act} (hsame : (act.apply c).waiting call = c.waiting call)
    (rest : List Act) : waited call c (act :: rest) = waited call (act.apply c) rest := by
  have hmem : ∀ id ∈ (c.waiting call).map Finalization.group,
      id ∈ waited call (act.apply c) rest := fun id hid => mem_waited (hsame ▸ hid) rest
  exact List.Subset.union_eq_right hmem

/-- When the sink has answered, others may follow. -/
theorem waited_cons_over (h : Intact (fun _ => False) c.custody) {act : Act} {f : Finalization}
    (hwaits : c.waiting call = [f]) (hover : Over f (act.apply c).custody) (rest : List Act) :
    waited call c (act :: rest) = f.group :: waited call (act.apply c) rest ∧
      f.group ∉ waited call (act.apply c) rest := by
  have hnew : f.group ∉ waited call (act.apply c) rest :=
    notMem_waited (Act.intact h fun _ hk => hk.elim) hover rest
  refine ⟨?_, hnew⟩
  rw [waited, hwaits]
  exact List.insert_of_not_mem hnew

end Waited

/-- A drain waits for no group twice and for none that is not on its list; and at any time it has
been called on its way as often as sinks have answered that it waited for. -/
theorem Drain.after {c : Coordinator} {call : Call} {ids : List Nat} {done : Nat}
    (h : Intact (fun _ => False) c.custody) (hd : Drain call ids done c) {acts : List Act}
    (hacts : ∀ act ∈ acts, act.call? ≠ some call) :
    (waited call c acts).Nodup ∧ (∀ id ∈ waited call c acts, id ∈ ids) ∧
      ∃ now, Drain call ids now (after c acts) ∧
        now + ((after c acts).waiting call).length = done + (waited call c acts).length := by
  induction acts generalizing c done with
  | nil =>
    have hlength : (waited call c []).length = (c.waiting call).length := List.length_map _
    refine ⟨?_, ?_, done, hd, by rw [hlength]; rfl⟩
    · cases hd with
      | waits f rest hwaits => simp [waited, hwaits]
      | returned hwaits => simp [waited, hwaits]
    · cases hd with
      | waits f rest hwaits _ _ hids => simpa [waited, hwaits] using hids
      | returned hwaits => simp [waited, hwaits]
  | cons act rest ih =>
    have hrest : ∀ act ∈ rest, act.call? ≠ some call := fun x hx =>
      hacts x (List.mem_cons_of_mem act hx)
    have hintact : Intact (fun _ => False) (act.apply c).custody :=
      Act.intact h fun _ hk => hk.elim
    rcases hd.apply h (hacts act List.mem_cons_self) with ⟨hsame, hd'⟩ | ⟨f, hwaits, hover, hd'⟩
    · rw [waited_cons hsame]
      exact ih hintact hd' hrest
    · obtain ⟨hcons, hnew⟩ := waited_cons_over h hwaits hover rest
      obtain ⟨hnodup, hids, now, hnow, hcount⟩ := ih hintact hd' hrest
      rw [hcons]
      refine ⟨List.nodup_cons.2 ⟨hnew, hnodup⟩, List.forall_mem_cons.2 ⟨?_, hids⟩, now, hnow, ?_⟩
      · cases hd with
        | waits f' _ hwaits' _ _ hmem =>
          obtain rfl : f = f' := by simpa [hwaits] using hwaits'
          exact hmem
        | returned hnone => simp [hwaits] at hnone
      · show now + ((Coordinator.after (act.apply c) rest).waiting call).length = _
        rw [hcount, List.length_cons]
        omega

/-! ### Drains with a sink that answers at once -/

section Prompt
variable {kept : Nat → Prop} {c : Coordinator} (verdict : Verdict)

/-- Each group is claimed and released in turn. -/
theorem settleWith_forceEach {rest : List Nat} (h : Intact kept c.custody)
    (hflight : c.inFlight = []) (hnodup : rest.Nodup)
    (hrest : ∀ id ∈ rest, ∃ g, c.roster.group? id = some g ∧ g.completed = false)
    (call : Call) (done : Nat) {fuel : Nat} (hfuel : rest.length ≤ fuel) :
    ∃ e, settleWith verdict fuel (forceEach call done rest c) =
        settleWith verdict (fuel - rest.length) e ∧
      e.inFlight = [] ∧ e.answersTo call = c.answersTo call ++ [.count (done + rest.length)] ∧
      ∀ key id, e.roster.registry.get? key = some id →
        c.roster.registry.get? key = some id ∧ id ∉ rest := by
  induction rest generalizing c done fuel with
  | nil =>
    exact ⟨_, rfl, hflight, answersTo_record .., fun _ _ hr => ⟨hr, List.not_mem_nil⟩⟩
  | cons id rest ih =>
    obtain ⟨hid, hdistinct⟩ := List.nodup_cons.1 hnodup
    obtain ⟨g, hg, hc⟩ := hrest id List.mem_cons_self
    obtain rfl : g.id = id := Roster.id_of_group? hg
    obtain ⟨n, rfl⟩ : ∃ n, fuel = n + 1 := ⟨fuel - 1, by rw [List.length_cons] at hfuel; omega⟩
    have hstep : settleWith verdict (n + 1) (c.forced g (.drain call done rest)) =
        settleWith verdict n (forceEach call (done + 1) rest (c.dispatched g
          (.drain call done rest) (verdict (resultOf g (g.claimTrigger c.now))))) := by
      simp only [settleWith, forced_inFlight, forcing]
      rw [conclude_forced h hg hc rfl]
      rfl
    obtain ⟨b, hb⟩ : ∃ b, b = c.dispatched g (.drain call done rest)
      (verdict (resultOf g (g.claimTrigger c.now))) := ⟨_, rfl⟩
    rw [forceEach_cons hg hc, hstep, ← hb]
    have hquiet : Quiet c b := hb ▸ dispatched_quiet c g _ _
    obtain ⟨e, he, hflight', hanswers, hregistry⟩ := ih (c := b)
      (hb ▸ dispatched_intact h hg hc rfl _) (hquiet.inFlight.trans hflight) hdistinct
      (fun id hmem => by
        obtain ⟨x, hx, hxc⟩ := hrest id (List.mem_cons_of_mem _ hmem)
        refine ⟨x, ?_, hxc⟩
        rw [hb, group?_dispatched hg _ _ fun e => hid (e ▸ hmem), hx])
      (done + 1) (Nat.le_of_succ_le_succ hfuel)
    refine ⟨e, ?_, hflight', ?_, fun key id hr => ?_⟩
    · rw [he, List.length_cons, Nat.add_sub_add_right]
    · rw [hanswers, (hquiet.apart call).2, List.length_cons, Nat.add_assoc, Nat.add_comm 1]
    · obtain ⟨hr, hmem⟩ := hregistry key id hr
      obtain ⟨hr, hne⟩ := registered_dispatched hg _ h _ (hb ▸ hr)
      exact ⟨hr, List.not_mem_cons_of_ne_of_not_mem hne hmem⟩

/-- Without any group, deadlines that fired come too late. -/
theorem settleWith_none (hflight : c.inFlight = []) (hnone : ∀ key, c.group? key = none)
    (fuel : Nat) : (settleWith verdict fuel c).roster = c.roster ∧
      ∀ call, (settleWith verdict fuel c).answersTo call = c.answersTo call := by
  induction fuel generalizing c with
  | zero => exact ⟨rfl, fun _ => rfl⟩
  | succ fuel ih =>
    simp only [settleWith, hflight]
    cases hd : c.expired with
    | nil => exact ⟨rfl, fun _ => rfl⟩
    | cons d rest =>
      have hgone : ∀ g, (c.take d).group? d.key = some g → g.id ≠ d.group := fun g hg => by
        rw [show (c.take d).group? d.key = none from hnone d.key] at hg
        cases hg
      have hquiet : Quiet c ((c.take d).record (.stale d)) :=
        (Quiet.mk rfl rfl : Quiet c (c.take d)).trans (.record _ rfl)
      simp only [expireNext_eq hd, expire_stale hgone]
      obtain ⟨hroster, hanswers⟩ := ih (c := (c.take d).record (.stale d)) hflight hnone
      exact ⟨hroster, fun call => (hanswers call).trans (hquiet.apart call).2⟩

theorem length_le_workload {rest : List Nat}
    (hrest : ∀ id ∈ rest, ∃ g, c.roster.group? id = some g ∧ g.completed = false) (call : Call)
    (done : Nat) : rest.length ≤ (forceEach call done rest c).workload := by
  cases rest with
  | nil => exact Nat.zero_le _
  | cons id rest =>
    obtain ⟨g, hg, hc⟩ := hrest id List.mem_cons_self
    obtain rfl : g.id = id := Roster.id_of_group? hg
    rw [forceEach_cons hg hc, workload, forced_inFlight]
    show rest.length + 1 ≤ 2 * (rest.length + 1) + Aggregator.owed c.inFlight + _
    omega

/-- All groups go, in whatever order they are visited, and each of them counts. -/
theorem settle_drain (h : Intact kept c.custody) (hu : Upright c.custody)
    (hflight : c.inFlight = []) (call : Call) (order : Visiting) :
    ((c.drainIn call order).settle verdict).roster.registry.size = 0 ∧
      ((c.drainIn call order).settle verdict).answersTo call =
        c.answersTo call ++ [.count c.roster.registry.size] := by
  obtain ⟨ids, hids⟩ : ∃ ids, order.arrange c.roster.registry.ids = ids := ⟨_, rfl⟩
  have hperm : ids.Perm c.roster.registry.ids := hids ▸ order.perm _
  have hnodup : ids.Nodup := hperm.nodup_iff.2 (Roster.ids_nodup h.linked.registered)
  have hrest : ∀ id ∈ ids, ∃ g, c.roster.group? id = some g ∧ g.completed = false := by
    intro id hid
    obtain ⟨key, hr⟩ := Registry.mem_ids.1 (hperm.mem_iff.1 hid)
    obtain ⟨g, hg, -⟩ := h.linked.registered key id hr
    obtain rfl : g.id = id := Roster.id_of_group? hg
    exact ⟨g, hg, hu.collecting hr hg⟩
  obtain ⟨e, he, hflight', hanswers, hregistry⟩ := settleWith_forceEach verdict h hflight hnodup
    hrest call 0 (length_le_workload hrest call 0)
  have hempty : ∀ key, e.roster.registry.get? key = none := by
    intro key
    cases hr : e.roster.registry.get? key with
    | none => rfl
    | some id =>
      obtain ⟨hr, hnot⟩ := hregistry key id hr
      exact absurd (hperm.mem_iff.2 (Registry.mem_ids.2 ⟨key, hr⟩)) hnot
  have hnone : ∀ key, e.group? key = none := fun key => by
    rw [group?, Roster.registered?, hempty]
    rfl
  obtain ⟨hroster, hsame⟩ := settleWith_none verdict hflight' hnone
    ((c.drainIn call order).workload - ids.length)
  have hsettle : (c.drainIn call order).settle verdict =
      settleWith verdict ((c.drainIn call order).workload - ids.length) e := by
    rw [drainIn, hids]
    exact he
  rw [hsettle, hroster, hsame, hanswers, hperm.length_eq, Registry.size_eq, Registry.size_eq,
    Nat.zero_add]
  refine ⟨List.length_eq_zero_iff.2 (List.eq_nil_iff_forall_not_mem.2 fun id hid => ?_), rfl⟩
  obtain ⟨key, hr⟩ := Registry.mem_ids.1 hid
  rw [hempty] at hr
  cases hr

end Prompt

/-! ### One group by its key -/

/-- Whoever forces a group waits for its sink, or was answered that there was one. -/
def Forces (call : Call) (f : Finalization) (c : Coordinator) : Prop :=
  (c.waiting call = [f] ∧ c.answersTo call = []) ∨
    (c.waiting call = [] ∧ c.answersTo call = [.flag true])

section Force
variable {c : Coordinator} {call : Call} {key : String} {g : Group}

theorem force_none (hnone : c.group? key = none) (call : Call) : c.force call key =
    {c with history := c.history ++ [.missing key, .answered call (.flag false)]} := by
  simp only [force, hnone, record, List.append_assoc, List.cons_append, List.nil_append]

theorem force_collecting (hg : c.group? key = some g) (hc : g.completed = false) (call : Call) :
    c.force call key = c.forced g (.force call) := by
  simp only [force, hg, claim_collecting hc]
  rfl

theorem Forces.apply (h : Intact (fun _ => False) c.custody) {f : Finalization}
    (hcaller : f.caller = .force call) (hf : Forces call f c) {act : Act}
    (hact : act.call? ≠ some call) : Forces call f (act.apply c) := by
  rcases apart_or_answered h hact with ⟨hwaiting, hsame⟩ | ⟨x, hx, refusal, happly⟩
  · rw [Forces, hwaiting, hsame]
    exact hf
  · rcases hf with ⟨hwaits, hanswers⟩ | ⟨hwaits, -⟩
    · obtain rfl : x = f := List.mem_singleton.1 (hwaits ▸ hx)
      obtain ⟨hwaiting, hsame⟩ := released_apart h hwaits refusal
      rw [happly, conclude_eq h (mem_inFlight hx).1, hcaller]
      refine .inr ⟨hwaiting, (answersTo_record ..).trans ?_⟩
      rw [hsame, hanswers]
      rfl
    · exact absurd (hwaits ▸ hx) List.not_mem_nil

theorem Forces.after (h : Intact (fun _ => False) c.custody) {f : Finalization}
    (hcaller : f.caller = .force call) (hf : Forces call f c) {acts : List Act}
    (hacts : ∀ act ∈ acts, act.call? ≠ some call) : Forces call f (after c acts) := by
  induction acts generalizing c with
  | nil => exact hf
  | cons act rest ih =>
    exact ih (Act.intact h fun _ hk => hk.elim)
      (hf.apply h hcaller (hacts act List.mem_cons_self)) fun x hx =>
        hacts x (List.mem_cons_of_mem act hx)

end Force

/-! ### What forcing leaves behind -/

/-- All groups that were registered have been handed over, once each under the key that they had,
and what is registered now is younger. -/
structure Drained (before after : Coordinator) : Prop where
  finalized : ∀ key id, before.roster.registry.get? key = some id →
    ∃ g result, after.roster.group? id = some g ∧ g.completed = true ∧
      (∀ other, after.roster.registry.get? other ≠ some id) ∧
      after.deliveriesOf id = [result] ∧ result.key = key
  younger : ∀ key id, after.roster.registry.get? key = some id → before.roster.nextId ≤ id

/-- One group is handed over and its key is free; all other keys and groups are as they were. -/
structure Picked (before : Coordinator) (g : Group) (result : Result) (after : Coordinator) :
    Prop where
  handed : after.deliveries = before.deliveries ++ [(g.id, result)]
  free : after.group? g.key = none
  keys : ∀ other, other ≠ g.key → after.group? other = before.group? other
  groups : ∀ id, id ≠ g.id → after.roster.group? id = before.roster.group? id

section Outcome
variable {c : Coordinator} (h : Intact (fun _ => False) c.custody) (hu : Upright c.custody)
  {call : Call} (hwaits : c.waiting call = []) (hanswers : c.answersTo call = [])
include h

include hu in
/-- What has been done when a drain has returned, nobody having claimed any group through a
handle. -/
theorem drained_after {acts : List Act} (hacts : Unclaimed c acts)
    (hcovers : Covers c.roster.registry.ids [] (after c acts).custody) :
    Drained c (after c acts) := by
  have hupright : Upright (after c acts).custody := after_upright h hu hacts
  have hfinalized : ∀ key id, c.roster.registry.get? key = some id →
      ∃ g result, (after c acts).roster.group? id = some g ∧ g.completed = true ∧
        (∀ other, (after c acts).roster.registry.get? other ≠ some id) ∧
        (after c acts).deliveriesOf id = [result] ∧ result.key = key := by
    intro key id hr
    obtain ⟨x, hx, hxk⟩ := h.linked.registered key id hr
    obtain rfl : x.id = id := Roster.id_of_group? hx
    obtain ⟨g, hg, hgk, -⟩ := after_lasts h ⟨x, hx, rfl, fun hc => hc⟩ acts
    obtain ⟨y, hy, hyc⟩ := hcovers x.id (Registry.mem_ids.2 ⟨key, hr⟩)
    obtain rfl := Option.some.inj (hg.symm.trans hy)
    have hc : g.completed = true := hyc.resolve_left List.not_mem_nil
    obtain ⟨⟨result, hhanded, hkey⟩, haway⟩ := hupright x.id g hg hc
    exact ⟨g, result, hg, hc, haway, hhanded, hkey.trans (hgk.trans hxk)⟩
  refine ⟨hfinalized, fun key id hr => ?_⟩
  by_contra hold
  by_cases hbefore : ∃ other, c.roster.registry.get? other = some id
  · obtain ⟨other, hother⟩ := hbefore
    obtain ⟨-, -, -, -, haway, -⟩ := hfinalized other id hother
    exact haway key hr
  · have hgone : Gone id c.custody := ⟨Nat.lt_of_not_le hold, fun other ho => hbefore ⟨other, ho⟩⟩
    exact (after_gone h hgone acts).away key hr

include hu hwaits hanswers in
/-- A drain waits for one sink at a time, and what it answers when it returns is how many groups it
claimed. -/
theorem drain_returns {order : Visiting} {later : List Act}
    (hlater : Unclaimed (c.drainIn call order) later)
    (hfresh : ∀ act ∈ later, act.call? ≠ some call) :
    let d := after (c.drainIn call order) later
    let claimed := waited call (c.drainIn call order) later
    claimed.Nodup ∧ (∀ id ∈ claimed, ∃ key, c.roster.registry.get? key = some id) ∧
      (((∃ f, d.waiting call = [f]) ∧ d.answersTo call = []) ∨
        (d.waiting call = [] ∧ d.answersTo call = [.count claimed.length] ∧ Drained c d)) := by
  intro d claimed
  have hcovers : Covers c.roster.registry.ids (order.arrange c.roster.registry.ids) c.custody := by
    intro id hid
    obtain ⟨key, hr⟩ := Registry.mem_ids.1 hid
    obtain ⟨g, hg, -⟩ := h.linked.registered key id hr
    exact ⟨g, hg, .inl (order.mem_arrange.2 hid)⟩
  have hdrain : Drain call c.roster.registry.ids 0 (c.drainIn call order) :=
    .of_forceEach hwaits hanswers (fun _ hid => order.mem_arrange.1 hid) hcovers
  have hintact : Intact (fun _ => False) ((Act.move (.drain call order)).apply c).custody :=
    Act.intact h fun _ hk => hk.elim
  obtain ⟨hnodup, hmem, n, hd, hcount⟩ := hdrain.after hintact hfresh
  refine ⟨hnodup, fun id hid => Registry.mem_ids.1 (hmem id hid), ?_⟩
  cases hd with
  | waits f _ hf _ hnone => exact .inl ⟨⟨f, hf⟩, hnone⟩
  | returned hf hanswered hleft =>
    have hacts : Unclaimed c (.move (.drain call order) :: later) := ⟨rfl, hlater⟩
    have hn : n = claimed.length := by
      rw [hf] at hcount
      exact hcount.trans (Nat.zero_add _)
    exact .inr ⟨hf, hn ▸ hanswered, drained_after h hu hacts hleft⟩

variable {g : Group} (hg : c.roster.group? g.id = some g) (hc : g.completed = false)
include hg

theorem picked_forced (hr : c.roster.registry.get? g.key = some g.id) (caller : Caller) :
    Picked c g (resultOf g (g.claimTrigger c.now)) (c.forced g caller) := by
  refine ⟨congrArg Custody.deliveries (forced_custody c g caller), ?_,
    fun other => live_forced hg caller h, fun id hid =>
      (group?_forced hg caller id).trans (if_neg hid)⟩
  rw [group?, Roster.registered?, registry_forced caller hr]
  rfl

theorem gone_forced (caller : Caller) : Gone g.id (c.forced g caller).custody := by
  refine ⟨?_, fun key hr => (registered_forced hg caller h hr).2 rfl⟩
  show g.id < (c.forced g caller).roster.nextId
  rw [forced_roster]
  show g.id < (c.roster.update g.sealed).nextId
  rw [nextId_update]
  exact h.linked.numbered.id_lt_nextId (Roster.mem_of_group? hg)

include hc

theorem spent_forced (caller : Caller) :
    Spent g.id [resultOf g (g.claimTrigger c.now)] (c.forced g caller).custody := by
  have hnone : c.custody.deliveriesOf g.id = [] := h.tallied.unclaimed g.id fun x hx => by
    obtain rfl := Option.some.inj (hx.symm.trans hg)
    exact hc
  refine ⟨⟨g.sealed, group?_forced_self hg caller, rfl⟩, ?_⟩
  rw [forced_custody, deliveriesOf_claim, hnone, if_pos (show g.sealed.id = g.id from rfl)]
  rfl

include hwaits hanswers in
/-- A group that is forced is handed over once for all, and whoever forced it is answered that when
the sink has answered. -/
theorem forced_returns {later : List Act} (hfresh : ∀ act ∈ later, act.call? ≠ some call) :
    let d := after (c.forced g (.force call)) later
    (∃ x, d.roster.group? g.id = some x ∧ x.completed = true) ∧
      (∀ other, d.roster.registry.get? other ≠ some g.id) ∧
      d.deliveriesOf g.id = [resultOf g (g.claimTrigger c.now)] ∧
      (((∃ f, d.waiting call = [f] ∧ f.group = g.id) ∧ d.answersTo call = []) ∨
        (d.waiting call = [] ∧ d.answersTo call = [.flag true])) := by
  intro d
  have hintact : Intact (fun _ => False) (c.forced g (.force call)).custody :=
    forced_intact h hg hc rfl
  obtain ⟨hfinished, hhanded⟩ := after_spent hintact (spent_forced h hg hc _) later
  refine ⟨hfinished, (after_gone hintact (gone_forced h hg _) later).away, hhanded, ?_⟩
  have hforces : Forces call (c.forcing g (.force call)) (c.forced g (.force call)) :=
    .inl ⟨waiting_forced rfl hwaits, (answersTo_congr (forced_answers ..) call).trans hanswers⟩
  rcases hforces.after hintact rfl hfresh with ⟨hf, hnone⟩ | hanswered
  · exact .inl ⟨⟨_, hf, rfl⟩, hnone⟩
  · exact .inr hanswered

include hanswers in
/-- The key is free when the sink has answered. -/
theorem forced_concluded (hr : c.roster.registry.get? g.key = some g.id)
    (refusal : Option String) :
    let s := (c.forced g (.force call)).conclude g.id refusal
    s.answersTo call = [.flag true] ∧ s.group? g.key = none := by
  intro s
  have hs : s = (c.dispatched g (.force call) refusal).record (.answered call (.flag true)) :=
    conclude_forced h hg hc rfl refusal
  have hfree : s.roster.registry.get? g.key = none := by
    rw [hs]
    show (c.dispatched g (.force call) refusal).roster.registry.get? g.key = none
    rw [dispatched_roster hg]
    exact registry_forced (.force call) hr
  refine ⟨?_, ?_⟩
  · rw [hs, answersTo_record, ((dispatched_quiet ..).apart call).2, hanswers]
    rfl
  · rw [group?, Roster.registered?, hfree]
    rfl

end Outcome

/-- In every state that any operations and any calls on groups lead to, nobody having claimed a
group through a handle, and whatever others and the sinks do meanwhile:

* A drain claims groups that were registered when it was called, none of them twice, in whatever
  order it visits them, and waits for the sink of one of them at a time. When it returns, all groups that were registered have been
  handed over once, by whomever, what is registered was created since, and it answers how many it
  claimed itself. With a sink that answers at once nothing is registered, and it answers how many
  groups were.
* Without a group under its key, completing it by force answers no and changes nothing. Otherwise
  that group and no other is handed over, once for all, and the answer is yes when the sink has
  answered. If the sink does so at once, completing the key again answers no and changes nothing. -/
theorem forcing_completes (settings : Settings) (metrics : Bool) (now : Instant)
    (first : List Act) (hfirst : Unclaimed (start settings metrics now) first) (call : Call)
    (hcall : ∀ act ∈ first, act.call? ≠ some call) :
    let c := after (start settings metrics now) first
    (∀ (order : Visiting) (later : List Act), Unclaimed (c.drainIn call order) later →
      (∀ act ∈ later, act.call? ≠ some call) →
      let d := after (c.drainIn call order) later
      let claimed := waited call (c.drainIn call order) later
      claimed.Nodup ∧ (∀ id ∈ claimed, ∃ key, c.roster.registry.get? key = some id) ∧
      (((∃ f, d.waiting call = [f]) ∧ d.answersTo call = []) ∨
        (d.waiting call = [] ∧ d.answersTo call = [.count claimed.length] ∧ Drained c d))) ∧
    (c.inFlight = [] → ∀ (order : Visiting) verdict,
      let s := (c.drainIn call order).settle verdict
      s.roster.registry.size = 0 ∧ s.answersTo call = [.count c.roster.registry.size]) ∧
    ∀ key,
      let b := c.force call key
      let refuses (s : Coordinator) := ∀ next, s.force next key =
        {s with history := s.history ++ [.missing key, .answered next (.flag false)]}
      (c.group? key = none → b.answersTo call = [.flag false] ∧ refuses c ∧ refuses b) ∧
      ∀ g, c.group? key = some g →
        let result : Result := ⟨key, g.messages, g.claimTrigger c.now⟩
        Picked c g result b ∧
        (∀ later, (∀ act ∈ later, act.call? ≠ some call) →
          let d := after b later
          (∃ x, d.roster.group? g.id = some x ∧ x.completed = true) ∧
          (∀ other, d.roster.registry.get? other ≠ some g.id) ∧ d.deliveriesOf g.id = [result] ∧
          (((∃ f, d.waiting call = [f] ∧ f.group = g.id) ∧ d.answersTo call = []) ∨
            (d.waiting call = [] ∧ d.answersTo call = [.flag true]))) ∧
        ∀ refusal,
          let s := b.conclude g.id refusal
          s.answersTo call = [.flag true] ∧ refuses s := by
  intro c
  have hstart : Intact (fun _ => False) (start settings metrics now).custody :=
    intact_start _ settings metrics now
  have h : Intact (fun _ => False) c.custody := after_intact hstart fun _ _ _ hk => hk.elim
  have hu : Upright c.custody := after_upright hstart (upright_start settings metrics now) hfirst
  obtain ⟨hwaits, hanswers⟩ : c.waiting call = [] ∧ c.answersTo call = [] :=
    apart_after hstart hcall rfl
  refine ⟨fun order later => drain_returns h hu hwaits hanswers, fun hflight order verdict => ?_,
    fun key => ⟨fun hnone => ?_, fun g hg => ?_⟩⟩
  · obtain ⟨hsize, hcount⟩ := settle_drain verdict h hu hflight call order
    rw [hanswers] at hcount
    exact ⟨hsize, hcount⟩
  · have hforce : c.force call key =
        (c.record (.missing key)).record (.answered call (.flag false)) := by
      simp only [force, hnone]
    refine ⟨?_, force_none hnone, force_none ?_⟩
    · have hmissing : Quiet c (c.record (.missing key)) := .record c rfl
      rw [hforce, answersTo_record, (hmissing.apart call).2, hanswers]
      rfl
    · rw [hforce]
      exact hnone
  · rcases group?_cases h key with ⟨hnone, -⟩ | ⟨x, hx, hr, hgid, rfl⟩
    · rw [hnone] at hg
      cases hg
    obtain rfl := Option.some.inj (hx.symm.trans hg)
    have hc : x.completed = false := hu.collecting hr hgid
    have hforce : c.force call x.key = c.forced x (.force call) := force_collecting hg hc call
    rw [hforce]
    refine ⟨picked_forced h hgid hr _, fun later => forced_returns h hwaits hanswers hgid hc,
      fun refusal => ?_⟩
    obtain ⟨hanswered, hfree⟩ := forced_concluded h hanswers hgid hc hr refusal
    exact ⟨hanswered, force_none hfree⟩

/-- Two groups are registered when a drain is called, which visits the second one first. While the
sink of that one thinks, it admits a message under that key again and the other group is completed by
somebody else. -/
theorem forcing_completes_meanwhile :
    let first : List Act := [.move (.openGroup "a" .none), .move (.openGroup "b" .none)]
    let call : Call := .outside 0
    let c := after (start ⟨"name", "sink", none, true⟩ true 0) first
    let m := Message.ofAction "m" "op" (Timestamp.ofMillis 0)
    let order : Visiting := ⟨List.reverse, List.reverse_perm⟩
    let later : List Act := [.move (.submit (.fromSink "b") "b" m .none),
      .move (.force (.outside 1) "a"), .move (.conclude 2 none)]
    let d := after (c.drainIn call order) later
    Unclaimed (start ⟨"name", "sink", none, true⟩ true 0) first ∧
      (∀ act ∈ first, act.call? ≠ some call) ∧ Unclaimed (c.drainIn call order) later ∧
      (∀ act ∈ later, act.call? ≠ some call) ∧ c.roster.registry.ids = [1, 2] ∧
      d.answersTo call = [.count 1] ∧ Drained c d ∧ d.roster.registry.ids = [3] := by
  intro first call c m order later d
  have hfirst : Unclaimed (start ⟨"name", "sink", none, true⟩ true 0) first :=
    ⟨rfl, rfl, trivial⟩
  have hcall : ∀ act ∈ first, act.call? ≠ some call := by decide
  have hlater : Unclaimed (c.drainIn call order) later := ⟨rfl, rfl, rfl, trivial⟩
  have hfresh : ∀ act ∈ later, act.call? ≠ some call := by
    simp [later, call, Act.call?, Move.call?]
  obtain ⟨hdrain, -⟩ := forcing_completes _ true 0 first hfirst call hcall
  obtain ⟨-, -, ⟨⟨f, hf⟩, -⟩ | ⟨-, hanswers, hdrained⟩⟩ := hdrain order later hlater hfresh
  · have hnobody : d.waiting call = [] := by decide +kernel
    rw [hnobody] at hf
    cases hf
  · have hclaimed : (waited call (c.drainIn call order) later).length = 1 := by decide +kernel
    rw [hclaimed] at hanswers
    have hbefore : c.roster.registry.ids = [1, 2] := by decide +kernel
    have hafter : d.roster.registry.ids = [3] := by decide +kernel
    exact ⟨hfirst, hcall, hlater, hfresh, hbefore, hanswers, hdrained, hafter⟩

end Coordinator

end Aggregation
