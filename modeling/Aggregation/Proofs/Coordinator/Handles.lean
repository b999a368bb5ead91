import Aggregation.Proofs.Coordinator.Custody

/-! Runs in which anybody calls the groups that he was handed.

An act is a move of a run, any call on a group, or something done to the registry or the scheduler
of the coordinator directly. The operations never rely on a registered group to be collecting:
opening one replaces a completed one (`openGroup_deeds`), and whoever claims a group makes sure that
it is not completed. So every act is a sequence of edits of the custody, the answer of a sink, or
the clearing of a group (`Act.apply_custody`), and custody stays intact in every run, but for the
messages of groups that are cleared (`after_intact`). -/
namespace Aggregation

open Custody

/-- Whether an event neither hands anything to the sink nor tells of a sink that refused. -/
def Event.isQuiet (e : Event) : Bool :=
  e.delivery?.isNone && !(e.handed?.any fun x => x.2.isRefusal)

/-- What happens when a sink refuses messages. -/
def Outlet.refused (outlet : Outlet) (key : String) (messages : List Message) (cause : String) :
    Event :=
  let fault := Fault.sinkFailed key outlet.sink cause []
  match messages.getLast? with
  | some m => if outlet.hasFaultSink then .faulted m fault else .lost m fault
  | none => .lostEmpty key fault

theorem Outlet.handed_refused (outlet : Outlet) (key : String) (messages : List Message)
    (cause : String) :
    [outlet.refused key messages cause].filterMap Event.handed? =
      outlet.report key messages cause := by
  unfold refused report
  cases messages.getLast? with
  | none => cases outlet.hasFaultSink <;> rfl
  | some m => cases outlet.hasFaultSink <;> rfl

theorem Outlet.delivery_refused (outlet : Outlet) (key : String) (messages : List Message)
    (cause : String) : [outlet.refused key messages cause].filterMap Event.delivery? = [] := by
  unfold refused
  cases messages.getLast? with
  | none => rfl
  | some m => cases outlet.hasFaultSink <;> rfl

theorem Outlet.isRefusal_report (outlet : Outlet) (key : String) (messages : List Message)
    (cause : String) : ∀ x ∈ outlet.report key messages cause, x.2.isRefusal = true := by
  intro x hx
  unfold report at hx
  split at hx
  · obtain ⟨m, -, rfl⟩ := List.mem_map.1 hx
    rfl
  · cases hx

namespace Coordinator

/-- What the fault sink was handed. -/
def reported (c : Coordinator) : List (Message × Fault) :=
  c.history.filterMap Event.handed?

/-- What it was told of sinks that refused. -/
def told (c : Coordinator) : List (Message × Fault) :=
  c.reported.filter fun x => x.2.isRefusal

def custody (c : Coordinator) : Custody :=
  ⟨c.roster, c.inFlight, c.outlet, c.deliveries, c.told⟩

/-! ### What steps do to the custody -/

section Steps
variable {c d : Coordinator} {events : List Event}

theorem reported_append (h : d.history = c.history ++ events) :
    d.reported = c.reported ++ events.filterMap Event.handed? := by
  rw [reported, h, List.filterMap_append]
  rfl

/-- What comes of a step that adds to the history. -/
theorem custody_append (hsettings : d.settings = c.settings)
    (hhistory : d.history = c.history ++ events) : d.custody =
      ⟨d.roster, d.inFlight, c.outlet, c.deliveries ++ events.filterMap Event.delivery?,
        c.told ++ (events.filterMap Event.handed?).filter fun x => x.2.isRefusal⟩ := by
  simp only [custody, told, reported_append hhistory, deliveries, hhistory, List.filterMap_append,
    List.filter_append, outlet, hsettings]

/-- What comes of a step that adds what is of no concern here. -/
theorem custody_quiet (hsettings : d.settings = c.settings)
    (hhistory : d.history = c.history ++ events) (hquiet : events.all Event.isQuiet = true) :
    d.custody = ⟨d.roster, d.inFlight, c.outlet, c.deliveries, c.told⟩ := by
  have hevents : ∀ e ∈ events, e.delivery? = none ∧
      ∀ x, e.handed? = some x → x.2.isRefusal = false := by
    intro e he
    obtain ⟨hdelivery, hhanded⟩ : e.delivery? = none ∧
        (e.handed?.any fun x => x.2.isRefusal) = false := by
      simpa [Event.isQuiet] using List.all_eq_true.1 hquiet e he
    refine ⟨hdelivery, fun x hx => ?_⟩
    rwa [hx] at hhanded
  have hdeliveries : events.filterMap Event.delivery? = [] :=
    List.filterMap_eq_nil_iff.2 fun e he => (hevents e he).1
  have htold : (events.filterMap Event.handed?).filter (fun x => x.2.isRefusal) = [] := by
    refine List.filter_eq_nil_iff.2 fun x hx => ?_
    obtain ⟨e, he, hex⟩ := List.mem_filterMap.1 hx
    simp [(hevents e he).2 x hex]
  rw [custody_append hsettings hhistory, hdeliveries, htold, List.append_nil, List.append_nil]

theorem custody_record {e : Event} (he : e.isQuiet = true) : (c.record e).custody = c.custody :=
  custody_quiet rfl rfl (by simp [he])

theorem custody_fault {outlet : Outlet} {m : Message} {f : Fault} (hf : f.isRefusal = false) :
    (c.fault outlet m f).custody = c.custody := by
  refine custody_quiet rfl rfl ?_
  cases outlet.hasFaultSink with
  | true => simp [Event.isQuiet, Event.delivery?, Event.handed?, hf]
  | false => rfl

theorem custody_remark (g : Group) (trigger : Trigger) :
    (c.remark g trigger).custody = c.custody := by
  unfold remark
  split
  · exact custody_record rfl
  · rfl

theorem custody_finalize (g : Group) (trigger : Trigger) (caller : Caller) :
    (c.finalize g trigger caller).custody = c.custody.claim g.sealed trigger caller := by
  have happend := custody_append (finalize_settings ..) (finalize_history c g trigger caller)
  rw [happend]
  show (⟨_, _, _, _, c.told ++ []⟩ : Custody) = _
  rw [List.append_nil]
  rfl

theorem custody_create (key : String) (params : Params) : (c.create key params).2.custody =
    {c.custody with roster := c.roster.create key (c.newGroup key params)} := by
  rw [custody_quiet (create_settings ..) (create_history ..), create_roster, create_inFlight]
  · rfl
  · split <;> rfl

theorem custody_schedule (d : Deadline) : (c.schedule d).custody = c.custody := by
  unfold schedule
  split
  · exact custody_record rfl
  · rfl

theorem custody_advance (ms : Nat) : (c.advance ms).custody = c.custody := by
  have hquiet : ∀ fired : List Deadline, (fired.map Event.fired).all Event.isQuiet = true := by
    intro fired
    rw [List.all_map]
    exact List.all_eq_true.2 fun d _ => rfl
  rw [advance, fireAll_eq]
  exact custody_quiet rfl rfl (hquiet _)

/-- A coordinator that has counted and noted a fault besides. -/
def noting (c : Coordinator) (kind : String) (e : Event) : Coordinator :=
  {c with
    metrics := c.metrics.map fun m => m.recordFault kind
    history := c.history ++ [e]}

/-- A refusal is counted and reported, and makes no other difference. -/
theorem release_refused {id : Nat} {g : Group} (hg : c.roster.group? id = some g)
    (cause : String) : c.release id (some cause) =
      (c.release id none).noting "sink_failed" (g.outlet.refused g.key g.messages cause) := by
  simp only [release, hg, reportRefusal, Group.last, Outlet.refused]
  cases g.messages.getLast? <;> rfl

theorem custody_release {id : Nat} {g : Group} (hg : c.roster.group? id = some g)
    (refusal : Option String) : ((c.land id).release id refusal).custody =
      c.custody.release g refusal := by
  obtain rfl : g.id = id := Roster.id_of_group? hg
  have hg' : (c.land g.id).roster.group? g.id = some g := hg
  have htaken : (c.land g.id).release g.id none = (c.land g.id).setGroup g.clear := by
    simp only [release, hg']
  cases refusal with
  | none =>
    rw [htaken, Custody.release, Option.toList_none, List.flatMap_nil, List.append_nil]
    rfl
  | some cause =>
    have hreport := List.filter_eq_self.2 (g.outlet.isRefusal_report g.key g.messages cause)
    have hhistory : ((c.land g.id).release g.id (some cause)).history =
        c.history ++ [g.outlet.refused g.key g.messages cause] := by
      rw [release_refused hg', htaken]
      rfl
    rw [custody_append (c := c) (release_settings hg' _) hhistory, Outlet.handed_refused, hreport,
      Outlet.delivery_refused, List.append_nil, release_roster hg', release_inFlight hg',
      Custody.release, Option.toList_some, List.flatMap_singleton]
    rfl

end Steps

/-! ### Making room for a group -/

/-- A completed group is evicted, for its key is wanted again. -/
def vacate (c : Coordinator) (g : Group) : Coordinator :=
  (c.record (.replaced g.key g.id)).evict g.key g.id

theorem vacate_deed (c : Coordinator) (g : Group) : Deed c.custody (c.vacate g).custody := by
  have hcustody : (c.vacate g).custody =
      {c.custody with roster := (c.roster.remove g.key g.id).2} := custody_quiet rfl rfl rfl
  rw [hcustody]
  exact .evicted g.key g.id

theorem registry_vacate {c : Coordinator} {g : Group}
    (hk : c.roster.registry.get? g.key = some g.id) :
    (c.vacate g).roster.registry.get? g.key = none :=
  (Registry.get?_remove ..).trans (if_pos ⟨rfl, hk⟩)

/-! ### What operations do to the custody -/

section Operations
variable {kept : Nat → Prop} {c : Coordinator} (h : Intact kept c.custody)
include h

/-- A key is free, or some group of that key is registered under it. -/
theorem group?_cases (key : String) :
    (c.group? key = none ∧ c.roster.registry.get? key = none) ∨
      ∃ g, c.group? key = some g ∧ c.roster.registry.get? key = some g.id ∧
        c.roster.group? g.id = some g ∧ g.key = key := by
  cases hr : c.roster.registry.get? key with
  | none => exact .inl ⟨by rw [group?, Roster.registered?, hr]; rfl, rfl⟩
  | some id =>
    obtain ⟨g, hg, hkey⟩ := h.linked.registered key id hr
    change c.roster.group? id = some g at hg
    obtain rfl : g.id = id := Roster.id_of_group? hg
    exact .inr ⟨g, by rw [group?, Roster.registered?, hr]; exact hg, rfl, hg, hkey⟩

theorem roster_group? {key : String} {g : Group} (hg : c.group? key = some g) :
    c.roster.group? g.id = some g := by
  rcases group?_cases h key with ⟨hnone, -⟩ | ⟨x, hx, -, hid, -⟩
  · rw [hnone] at hg
    cases hg
  · obtain rfl := Option.some.inj (hx.symm.trans hg)
    exact hid

/-- Two passes find the group that collects under a key, create one where there is none, or evict a
completed one and create another in its place. -/
theorem openWithin_cases (key : String) (params : Params) :
    (c.group? key = none ∧ c.roster.registry.get? key = none ∧
        ∀ passes, openWithin (passes + 2) key params c =
          some (c.make key params)) ∨
      ∃ g, c.group? key = some g ∧ c.roster.registry.get? key = some g.id ∧
        c.roster.group? g.id = some g ∧ g.key = key ∧
        ((g.completed = false ∧
            ∀ passes, openWithin (passes + 2) key params c = some (.handed g c)) ∨
          (g.completed = true ∧
            ∀ passes, openWithin (passes + 2) key params c = some ((c.vacate g).make key params))) := by
  rcases group?_cases h key with ⟨hnone, hk⟩ | ⟨g, hg, hk, hgid, rfl⟩
  · refine .inl ⟨hnone, hk, fun passes => ?_⟩
    simp only [openWithin, hnone]
  · refine .inr ⟨g, hg, hk, hgid, rfl, ?_⟩
    cases hc : g.completed with
    | false =>
      refine .inl ⟨rfl, fun passes => ?_⟩
      simp only [openWithin, hg, hc, Bool.false_eq_true, if_false]
    | true =>
      refine .inr ⟨rfl, fun passes => ?_⟩
      have hnone : ((c.record (.replaced g.key g.id)).evict g.key g.id).group? g.key = none := by
        rw [group?, Roster.registered?]
        show ((c.vacate g).roster.registry.get? g.key).bind _ = none
        rw [registry_vacate hk]
        rfl
      simp only [openWithin, hg, hc, if_true, hnone]
      rfl

omit h in
theorem openGroup_of_handed {key : String} {params : Params} {g : Group} {b : Coordinator}
    (hopen : openWithin 2 key params c = some (.handed g b)) :
    c.openGroup key params = (g, b) := by
  simp only [openGroup, hopen]

omit h in
/-- The group that is created is new and registered. -/
theorem create_deed {b : Coordinator} (hb : Intact kept b.custody) {key : String}
    (hk : b.roster.registry.get? key = none) (params : Params) :
    Deed b.custody (b.create key params).2.custody ∧
      (b.create key params).2.roster.group? (b.newGroup key params).id =
        some (b.newGroup key params) := by
  rw [custody_create, create_roster, Roster.group?_create]
  refine ⟨.opened (g := b.newGroup key params) hk rfl rfl rfl, ?_⟩
  rw [show b.roster.group? (b.newGroup key params).id = none from
    hb.linked.numbered.group?_nextId]
  simp

/-- Opening ends with a group that collects, be it that a completed one had to be replaced. -/
theorem openGroup_deeds (key : String) (params : Params) :
    ∃ g b, c.openGroup key params = (g, b) ∧ Deeds c.custody b.custody ∧
      b.roster.group? g.id = some g ∧ g.completed = false := by
  rcases openWithin_cases h key params with ⟨-, hk, hopen⟩ |
    ⟨g, -, hk, hgid, rfl, ⟨hc, hopen⟩ | ⟨-, hopen⟩⟩
  · obtain ⟨hcreated, hnew⟩ := create_deed h hk params
    exact ⟨_, _, (openGroup_of_make (hopen 0)).trans (by rw [← create_fst]), .single hcreated,
      hnew, rfl⟩
  · exact ⟨g, c, openGroup_of_handed (hopen 0), .refl, hgid, hc⟩
  · have hvacated := vacate_deed c g
    obtain ⟨hcreated, hnew⟩ :=
      create_deed (hvacated.edit.intact h) (b := c.vacate g) (registry_vacate hk) params
    exact ⟨_, _, (openGroup_of_make (hopen 0)).trans (by rw [← create_fst]),
      .tail (.single hvacated) hcreated, hnew, rfl⟩

omit h in
/-- A call on a group that does not clear it. -/
theorem does_edit {g next : Group} {x : Group.Call × Group.Answer}
    (hg : c.roster.group? g.id = some g) (hx : Group.Does g x next) (hclear : x.1.isClear = false) :
    Edit c.custody (c.custody.update next) :=
  .changed hg hx.blank fun hc => hx.eq_of_completed hc hclear

omit h in
/-- A call on a group that does not claim it either. -/
theorem does_deed {g next : Group} {x : Group.Call × Group.Answer}
    (hg : c.roster.group? g.id = some g) (hx : Group.Does g x next) (hclear : x.1.isClear = false)
    (hclaim : Group.isClaim x = false) : Deed c.custody (c.custody.update next) :=
  .taken hg hx.blank (hx.completed_eq hclaim) fun hc => hx.eq_of_completed hc hclear

theorem submit_deeds (call : Call) (key : String) (m : Message) (params : Params) :
    Deeds c.custody (c.submit call key m params).custody := by
  obtain ⟨g, b, hopen, hb, hg, hc⟩ := openGroup_deeds h key params
  refine hb.trans ?_
  have hoffered : ∀ x, ((b.record (.offered g m b.now)).setGroup x).custody = b.custody.update x :=
    fun x => custody_quiet rfl rfl rfl
  rcases Group.offer_cases g b.now m with ⟨hlate, -⟩ | ⟨-, -, ho⟩ | ⟨-, -, ho⟩ | ⟨trigger, -, -, ho⟩
  · rw [hc] at hlate
    cases hlate
  · simp only [submit, place, hopen, ho, settleAdmission]
    rw [custody_record rfl, custody_fault rfl, custody_record rfl, hoffered]
    exact .single (.taken hg rfl rfl fun _ => rfl)
  · simp only [submit, place, hopen, ho, settleAdmission]
    rw [custody_record rfl, hoffered]
    exact .single (.taken (x := g.push m) hg rfl rfl fun hcompleted => by simp [hc] at hcompleted)
  · have hsubmit : c.submit call key m params =
        (b.record (.offered g m b.now)).finalize (g.push m) trigger (.admission call) := by
      simp only [submit, place, hopen, ho, settleAdmission]
      rfl
    rw [hsubmit, custody_finalize, custody_record rfl]
    exact .single (.claimed (g := g) (x := (g.push m).sealed) hg rfl hc rfl trigger rfl)

theorem submitCorrelated_deeds (call : Call) (m : Message) (params : Params) :
    Deeds c.custody (c.submitCorrelated call m params).custody := by
  simp only [submitCorrelated, placeCorrelated]
  cases m.correlationKey? c.settings.aggregator with
  | some key => exact submit_deeds h call key m params
  | none =>
    simp only [settleAdmission]
    rw [custody_record rfl, custody_record rfl]

omit h in
/-- A group that is claimed is finalized. -/
theorem forced_deed {g : Group} (hg : c.roster.group? g.id = some g) (hc : g.completed = false)
    {caller : Caller} (hcaller : caller.isSingle = true) :
    Deed c.custody (c.forced g caller).custody := by
  rw [forced, custody_finalize, custody_remark]
  exact .claimed (g := g) (x := g.sealed) hg rfl hc rfl _ hcaller

theorem force_deeds (call : Call) (key : String) : Deeds c.custody (c.force call key).custody := by
  rcases force_cases c call key with ⟨-, hmissing⟩ | ⟨g, hg, ⟨-, hlate⟩ | ⟨hc, hclaim⟩⟩
  · rw [hmissing, custody_record rfl, custody_record rfl]
  · rw [hlate, custody_record rfl]
  · rw [hclaim]
    exact .single (forced_deed (roster_group? h hg) hc rfl)

omit h in
theorem forceEach_deeds (call : Call) (done : Nat) (rest : List Nat) :
    Deeds c.custody (forceEach call done rest c).custody := by
  rcases forceEach_eq c call done rest with ⟨-, hanswer⟩ | ⟨_, x, left, -, -, hx, hc, hclaim⟩
  · rw [hanswer, custody_record rfl]
  · rw [hclaim]
    exact .single (forced_deed hx hc rfl)

theorem expire_deeds (d : Deadline) : Deeds c.custody (c.expire d).custody := by
  rcases expire_cases c d with hstale | ⟨g, hg, -, ⟨-, hlate⟩ | ⟨hc, hclaim⟩⟩
  · rw [hstale, custody_record rfl]
  · rw [hlate]
  · rw [hclaim]
    exact .single (forced_deed (roster_group? h hg) hc rfl)

omit h in
theorem resume_deeds (trigger : Trigger) {caller : Caller} (hcaller : caller.isSingle = true) :
    Deeds c.custody (c.resume trigger caller).custody := by
  cases caller with
  | admission call => rw [resume, custody_record rfl]
  | siblings => cases hcaller
  | force call => rw [resume, custody_record rfl]
  | drain call done rest => exact forceEach_deeds call (done + 1) rest
  | expiry => exact .refl

/-- When a sink has answered, its group is released and whoever waits goes on. -/
theorem conclude_eq {f : Finalization} (hf : f ∈ c.inFlight) (refusal : Option String) :
    c.conclude f.group refusal =
      ((c.land f.group).release f.group refusal).resume f.result.trigger f.caller := by
  have hfound : (c.inFlight.find? fun x => x.group == f.group) = some f :=
    find?_group h.distinct hf
  simp only [conclude, hfound]
  rfl

theorem conclude_deeds {f : Finalization} (hf : f ∈ c.inFlight) {g : Group}
    (hg : c.roster.group? f.group = some g) (refusal : Option String) :
    Deeds (c.custody.release g refusal) (c.conclude f.group refusal).custody := by
  rw [conclude_eq h hf, ← custody_release hg]
  exact resume_deeds f.result.trigger (h.single f hf)

end Operations

end Coordinator

/-! ### Acts -/

/-- One thing that anybody does. -/
inductive Act where
  | move (x : Move)
  /-- A group is called by somebody whom it was handed to. -/
  | call (id : Nat) (time : Instant) (asked : Group.Call)
  /-- A key is evicted in the registry. -/
  | evict (key : String) (id : Nat)
  /-- The scheduler is asked for a deadline. -/
  | schedule (d : Deadline)

namespace Act
open Coordinator

def apply (c : Coordinator) : Act → Coordinator
  | .move x => x.apply c
  | .call id time asked =>
    match c.roster.group? id with
    | some g => c.setGroup (g.call time asked).2
    | none => c
  | .evict key id => c.evict key id
  | .schedule d => c.schedule d

/-- Whether an act clears the group of that number. -/
def clears (id : Nat) : Act → Bool
  | .call called _ asked => called == id && asked.isClear
  | _ => false

/-- The finalization whose sink answers, and what it answers. -/
def answered? (c : Coordinator) : Act → Option (Finalization × Option String)
  | .move (.conclude id refusal) =>
    (c.inFlight.find? fun f => f.group == id).map fun f => (f, refusal)
  | _ => none

/-- Whether an act completes a group without finalizing it. -/
def claims (c : Coordinator) : Act → Bool
  | .call id time asked =>
    (c.roster.group? id).any fun g => Group.isClaim (asked, (g.call time asked).1)
  | _ => false

/-- What an act comes to, told by the steps that it may take: it takes some, or a sink answers and
it takes some, or it clears a group. -/
def Comes (R : Custody → Custody → Prop) (c : Coordinator) (act : Act) : Prop :=
  (act.answered? c = none ∧ Relation.ReflTransGen R c.custody (act.apply c).custody) ∨
    (∃ f refusal g, act.answered? c = some (f, refusal) ∧ f ∈ c.inFlight ∧
      c.roster.group? f.group = some g ∧
      Relation.ReflTransGen R (c.custody.release g refusal) (act.apply c).custody) ∨
    ∃ g, act.answered? c = none ∧ act.clears g.id = true ∧ c.roster.group? g.id = some g ∧
      (act.apply c).custody = c.custody.update g.clear

variable {kept : Nat → Prop} {c : Coordinator}

/-- Only a sink in flight answers. -/
theorem of_answered? {act : Act} {f : Finalization} {refusal : Option String}
    (h : act.answered? c = some (f, refusal)) :
    act = .move (.conclude f.group refusal) ∧ f ∈ c.inFlight := by
  obtain ⟨id, cause, rfl⟩ : ∃ id cause, act = .move (.conclude id cause) := by
    cases act with
    | move x =>
      cases x with
      | conclude id cause => exact ⟨id, cause, rfl⟩
      | _ => cases h
    | _ => cases h
  obtain ⟨x, hx, heq⟩ := Option.map_eq_some_iff.1 h
  obtain ⟨rfl, rfl⟩ := Prod.mk.inj heq
  obtain rfl : x.group = id := by simpa using List.find?_some hx
  exact ⟨rfl, List.mem_of_find?_eq_some hx⟩

/-- Moves are deeds, but for sinks that answer. -/
theorem move_deeds (h : Intact kept c.custody) (x : Move)
    (hx : (Act.move x).answered? c = none) : Deeds c.custody (x.apply c).custody := by
  cases x with
  | submit call key m params => exact submit_deeds h call key m params
  | submitCorrelated call m params => exact submitCorrelated_deeds h call m params
  | openGroup key params =>
    obtain ⟨g, b, hopen, hb, -⟩ := openGroup_deeds h key params
    simp only [Move.apply, hopen]
    exact hb
  | force call key => exact force_deeds h call key
  | drain call order => exact forceEach_deeds call 0 _
  | advance ms =>
    rw [Move.apply, custody_advance]
  | expire d =>
    simp only [Move.apply]
    split
    · exact expire_deeds (c := c.take d) h d
    · exact .refl
  | conclude id refusal =>
    have hnone : (c.inFlight.find? fun f => f.group == id) = none :=
      Option.map_eq_none_iff.1 hx
    simp only [Move.apply, conclude, hnone]
    exact .refl
  | stop => exact .refl
  | add id m =>
    simp only [Move.apply]
    cases hg : c.roster.group? id with
    | none => exact .refl
    | some g =>
      obtain rfl : g.id = id := Roster.id_of_group? hg
      exact .single (does_deed hg (Group.add_does g m) rfl (by cases (g.add m).1 <;> rfl))

/-- A move comes to deeds, after a sink's answer if it is one. -/
theorem move_comes (h : Intact kept c.custody) (x : Move) : Comes Deed c (.move x) := by
  cases hx : (Act.move x).answered? c with
  | none => exact .inl ⟨hx, move_deeds h x hx⟩
  | some answer =>
    obtain ⟨f, refusal⟩ := answer
    obtain ⟨heq, hf⟩ := of_answered? hx
    obtain ⟨g, hg, -⟩ := h.carried f hf
    refine .inr (.inl ⟨f, refusal, g, hx, hf, hg, ?_⟩)
    rw [heq]
    exact conclude_deeds h hf hg refusal

/-- A call on a group clears it or is a single step. -/
theorem call_comes {R : Custody → Custody → Prop} (id : Nat) (time : Instant) (asked : Group.Call)
    (hstep : ∀ {g next}, c.roster.group? id = some g → c.roster.group? g.id = some g →
      Group.Does g (asked, (g.call time asked).1) next → asked.isClear = false →
      R c.custody (c.custody.update next)) : Comes R c (.call id time asked) := by
  cases hg : c.roster.group? id with
  | none =>
    refine .inl ⟨rfl, ?_⟩
    simp only [apply, hg]
    exact .refl
  | some g =>
    obtain rfl : g.id = id := Roster.id_of_group? hg
    have happly : (Act.call g.id time asked).apply c = c.setGroup (g.call time asked).2 := by
      simp only [apply, hg]
    cases hclear : asked.isClear with
    | true =>
      refine .inr (.inr ⟨g, rfl, by simp [clears, hclear], hg, ?_⟩)
      rw [happly]
      cases asked with
      | clear => rfl
      | _ => cases hclear
    | false =>
      refine .inl ⟨rfl, ?_⟩
      rw [happly]
      exact .single (hstep hg hg (Group.call_does g time asked) hclear)

/-- An act that claims no group by itself comes to deeds. -/
theorem comes_deeds (h : Intact kept c.custody) {act : Act} (hclaims : act.claims c = false) :
    Comes Deed c act := by
  cases act with
  | move x => exact move_comes h x
  | call id time asked =>
    refine call_comes id time asked fun hid hg hx hclear => does_deed hg hx hclear ?_
    simpa only [claims, hid, Option.any_some] using hclaims
  | evict key id => exact .inl ⟨rfl, .single (.evicted (d := c.custody) key id)⟩
  | schedule d =>
    refine .inl ⟨rfl, ?_⟩
    rw [apply, custody_schedule]

theorem Comes.mono {R S : Custody → Custody → Prop} {act : Act} (h : Comes R c act)
    (hRS : ∀ {d e}, R d e → S d e) : Comes S c act := by
  have hsteps : ∀ {d e}, Relation.ReflTransGen R d e → Relation.ReflTransGen S d e :=
    fun h => keeps (P := Relation.ReflTransGen S _) h (fun hx hd => hd.tail (hRS hx)) .refl
  rcases h with ⟨hnone, hs⟩ | ⟨f, refusal, g, hsome, hf, hg, hs⟩ | hclear
  · exact .inl ⟨hnone, hsteps hs⟩
  · exact .inr (.inl ⟨f, refusal, g, hsome, hf, hg, hsteps hs⟩)
  · exact .inr (.inr hclear)

/-- An act is edits of the custody, the answer of a sink, or the clearing of a group. -/
theorem apply_custody (h : Intact kept c.custody) (act : Act) : Comes Edit c act := by
  cases hclaims : act.claims c with
  | false => exact (comes_deeds h hclaims).mono Deed.edit
  | true =>
    cases act with
    | call id time asked =>
      exact call_comes id time asked fun _ hg hx hclear => does_edit hg hx hclear
    | _ => cases hclaims

/-- Custody stays intact, but for groups that are cleared. -/
theorem intact (h : Intact kept c.custody) {act : Act}
    (hkept : ∀ id, kept id → act.clears id = false) : Intact kept (act.apply c).custody := by
  rcases act.apply_custody h with ⟨-, he⟩ | ⟨f, refusal, g, -, hf, hg, he⟩ | ⟨g, -, hclears, hg, he⟩
  · exact Custody.keeps he Edit.intact h
  · have hself : c.roster.group? g.id = some g := (Roster.id_of_group? hg).symm ▸ hg
    exact Custody.keeps he Edit.intact (h.release hself refusal)
  · rw [he]
    refine h.clear hg fun hk => ?_
    rw [hkept g.id hk] at hclears
    cases hclears

/-- What each step keeps, each answer of a sink and each clearing, acts that come to such steps
keep. -/
theorem Comes.keeps {R : Custody → Custody → Prop} {P : Custody → Prop} {act : Act}
    (hcomes : Comes R c act) (h : Intact (fun _ => False) c.custody)
    (hedit : ∀ {d e}, R d e → Edit d e)
    (hstep : ∀ {d e}, Intact (fun _ => False) d → R d e → P d → P e)
    (hrelease : ∀ {d g} refusal, Intact (fun _ => False) d → d.roster.group? g.id = some g →
      P d → P (d.release g refusal))
    (hclear : ∀ {d g}, d.roster.group? g.id = some g → P d → P (d.update g.clear))
    (hp : P c.custody) : P (act.apply c).custody := by
  have hsteps : ∀ {d e}, Relation.ReflTransGen R d e → Intact (fun _ => False) d → P d → P e :=
    fun hde hd hpd => (Custody.keeps (P := fun d => Intact (fun _ => False) d ∧ P d) hde
      (fun hx hd => ⟨(hedit hx).intact hd.1, hstep hd.1 hx hd.2⟩) ⟨hd, hpd⟩).2
  rcases hcomes with ⟨-, hs⟩ | ⟨f, refusal, g, -, -, hg, hs⟩ | ⟨g, -, -, hg, he⟩
  · exact hsteps hs h hp
  · have hself : c.roster.group? g.id = some g := (Roster.id_of_group? hg).symm ▸ hg
    exact hsteps hs (h.release hself refusal) (hrelease refusal h hself hp)
  · rw [he]
    exact hclear (Roster.id_of_group? hg ▸ hg) hp

/-- A finalization that is over stays so. -/
theorem over_apply (h : Intact (fun _ => False) c.custody) {f : Finalization}
    (hf : Over f c.custody) (act : Act) : Over f (act.apply c).custody :=
  (act.apply_custody h).keeps h id (fun hd he hf => hf.edit hd.linked he)
    (fun refusal hd hg hf => hf.release hd hg refusal) (fun hg hf => hf.clear hg) hf

theorem outlet (h : Intact kept c.custody) (act : Act) : (act.apply c).outlet = c.outlet := by
  rcases act.apply_custody h with ⟨-, he⟩ | ⟨x, refusal, g, -, -, -, he⟩ | ⟨g, -, -, -, he⟩
  · exact Edits.outlet he
  · exact Edits.outlet he
  · exact congrArg Custody.outlet he

end Act

namespace Coordinator
variable {kept : Nat → Prop} {c : Coordinator} {acts : List Act}

/-- The coordinator after some acts. -/
def after (c : Coordinator) : List Act → Coordinator
  | [] => c
  | act :: rest => after (act.apply c) rest

theorem intact_start (kept : Nat → Prop) (settings : Settings) (metrics : Bool) (now : Instant) :
    Intact kept (start settings metrics now).custody :=
  ⟨⟨rfl, fun _ _ h => absurd h (by simp [start, custody, Roster.empty, Registry.get?,
    Registry.empty, Bag.get?, Bag.empty, Entries.get?]), fun _ h => absurd h List.not_mem_nil⟩,
    ⟨fun _ _ => rfl, fun _ h => absurd h List.not_mem_nil⟩,
    fun _ h => absurd h List.not_mem_nil, List.nodup_nil, fun _ h => absurd h List.not_mem_nil⟩

theorem after_intact (h : Intact kept c.custody)
    (hkept : ∀ act ∈ acts, ∀ id, kept id → act.clears id = false) :
    Intact kept (after c acts).custody := by
  induction acts generalizing c with
  | nil => exact h
  | cons act rest ih =>
    exact ih (Act.intact h (hkept act List.mem_cons_self)) fun x hx =>
      hkept x (List.mem_cons_of_mem act hx)

/-- What every act keeps, a run keeps; nobody needs to keep from clearing anything for that. -/
theorem after_keeps {P : Coordinator → Prop}
    (hP : ∀ {c} (act : Act), Intact (fun _ => False) c.custody → P c → P (act.apply c))
    (h : Intact (fun _ => False) c.custody) (hp : P c) (acts : List Act) : P (after c acts) := by
  induction acts generalizing c with
  | nil => exact hp
  | cons act rest ih => exact ih (Act.intact h fun _ hk => hk.elim) (hP act h hp)

theorem after_outlet (h : Intact (fun _ => False) c.custody) (acts : List Act) :
    (after c acts).outlet = c.outlet :=
  after_keeps (P := fun d => d.outlet = c.outlet) (fun act h hd => (act.outlet h).trans hd) h rfl
    acts

theorem after_over (h : Intact (fun _ => False) c.custody) {f : Finalization}
    (hf : Over f c.custody) (acts : List Act) : Over f (after c acts).custody :=
  after_keeps (P := fun d => Over f d.custody) (fun act h hf => Act.over_apply h hf act) h hf acts

end Coordinator

end Aggregation
