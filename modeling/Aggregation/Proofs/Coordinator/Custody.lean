import Aggregation.Proofs.Calls
import Aggregation.Proofs.Coordinator.Deliveries
import Mathlib.Logic.Relation

/-! Coordinators whose groups are called behind their back.

Whoever was handed a group may call it himself: he may complete it without finalizing it, so that a
registered group need not be collecting. The custody of a coordinator is what such calls leave
intact, namely where each group is, together with what was handed to the sink and what the fault
sink was told of sinks that refused. Every operation is a sequence of edits of the custody, but for
a sink that answers (`Act.apply_custody`), and each edit keeps a finalization in flight that of one
completed group, which was handed over once, is not registered any more and still holds what it was
handed over with (`Custody.Edit.intact`). -/
namespace Aggregation

/-- What an event hands the fault sink. -/
def Event.handed? : Event → Option (Message × Fault)
  | .faulted m fault => some (m, fault)
  | _ => none

/-- Whether a fault is that a sink refused. -/
def Fault.isRefusal : Fault → Bool
  | .sinkFailed .. => true
  | _ => false

/-- What the fault sink is told when a sink refuses messages: it gets the last one of them, if
there is one, and if there is a fault sink. -/
def Outlet.report (outlet : Outlet) (key : String) (messages : List Message) (cause : String) :
    List (Message × Fault) :=
  if outlet.hasFaultSink then
    messages.getLast?.toList.map fun m => (m, .sinkFailed key outlet.sink cause [])
  else []

/-- What is left of a finalization when its group has been cleared. -/
def Finalization.emptied (f : Finalization) : Finalization :=
  {f with result := {f.result with messages := []}}

/-- Where groups are, what was handed to the sink, and what the fault sink was told of sinks that
refused. -/
structure Custody where
  roster : Roster
  inFlight : List Finalization
  /-- Where the groups go. -/
  outlet : Outlet
  deliveries : List (Nat × Result)
  refusals : List (Message × Fault)

namespace Custody

/-- What was handed to the sink of one group. -/
def deliveriesOf (d : Custody) (id : Nat) : List Result :=
  (d.deliveries.filter fun x => x.1 == id).map Prod.snd

def update (d : Custody) (g : Group) : Custody :=
  {d with roster := d.roster.update g}

/-- A group is evicted and handed over in its completed form. -/
def claim (d : Custody) (g : Group) (trigger : Trigger) (caller : Caller) : Custody :=
  {d with
    roster := d.roster.retire g
    inFlight := ⟨g.id, g.outlet, Coordinator.resultOf g trigger, caller⟩ :: d.inFlight
    deliveries := d.deliveries ++ [(g.id, Coordinator.resultOf g trigger)]}

/-- The sink of a group has answered. -/
def release (d : Custody) (g : Group) (refusal : Option String) : Custody :=
  {d with
    roster := d.roster.update g.clear
    inFlight := d.inFlight.eraseP fun f => f.group == g.id
    refusals := d.refusals ++ refusal.toList.flatMap (g.outlet.report g.key g.messages)}

/-- One thing that happens to groups, short of their being cleared. -/
inductive Edit : Custody → Custody → Prop where
  | opened {d : Custody} {g : Group} (hk : d.roster.registry.get? g.key = none)
      (hid : g.id = d.roster.nextId) (hout : g.outlet = d.outlet) (hc : g.completed = false) :
      Edit d {d with roster := d.roster.create g.key g}
  /-- Something other than clearing is done to a group. -/
  | changed {d : Custody} {g x : Group} (hg : d.roster.group? g.id = some g)
      (hx : x.blank = g.blank) (hc : g.completed = true → x = g) : Edit d (d.update x)
  | evicted {d : Custody} (key : String) (id : Nat) :
      Edit d {d with roster := (d.roster.remove key id).2}
  | claimed {d : Custody} {g x : Group} (hg : d.roster.group? g.id = some g)
      (hx : x.blank = g.blank) (hopen : g.completed = false) (hc : x.completed = true)
      (trigger : Trigger) {caller : Caller} (hcaller : caller.isSingle = true) :
      Edit d (d.claim x trigger caller)

abbrev Edits : Custody → Custody → Prop :=
  Relation.ReflTransGen Edit

/-- One thing that an operation does: it completes no group but to finalize it. -/
inductive Deed : Custody → Custody → Prop where
  | opened {d : Custody} {g : Group} (hk : d.roster.registry.get? g.key = none)
      (hid : g.id = d.roster.nextId) (hout : g.outlet = d.outlet) (hc : g.completed = false) :
      Deed d {d with roster := d.roster.create g.key g}
  /-- Something is done to a group that goes on collecting, and nothing to one that is completed. -/
  | taken {d : Custody} {g x : Group} (hg : d.roster.group? g.id = some g)
      (hx : x.blank = g.blank) (hopen : x.completed = g.completed)
      (hc : g.completed = true → x = g) : Deed d (d.update x)
  | evicted {d : Custody} (key : String) (id : Nat) :
      Deed d {d with roster := (d.roster.remove key id).2}
  | claimed {d : Custody} {g x : Group} (hg : d.roster.group? g.id = some g)
      (hx : x.blank = g.blank) (hopen : g.completed = false) (hc : x.completed = true)
      (trigger : Trigger) {caller : Caller} (hcaller : caller.isSingle = true) :
      Deed d (d.claim x trigger caller)

abbrev Deeds : Custody → Custody → Prop :=
  Relation.ReflTransGen Deed

theorem Deed.edit {d e : Custody} (h : Deed d e) : Edit d e := by
  cases h with
  | opened hk hid hout hc => exact .opened hk hid hout hc
  | taken hg hx _ hc => exact .changed hg hx hc
  | evicted key id => exact .evicted key id
  | claimed hg hx hopen hc trigger hcaller => exact .claimed hg hx hopen hc trigger hcaller

theorem Edit.refusals {d e : Custody} (h : Edit d e) : e.refusals = d.refusals := by
  cases h <;> rfl

theorem Edit.outlet {d e : Custody} (h : Edit d e) : e.outlet = d.outlet := by
  cases h <;> rfl

/-- What every step keeps, steps one after the other keep. -/
theorem keeps {R : Custody → Custody → Prop} {P : Custody → Prop} {d e : Custody}
    (h : Relation.ReflTransGen R d e) (hP : ∀ {d e}, R d e → P d → P e) (hd : P d) : P e := by
  induction h with
  | refl => exact hd
  | tail _ he ih => exact hP he ih

theorem Deeds.edits {d e : Custody} (h : Deeds d e) : Edits d e :=
  keeps (P := Edits d) h (fun hx hd => hd.tail hx.edit) .refl

theorem Edits.refusals {d e : Custody} (h : Edits d e) : e.refusals = d.refusals :=
  keeps (P := fun e => e.refusals = d.refusals) h (fun hx hd => hx.refusals.trans hd) rfl

theorem Edits.outlet {d e : Custody} (h : Edits d e) : e.outlet = d.outlet :=
  keeps (P := fun e => e.outlet = d.outlet) h (fun hx hd => hx.outlet.trans hd) rfl

/-! ### Custody that is intact -/

/-- Groups are numbered, are found under their own keys only, and go where the others go. -/
structure Linked (d : Custody) : Prop where
  numbered : d.roster.Numbered
  registered : ∀ key id, d.roster.registry.get? key = some id →
    ∃ g, d.roster.group? id = some g ∧ g.key = key
  outlets : ∀ g ∈ d.roster.groups, g.outlet = d.outlet

/-- A finalization is that of a completed group which is not registered; that group still holds what
it was handed over with, if it is one of those that are `kept` from being cleared. -/
def Holds (kept : Nat → Prop) (r : Roster) (f : Finalization) : Prop :=
  ∃ g, r.group? f.group = some g ∧ g.completed = true ∧ f.outlet = g.outlet ∧
    f.result.key = g.key ∧ (kept f.group → f.result.messages = g.messages) ∧
    ∀ key, r.registry.get? key ≠ some f.group

/-- A group that was not completed was not handed over, and one that is in flight was handed over
once. -/
structure Tallied (d : Custody) : Prop where
  unclaimed : ∀ id, (∀ g, d.roster.group? id = some g → g.completed = false) →
    d.deliveriesOf id = []
  claimed : ∀ f ∈ d.inFlight, d.deliveriesOf f.group = [f.result]

structure Intact (kept : Nat → Prop) (d : Custody) : Prop where
  linked : Linked d
  tallied : Tallied d
  carried : ∀ f ∈ d.inFlight, Holds kept d.roster f
  /-- A group is in flight at most once. -/
  distinct : (d.inFlight.map Finalization.group).Nodup
  single : ∀ f ∈ d.inFlight, f.caller.isSingle = true

section Blank
variable {g x : Group} (h : x.blank = g.blank)
include h

theorem id_of_blank : x.id = g.id := (congrArg Group.id h :)
theorem key_of_blank : x.key = g.key := (congrArg Group.key h :)
theorem outlet_of_blank : x.outlet = g.outlet := (congrArg Group.outlet h :)

end Blank

namespace Linked
variable {d : Custody} {g x : Group}

theorem opened (h : Linked d) (hk : d.roster.registry.get? g.key = none)
    (hid : g.id = d.roster.nextId) (hout : g.outlet = d.outlet) :
    Linked {d with roster := d.roster.create g.key g} := by
  refine ⟨h.numbered.create g.key hid, fun key id hr => ?_, fun y hy => ?_⟩
  · change (d.roster.registry.getOrCreate g.key g.id).2.get? key = some id at hr
    rw [Registry.get?_getOrCreate hk] at hr
    show ∃ y, (d.roster.create g.key g).group? id = some y ∧ y.key = key
    rw [Roster.group?_create]
    split at hr
    · next hkey =>
      obtain rfl := Option.some.inj hr
      exact ⟨g, by rw [hid, h.numbered.group?_nextId, ← hid]; simp, hkey.symm⟩
    · obtain ⟨y, hy, hykey⟩ := h.registered key id hr
      exact ⟨y, by simp [hy], hykey⟩
  · rcases List.mem_append.1 hy with hy | hy
    · exact h.outlets y hy
    · rw [List.mem_singleton.1 hy]
      exact hout

theorem update (h : Linked d) (hg : d.roster.group? g.id = some g) (hx : x.blank = g.blank) :
    Linked (d.update x) := by
  refine ⟨h.numbered.update x, fun key id hr => ?_, fun y hy => ?_⟩
  · obtain ⟨y, hy, hykey⟩ := h.registered key id hr
    show ∃ y, (d.roster.update x).group? id = some y ∧ y.key = key
    rw [Roster.group?_changed hg (id_of_blank hx)]
    by_cases hid : id = g.id
    · rw [hid, hg] at hy
      obtain rfl := Option.some.inj hy
      exact ⟨x, if_pos hid, (key_of_blank hx).trans hykey⟩
    · exact ⟨y, by rw [if_neg hid, hy], hykey⟩
  · rcases Roster.mem_update.1 hy with ⟨hy, -⟩ | ⟨rfl, -⟩
    · exact h.outlets y hy
    · exact (outlet_of_blank hx).trans (h.outlets g (Roster.mem_of_group? hg))

theorem remove (h : Linked d) (key : String) (id : Nat) :
    Linked {d with roster := (d.roster.remove key id).2} := by
  refine ⟨h.numbered, fun other held hr => ?_, h.outlets⟩
  change (d.roster.registry.remove key id).2.get? other = some held at hr
  rw [Registry.get?_remove] at hr
  split at hr
  · cases hr
  · exact h.registered other held hr

/-- A group that is evicted under its key is not registered any more. -/
theorem away (h : Linked d) (hg : d.roster.group? g.id = some g) (other : String) :
    (d.roster.registry.remove g.key g.id).2.get? other ≠ some g.id := by
  rw [Registry.get?_remove]
  split
  · exact fun h => nomatch h
  · next hne =>
    intro hr
    obtain ⟨y, hy, hykey⟩ := h.registered other g.id hr
    obtain rfl := Option.some.inj (hy.symm.trans hg)
    exact hne ⟨hykey.symm, hykey ▸ hr⟩

end Linked

theorem deliveriesOf_claim (d : Custody) (g : Group) (trigger : Trigger) (caller : Caller)
    (id : Nat) : (d.claim g trigger caller).deliveriesOf id =
      d.deliveriesOf id ++ if g.id = id then [Coordinator.resultOf g trigger] else [] := by
  simp only [deliveriesOf, claim, List.filter_append, List.map_append]
  congr 1
  by_cases hid : g.id = id <;> simp [hid]

namespace Tallied
variable {d : Custody} {g x : Group}

theorem opened (h : Tallied d) (key : String) (g : Group) :
    Tallied {d with roster := d.roster.create key g} := by
  refine ⟨fun id hid => h.unclaimed id fun y hy => hid y ?_, h.claimed⟩
  show (d.roster.create key g).group? id = some y
  rw [Roster.group?_create, hy]
  rfl

theorem update (h : Tallied d) (hg : d.roster.group? g.id = some g) (hid : x.id = g.id)
    (hc : g.completed = true → x.completed = true) : Tallied (d.update x) := by
  refine ⟨fun id hopen => h.unclaimed id fun y hy => ?_, h.claimed⟩
  by_cases hsame : id = g.id
  · obtain rfl := Option.some.inj ((hsame ▸ hy).symm.trans hg)
    have hx := hopen x ((Roster.group?_changed hg hid id).trans (if_pos hsame))
    cases hyc : y.completed with
    | false => rfl
    | true =>
      rw [hc hyc] at hx
      cases hx
  · exact hopen y ((Roster.group?_changed hg hid id).trans ((if_neg hsame).trans hy))

/-- A group that is claimed had not been handed over. -/
theorem claim (h : Tallied d) (hg : d.roster.group? g.id = some g) (hid : x.id = g.id)
    (hopen : g.completed = false) (hc : x.completed = true)
    (hne : ∀ f ∈ d.inFlight, x.id ≠ f.group) (trigger : Trigger) (caller : Caller) :
    Tallied (d.claim x trigger caller) := by
  have hnone : d.deliveriesOf x.id = [] := h.unclaimed x.id fun y hy => by
    obtain rfl := Option.some.inj ((hid ▸ hy).symm.trans hg)
    exact hopen
  refine ⟨fun id hfree => ?_, fun f hf => ?_⟩
  · have hother : ¬ x.id = id := fun e => by
      have hx := hfree x ((Roster.group?_changed hg hid id).trans (if_pos (e.symm.trans hid)))
      rw [hc] at hx
      cases hx
    rw [deliveriesOf_claim, if_neg hother, List.append_nil]
    exact (h.update hg hid fun _ => hc).unclaimed id hfree
  · rw [deliveriesOf_claim]
    rcases List.mem_cons.1 hf with rfl | hf
    · rw [hnone, if_pos rfl]
      rfl
    · rw [if_neg (hne f hf), List.append_nil]
      exact h.claimed f hf

end Tallied

namespace Holds
variable {kept : Nat → Prop} {r : Roster} {f : Finalization} {g x : Group}

/-- A group that collects is none of those in flight. -/
theorem id_ne (h : Holds kept r f) (hg : r.group? g.id = some g) (hc : g.completed = false) :
    g.id ≠ f.group := by
  obtain ⟨y, hy, hyc, -⟩ := h
  intro hid
  rw [hid, hy] at hg
  rw [Option.some.inj hg, hc] at hyc
  cases hyc

theorem create (h : Holds kept r f) (hk : r.registry.get? g.key = none)
    (hg : r.group? g.id = none) : Holds kept (r.create g.key g) f := by
  obtain ⟨x, hx, hc, hout, hkey, hm, haway⟩ := h
  refine ⟨x, by rw [Roster.group?_create, hx]; rfl, hc, hout, hkey, hm, fun other hr => ?_⟩
  change (r.registry.getOrCreate g.key g.id).2.get? other = some f.group at hr
  rw [Registry.get?_getOrCreate hk] at hr
  split at hr
  · rw [Option.some.inj hr, hx] at hg
    cases hg
  · exact haway other hr

theorem update (h : Holds kept r f) (hne : x.id ≠ f.group) : Holds kept (r.update x) f := by
  obtain ⟨y, hy, hrest⟩ := h
  refine ⟨y, ?_, hrest⟩
  have hid : ¬ y.id = x.id := fun e => hne (e.symm.trans (Roster.id_of_group? hy))
  rw [Roster.group?_update, hy]
  simp [hid]

/-- A change that leaves the group completed, with the messages that it is kept with. -/
theorem change (h : Holds kept r f) (hg : r.group? g.id = some g) (hx : x.blank = g.blank)
    (hc : g.completed = true → x.completed = true ∧ (kept g.id → x.messages = g.messages)) :
    Holds kept (r.update x) f := by
  by_cases hid : f.group = g.id
  · obtain ⟨y, hy, hyc, hout, hkey, hm, haway⟩ := h
    rw [hid] at hy hm haway
    obtain rfl := Option.some.inj (hy.symm.trans hg)
    obtain ⟨hxc, hxm⟩ := hc hyc
    refine ⟨x, ?_, hxc, hout.trans (outlet_of_blank hx).symm, hkey.trans (key_of_blank hx).symm,
      fun hkept => ?_, fun key => hid ▸ haway key⟩
    · rw [Roster.group?_changed hg (id_of_blank hx), if_pos hid]
    · rw [hid] at hkept
      exact (hm hkept).trans (hxm hkept).symm
  · exact h.update fun e => hid (e.symm.trans (id_of_blank hx))

theorem remove (h : Holds kept r f) (key : String) (id : Nat) :
    Holds kept (r.remove key id).2 f := by
  obtain ⟨x, hx, hc, hout, hkey, hm, haway⟩ := h
  refine ⟨x, hx, hc, hout, hkey, hm, fun other hr => ?_⟩
  change (r.registry.remove key id).2.get? other = some f.group at hr
  rw [Registry.get?_remove] at hr
  split at hr
  · cases hr
  · exact haway other hr

end Holds

namespace Edit
variable {kept : Nat → Prop} {d e : Custody}

theorem linked (h : Edit d e) (hd : Linked d) : Linked e := by
  cases h with
  | opened hk hid hout _ => exact hd.opened hk hid hout
  | changed hg hx _ => exact hd.update hg hx
  | evicted key id => exact hd.remove key id
  | @claimed g x hg hx _ _ trigger caller _ =>
    have hevicted := (hd.update hg hx).remove x.key x.id
    exact ⟨hevicted.numbered, hevicted.registered, hevicted.outlets⟩

/-- What is in flight is held on to. -/
theorem holds (h : Edit d e) (hd : Linked d) {f : Finalization} (hf : Holds kept d.roster f) :
    Holds kept e.roster f := by
  cases h with
  | opened hk hid _ _ => exact hf.create hk (hid ▸ hd.numbered.group?_nextId)
  | changed hg hx hc =>
    refine hf.change hg hx fun hgc => ?_
    rw [hc hgc]
    exact ⟨hgc, fun _ => rfl⟩
  | evicted key id => exact hf.remove key id
  | claimed hg hx hopen _ _ _ =>
    exact (hf.update (id_of_blank hx ▸ hf.id_ne hg hopen)).remove _ _

/-- Groups are handed over that were not in flight. -/
theorem inFlight (h : Edit d e) {f : Finalization} (hf : Holds kept d.roster f)
    (hne : ∀ x ∈ d.inFlight, x.group ≠ f.group) : ∀ x ∈ e.inFlight, x.group ≠ f.group := by
  cases h with
  | opened => exact hne
  | changed => exact hne
  | evicted => exact hne
  | claimed hg hx hopen _ _ _ =>
    intro y hy
    rcases List.mem_cons.1 hy with rfl | hy
    · exact id_of_blank hx ▸ hf.id_ne hg hopen
    · exact hne y hy

/-- What was in flight is not handed over again. -/
theorem deliveriesOf (h : Edit d e) {f : Finalization} (hf : Holds kept d.roster f) :
    e.deliveriesOf f.group = d.deliveriesOf f.group := by
  cases h with
  | opened => rfl
  | changed => rfl
  | evicted => rfl
  | claimed hg hx hopen _ _ _ =>
    rw [deliveriesOf_claim, if_neg (id_of_blank hx ▸ hf.id_ne hg hopen), List.append_nil]

theorem intact (h : Edit d e) (hd : Intact kept d) : Intact kept e := by
  have hcarried : ∀ f ∈ d.inFlight, Holds kept e.roster f := fun f hf =>
    h.holds hd.linked (hd.carried f hf)
  have hlinked := h.linked hd.linked
  cases h with
  | opened => exact ⟨hlinked, hd.tallied.opened _ _, hcarried, hd.distinct, hd.single⟩
  | changed hg hx hc =>
    exact ⟨hlinked, hd.tallied.update hg (id_of_blank hx) fun hgc => hc hgc ▸ hgc, hcarried,
      hd.distinct, hd.single⟩
  | evicted => exact ⟨hlinked, ⟨hd.tallied.unclaimed, hd.tallied.claimed⟩, hcarried, hd.distinct,
      hd.single⟩
  | @claimed g x hg hx hopen hc trigger caller hcaller =>
    have hid := id_of_blank hx
    have hne : ∀ f ∈ d.inFlight, x.id ≠ f.group := fun f hf =>
      hid ▸ (hd.carried f hf).id_ne hg hopen
    refine ⟨hlinked, hd.tallied.claim hg hid hopen hc hne trigger caller, fun f hf => ?_, ?_,
      fun f hf => ?_⟩
    · rcases List.mem_cons.1 hf with rfl | hf
      · have hgx : (d.roster.update x).group? x.id = some x := by
          rw [Roster.group?_changed hg hid, if_pos hid]
        exact ⟨x, hgx, hc, rfl, rfl, fun _ => rfl, (hd.linked.update hg hx).away hgx⟩
      · exact hcarried f hf
    · refine List.nodup_cons.2 ⟨fun hmem => ?_, hd.distinct⟩
      obtain ⟨f, hf, hfg⟩ := List.mem_map.1 hmem
      exact hne f hf hfg.symm
    · rcases List.mem_cons.1 hf with rfl | hf
      · exact hcaller
      · exact hd.single f hf

end Edit

/-! ### Clearing groups -/

namespace Intact
variable {kept : Nat → Prop} {d : Custody} {g : Group}

/-- What fewer groups are kept from is kept from all the same. -/
theorem mono (h : Intact kept d) {fewer : Nat → Prop} (hfewer : ∀ id, fewer id → kept id) :
    Intact fewer d := by
  refine ⟨h.linked, h.tallied, fun f hf => ?_, h.distinct, h.single⟩
  obtain ⟨g, hg, hc, hout, hkey, hm, haway⟩ := h.carried f hf
  exact ⟨g, hg, hc, hout, hkey, fun hk => hm (hfewer _ hk), haway⟩

/-- Taking a finalization off leaves those of the other groups. -/
theorem mem_release (h : Intact kept d) (refusal : Option String) {x : Finalization} :
    x ∈ (d.release g refusal).inFlight ↔ x ∈ d.inFlight ∧ x.group ≠ g.id := by
  show x ∈ d.inFlight.eraseP (fun x => x.group == g.id) ↔ _
  rw [Coordinator.eraseP_group h.distinct]
  simp

/-- When a sink has answered, its finalization is over. -/
theorem release (h : Intact kept d) (hg : d.roster.group? g.id = some g)
    (refusal : Option String) : Intact kept (d.release g refusal) := by
  have hcleared := h.linked.update hg (x := g.clear) rfl
  have htallied := h.tallied.update hg (x := g.clear) rfl id
  refine ⟨⟨hcleared.numbered, hcleared.registered, hcleared.outlets⟩,
    ⟨htallied.unclaimed, fun x hx => h.tallied.claimed x ((h.mem_release refusal).1 hx).1⟩,
    fun x hx => ?_, h.distinct.sublist (List.eraseP_sublist.map _), fun x hx => ?_⟩
  · obtain ⟨hx, hne⟩ := (h.mem_release refusal).1 hx
    exact (h.carried x hx).update (x := g.clear) (Ne.symm hne)
  · exact h.single x ((h.mem_release refusal).1 hx).1

/-- A group may be cleared that need not be kept. -/
theorem clear (h : Intact kept d) (hg : d.roster.group? g.id = some g) (hkept : ¬ kept g.id) :
    Intact kept (d.update g.clear) :=
  ⟨h.linked.update hg rfl, h.tallied.update hg rfl id, fun f hf =>
    (h.carried f hf).change hg rfl fun hc => ⟨hc, fun hk => absurd hk hkept⟩, h.distinct, h.single⟩

end Intact

/-- A finalization is over: its group is completed, empty and not registered, and was handed over
once; and it is not in flight. -/
structure Over (f : Finalization) (d : Custody) : Prop where
  emptied : Holds (fun _ => True) d.roster f.emptied
  landed : ∀ x ∈ d.inFlight, x.group ≠ f.group
  handed : d.deliveriesOf f.group = [f.result]

namespace Over
variable {kept : Nat → Prop} {f : Finalization} {d e : Custody} {g : Group}

theorem edit (h : Over f d) (hd : Linked d) (he : Edit d e) : Over f e :=
  ⟨he.holds hd h.emptied, he.inFlight (f := f.emptied) h.emptied h.landed,
    (he.deliveriesOf (f := f.emptied) h.emptied).trans h.handed⟩

theorem edits (h : Over f d) (hd : Linked d) (he : Edits d e) : Over f e :=
  (keeps (P := fun d => Linked d ∧ Over f d) he
    (fun hx hd => ⟨hx.linked hd.1, hd.2.edit hd.1 hx⟩) ⟨hd, h⟩).2

/-- Clearing changes nothing about it, be it the very group that is cleared. -/
theorem clear (h : Over f d) (hg : d.roster.group? g.id = some g) : Over f (d.update g.clear) := by
  refine ⟨?_, h.landed, h.handed⟩
  by_cases hid : g.id = f.group
  · have hempty : g.messages = [] := by
      obtain ⟨y, hy, -, -, -, hm, -⟩ := h.emptied
      change d.roster.group? f.group = some y at hy
      rw [← hid, hg] at hy
      obtain rfl := Option.some.inj hy
      exact (hm trivial).symm
    exact h.emptied.change hg rfl fun hc => ⟨hc, fun _ => hempty.symm⟩
  · exact h.emptied.update hid

theorem release (h : Over f d) (hd : Intact kept d) (hg : d.roster.group? g.id = some g)
    (refusal : Option String) : Over f (d.release g refusal) :=
  ⟨(h.clear hg).emptied, fun x hx => h.landed x ((hd.mem_release refusal).1 hx).1, h.handed⟩

end Over

/-- A finalization is over when its sink has answered. -/
theorem Intact.over_release {kept : Nat → Prop} {d : Custody} (h : Intact kept d)
    {f : Finalization} (hf : f ∈ d.inFlight) {g : Group} (hg : d.roster.group? f.group = some g)
    (refusal : Option String) : Over f (d.release g refusal) := by
  obtain ⟨y, hy, hc, hout, hkey, -, haway⟩ := h.carried f hf
  obtain rfl := Option.some.inj (hy.symm.trans hg)
  have hid : y.id = f.group := Roster.id_of_group? hy
  refine ⟨⟨y.clear, ?_, hc, hout, hkey, fun _ => rfl, haway⟩, fun x hx => ?_,
    h.tallied.claimed f hf⟩
  · show (d.roster.update y.clear).group? f.group = some y.clear
    have hself : d.roster.group? y.id = some y := hid ▸ hy
    rw [Roster.group?_changed (x := y.clear) hself rfl, if_pos hid.symm]
  · exact hid ▸ ((h.mem_release refusal).1 hx).2

end Custody

end Aggregation
