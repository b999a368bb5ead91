import Aggregation.Proofs.Coordinator.Settling

/-! What is seen of one key.

The strand of a key is all that somebody can see who looks at that key only: the live group, its
number apart, the time, whether the scheduler is stopped, and the answers, results and faults that
concern the key, in their order. What is done to the group of a key shows in that key's strand and
in no other; `strand_complete` says so of a group that is completed, handed over, refused or not,
and released. An admission is carried through in one of three ways, by what there is under its key:
it is refused at a group that is full, it stays in one that goes on, or it completes one
(`settle_submit_full`, `settle_submit_pending`, `settle_submit_claimed`). -/
namespace Aggregation

/-- Something that is seen of a key. -/
inductive Sight where
  /-- The answer to a call. -/
  | answer (n : Nat) (a : Answer)
  /-- What the completion sink is handed. -/
  | result (r : Result)
  /-- A fault, and the message that it is about, if any. -/
  | fault (m : Option Message) (f : Fault)

/-- What of an event is seen of a key; `mine` tells the calls that are on that key. -/
def Event.seen? (key : String) (mine : Nat → Bool) : Event → Option Sight
  | .answered (.outside n) a => if mine n then some (.answer n a) else none
  | .delivered _ r _ _ => if r.key = key then some (.result r) else none
  | .faulted m f => if f.key? = some key then some (.fault (some m) f) else none
  | .lost m f => if f.key? = some key then some (.fault (some m) f) else none
  | .lostEmpty _ f => if f.key? = some key then some (.fault none f) else none
  | _ => none

/-- A group without its number. -/
def Group.unnumbered (g : Group) : Group :=
  {g with id := 0}

structure Strand where
  now : Instant
  stopped : Bool
  group : Option Group
  seen : List Sight

namespace Strand

/-- The strand with another live group, or none. -/
def hold (s : Strand) (g : Option Group) : Strand :=
  {s with group := g}

def emit (s : Strand) (sights : List Sight) : Strand :=
  {s with seen := s.seen ++ sights}

/-- What is seen of a group that is completed: its result, and the fault if that is refused. -/
def sights (verdict : Verdict) (g : Group) (trigger : Trigger) : List Sight :=
  let result : Result := ⟨g.key, g.messages, trigger⟩
  .result result ::
    match verdict result with
    | none => []
    | some cause => [.fault g.messages.getLast? (.sinkFailed g.key g.outlet.sink cause [])]

/-- The group is completed and goes. -/
def finish (s : Strand) (verdict : Verdict) (g : Group) (trigger : Trigger) : Strand :=
  (s.hold none).emit (sights verdict g trigger)

theorem emit_nil (s : Strand) : s.emit [] = s := by
  simp [emit]

theorem emit_append (s : Strand) (a b : List Sight) : s.emit (a ++ b) = (s.emit a).emit b := by
  simp [emit]

/-! ### What the group of a key does -/

section Machine
variable (verdict : Verdict) (settings : Settings) (key : String)

/-- The live group, or a new one. -/
def opened (params : Params) (s : Strand) : Group :=
  s.group.getD (Group.create 0 key params (sequenceProperty settings.aggregator)
    ⟨settings.sink, true, settings.hasFaultSink⟩ s.now)

def submit (m : Message) (params : Params) (reply : Answer → List Sight) (s : Strand) : Strand :=
  match (s.opened settings key params).offer m s.now with
  | (.pending, g) => (s.hold g).emit (reply (.outcome .pending))
  | (.claimed trigger, g) =>
    (s.finish verdict g trigger).emit (reply (.outcome (.completed trigger)))
  | (.rejected m fault, g) =>
    (s.hold g).emit (.fault (some m) fault :: reply (.outcome .rejected))
  | (.late m, g) => (s.hold g).emit (reply (.outcome (.late m)))

section Submit
variable {s : Strand} {g : Group} {m : Message} {params : Params} {reply : Answer → List Sight}
  {key : String} (hg : s.group = some g.unnumbered) (hc : g.completed = false)
include hg hc

theorem submit_full (hr : g.hasCapacity = false) :
    s.submit verdict settings key m params reply =
      s.emit (.fault (some m) (g.fullFault m) :: reply (.outcome .rejected)) := by
  have hcu : g.unnumbered.completed = false := hc
  have hru : g.unnumbered.hasCapacity = false := hr
  simp only [submit, opened, hg, Option.getD_some, Group.offer_full hcu hru]
  congr 1
  simp only [hold, ← hg]

theorem submit_pending (hr : g.hasCapacity = true)
    (he : g.policy.evaluate (g.messages ++ [m]) s.now = .incomplete) :
    s.submit verdict settings key m params reply =
      (s.hold (g.push m).unnumbered).emit (reply (.outcome .pending)) := by
  have hcu : g.unnumbered.completed = false := hc
  have hru : g.unnumbered.hasCapacity = true := hr
  have heu : g.unnumbered.policy.evaluate (g.unnumbered.messages ++ [m]) s.now = .incomplete := he
  simp only [submit, opened, hg, Option.getD_some, Group.offer_pending hcu hru heu]
  rfl

theorem submit_claimed (hr : g.hasCapacity = true) {trigger : Trigger}
    (he : g.policy.evaluate (g.messages ++ [m]) s.now = .complete trigger) :
    s.submit verdict settings key m params reply =
      (s.finish verdict (g.push m) trigger).emit (reply (.outcome (.completed trigger))) := by
  have hcu : g.unnumbered.completed = false := hc
  have hru : g.unnumbered.hasCapacity = true := hr
  have heu : g.unnumbered.policy.evaluate (g.unnumbered.messages ++ [m]) s.now =
    .complete trigger := he
  simp only [submit, opened, hg, Option.getD_some, Group.offer_claimed hcu hru heu]
  rfl

end Submit

/-- A group that would be created may as well be there. -/
theorem submit_opened (s : Strand) (m : Message) (params : Params) (reply : Answer → List Sight) :
    (s.hold (s.opened settings key params)).submit verdict settings key m params reply =
      s.submit verdict settings key m params reply := rfl

def force (reply : Answer → List Sight) (s : Strand) : Strand :=
  match s.group with
  | none => s.emit (reply (.flag false))
  | some g => (s.finish verdict g (g.claimTrigger s.now)).emit (reply (.flag true))

/-- The deadline of the live group counts until the scheduler is stopped. -/
def expire (s : Strand) : Strand :=
  match s.group with
  | none => s
  | some g =>
    if !s.stopped && g.policy.isExpired s.now then s.finish verdict g .timeout else s

end Machine

end Strand

/-- The answer to a call, if that is on the key. -/
def Sight.reply (mine : Nat → Bool) (n : Nat) (a : Answer) : List Sight :=
  if mine n then [.answer n a] else []

namespace Coordinator

/-- What is seen of a key. -/
def strand (c : Coordinator) (key : String) (mine : Nat → Bool) : Strand where
  now := c.now
  stopped := c.scheduler.stopped
  group := (c.group? key).map Group.unnumbered
  seen := c.history.filterMap (Event.seen? key mine)

section Strand
variable {c : Coordinator} {key other : String} {mine : Nat → Bool} {g x : Group}

/-! ### Events -/

theorem strand_record (c : Coordinator) (key : String) (mine : Nat → Bool) (e : Event) :
    (c.record e).strand key mine = (c.strand key mine).emit (e.seen? key mine).toList := by
  simp only [strand, record, Strand.emit, List.filterMap_append]
  congr 2

theorem strand_unseen {e : Event} (he : e.seen? key mine = none) :
    (c.record e).strand key mine = c.strand key mine := by
  rw [strand_record, he]
  exact Strand.emit_nil _

theorem strand_answered (n : Nat) (a : Answer) :
    (c.record (.answered (.outside n) a)).strand key mine =
      (c.strand key mine).emit (Sight.reply mine n a) := by
  rw [strand_record]
  cases h : mine n <;> simp [Event.seen?, Sight.reply, h]

theorem strand_remark (g : Group) (trigger : Trigger) :
    (c.remark g trigger).strand key mine = c.strand key mine := by
  unfold remark
  split
  · exact strand_unseen rfl
  · rfl

theorem strand_fault (outlet : Outlet) (m : Message) (f : Fault) :
    (c.fault outlet m f).strand key mine =
      (c.strand key mine).emit (if f.key? = some key then [.fault (some m) f] else []) := by
  unfold fault
  rw [strand_record]
  show (c.strand key mine).emit _ = _
  by_cases hk : f.key? = some key <;> cases outlet.hasFaultSink <;> simp [Event.seen?, hk]

/-! ### Groups -/

/-- A new group is seen under its key. -/
theorem strand_create (h : Sound c) (params : Params) (hk : c.group? other = none) :
    (c.create other params).2.strand key mine =
      if other = key then
        (c.strand key mine).hold (some (c.newGroup other params).unnumbered)
      else c.strand key mine := by
  have hstopped : (c.create other params).2.scheduler.stopped = c.scheduler.stopped := by
    rw [create_scheduler]
    split
    · unfold Scheduler.schedule
      split <;> rfl
    · rfl
  have hseen : (c.create other params).2.history.filterMap (Event.seen? key mine) =
      c.history.filterMap (Event.seen? key mine) := by
    rw [create_history, List.filterMap_append]
    refine List.append_right_eq_self.2 (List.filterMap_eq_nil_iff.2 fun e he => ?_)
    rcases List.mem_cons.1 he with rfl | he
    · rfl
    · split at he
      · rw [List.mem_singleton.1 he]
        rfl
      · cases he
  simp only [strand, create_now, hstopped, hseen, h.group?_create params hk]
  by_cases hkey : other = key
  · rw [if_pos hkey.symm, if_pos hkey]
    rfl
  · rw [if_neg (Ne.symm hkey), if_neg hkey]

/-- A live group that is changed is seen changed under its key. -/
theorem strand_setGroup (h : Sound c) (hg : c.group? other = some g) (hid : x.id = g.id) :
    (c.setGroup x).strand key mine =
      if other = key then (c.strand key mine).hold (some x.unnumbered)
      else c.strand key mine := by
  simp only [strand]
  rw [h.group?_setGroup hg hid]
  by_cases hkey : other = key
  · rw [if_pos hkey.symm, if_pos hkey]
    rfl
  · rw [if_neg (Ne.symm hkey), if_neg hkey]
    rfl

/-- A group that is handed over is gone from its key. -/
theorem strand_finalize (h : Sound c) (hg : c.group? other = some g) (hid : x.id = g.id)
    (hk : x.key = g.key) (trigger : Trigger) (caller : Caller) :
    (c.finalize x trigger caller).strand key mine =
      if other = key then
        ((c.strand key mine).hold none).emit [.result (resultOf x trigger)]
      else c.strand key mine := by
  have hkey : x.key = other := hk.trans (h.of_group? hg).2.1
  simp only [strand, finalize_history, List.filterMap_append]
  rw [h.group?_finalize hg hid hk]
  by_cases ho : other = key
  · have hx : (resultOf x trigger).key = key := hkey.trans ho
    rw [if_pos ho.symm, if_pos ho]
    simp only [List.filterMap_cons, List.filterMap_nil, Event.seen?, hx, if_true]
    rfl
  · have hx : ¬ (resultOf x trigger).key = key := fun e => ho (hkey.symm.trans e)
    rw [if_neg (Ne.symm ho), if_neg ho]
    simp only [List.filterMap_cons, List.filterMap_nil, Event.seen?, hx, if_false, List.append_nil]
    rfl

/-- Releasing a group that is not live shows in a refusal only. -/
theorem strand_release (h : Sound c) {id : Nat} (hg : c.roster.group? id = some g)
    (hc : g.completed = true) (refusal : Option String) :
    (c.release id refusal).strand key mine =
      if g.key = key then (c.strand key mine).emit (match refusal with
        | none => []
        | some cause => [.fault g.messages.getLast? (.sinkFailed g.key g.outlet.sink cause [])])
      else c.strand key mine := by
  have hclear : ∀ b : Coordinator, b.roster = c.roster →
      (b.setGroup g.clear).strand key mine = b.strand key mine := by
    intro b hb
    have hgroup : (b.setGroup g.clear).group? key = b.group? key := by
      show (b.roster.update g.clear).registered? key = b.roster.registered? key
      rw [hb]
      exact h.tidy.registered?_update_completed (x := g.clear) (Roster.id_of_group? hg ▸ hg) hc key
    simp only [strand, hgroup]
    rfl
  simp only [release, hg]
  cases refusal with
  | none =>
    rw [hclear c rfl, Strand.emit_nil, ite_self]
  | some cause =>
    simp only [reportRefusal]
    cases hlast : g.last with
    | ok m =>
      have hm : g.messages.getLast? = some m := by
        unfold Group.last at hlast
        split at hlast
        · next hm => rw [hm, Except.ok.inj hlast]
        · cases hlast
      rw [hclear (c.fault g.outlet m _) rfl, strand_fault, hm]
      by_cases hk : g.key = key <;> simp [Fault.key?, hk, Strand.emit_nil]
    | error f =>
      have hm : g.messages.getLast? = none := by
        unfold Group.last at hlast
        split at hlast
        · cases hlast
        · assumption
      rw [hclear ((c.count _).record _) rfl, strand_record, hm]
      show (c.strand key mine).emit _ = _
      by_cases hk : g.key = key <;> simp [Event.seen?, Fault.key?, hk, Strand.emit_nil]

end Strand

/-! ### Completing a group -/

/-- Hand a group over and do what its sink's answer asks for. -/
def complete (verdict : Verdict) (c : Coordinator) (g : Group) (trigger : Trigger) : Coordinator :=
  ({c.finalize g trigger .expiry with inFlight := c.inFlight}).release g.id
    (verdict (resultOf g trigger))

/-- Whatever finalizes a group may be followed by what completes it. -/
theorem changes_complete {a c : Coordinator} {l : List Message} {x : Group} {trigger : Trigger}
    {caller : Caller} (verdict : Verdict) (hc : Changes a l (c.finalize x trigger caller)) :
    Changes a l (c.complete verdict x trigger) := by
  have hland : (c.finalize x trigger caller).land x.id =
      {c.finalize x trigger .expiry with inFlight := c.inFlight} := by
    simp only [land, finalize_inFlight, BEq.rfl, List.eraseP_cons_of_pos]
    rfl
  have hm : (⟨x.id, x.outlet, resultOf x trigger, caller⟩ : Finalization) ∈
      (c.finalize x trigger caller).inFlight := List.mem_cons_self ..
  have hrelease := Change.released hm (verdict (resultOf x trigger))
  rw [hland] at hrelease
  exact (List.append_nil l) ▸ hc.tail hrelease

section Complete
variable {c : Coordinator} {other : String} {g x : Group} (h : Sound c)
  (hg : c.group? other = some g) (hid : x.id = g.id) (verdict : Verdict) (trigger : Trigger)
include h hg hid

theorem group?_sealed : (c.finalize x trigger .expiry).roster.group? x.id = some x.sealed := by
  have hfound := h.tidy.group?_of_mem (h.of_group? hg).1
  show (c.roster.update x.sealed).group? x.id = _
  rw [Roster.group?_update, hid, hfound]
  simp [hid]

theorem complete_inFlight : (c.complete verdict x trigger).inFlight = c.inFlight :=
  release_inFlight (c := {c.finalize x trigger .expiry with inFlight := c.inFlight})
    (group?_sealed h hg hid trigger) _

theorem complete_expired : (c.complete verdict x trigger).expired = c.expired :=
  release_expired (c := {c.finalize x trigger .expiry with inFlight := c.inFlight})
    (group?_sealed h hg hid trigger) _

theorem complete_now : (c.complete verdict x trigger).now = c.now :=
  release_now (c := {c.finalize x trigger .expiry with inFlight := c.inFlight})
    (group?_sealed h hg hid trigger) _

variable (hk : x.key = g.key)
include hk

theorem sound_handed :
    Sound ({c.finalize x trigger .expiry with inFlight := c.inFlight} : Coordinator) := by
  have hf : Sound (c.finalize x trigger .expiry) := h.finalize hg hid hk trigger rfl
  refine ⟨hf.tidy, hf.swept, fun f hm => ?_, ?_, fun f hm => ?_⟩
  · exact hf.carried f (List.mem_cons_of_mem _ hm)
  · exact (List.nodup_cons.1 hf.distinct).2
  · exact hf.single f (List.mem_cons_of_mem _ hm)

theorem sound_complete : Sound (c.complete verdict x trigger) := by
  have hf : Sound (c.finalize x trigger .expiry) := h.finalize hg hid hk trigger rfl
  exact (changes_complete verdict (.refl _)).sound hf

theorem group?_complete (key : String) : (c.complete verdict x trigger).group? key =
    if key = other then none else c.group? key := by
  have hsealed := group?_sealed h hg hid trigger
  rw [← h.group?_finalize hg hid hk trigger .expiry key, group?, complete,
    release_roster (c := {c.finalize x trigger .expiry with inFlight := c.inFlight}) hsealed]
  exact (sound_handed h hg hid trigger hk).tidy.registered?_update_completed
    (x := x.sealed.clear) hsealed rfl key

/-- Completing a group shows under its key only, as one result and at most one fault. -/
theorem strand_complete (key : String) (mine : Nat → Bool) :
    (c.complete verdict x trigger).strand key mine =
      if other = key then (c.strand key mine).finish verdict x trigger else c.strand key mine := by
  have hkey : x.key = other := hk.trans (h.of_group? hg).2.1
  have hfinalize : (c.finalize x trigger .expiry).strand key mine = _ :=
    strand_finalize h hg hid hk trigger .expiry
  rw [complete, strand_release (sound_handed h hg hid trigger hk) (group?_sealed h hg hid trigger)
    rfl]
  show (if x.key = key then ((c.finalize x trigger .expiry).strand key mine).emit _ else
    (c.finalize x trigger .expiry).strand key mine) = _
  rw [hfinalize, hkey]
  by_cases ho : other = key
  · rw [if_pos ho, if_pos ho, if_pos ho, ← Strand.emit_append]
    rfl
  · rw [if_neg ho, if_neg ho, if_neg ho]

/-- A finalization is carried through at once. -/
theorem settle_finalize {caller : Caller} (hcaller : caller.isSingle = true) :
    (c.finalize x trigger caller).settle verdict =
      ((c.complete verdict x trigger).resume trigger caller).settle verdict := by
  rw [settle_inFlight verdict (h.finalize hg hid hk trigger hcaller) (finalize_inFlight ..)]
  congr 1
  exact conclude_head (finalize_inFlight ..) _

end Complete

/-! ### Admissions that are carried through -/

section Submit
variable {c : Coordinator} {key : String} {g : Group} {m : Message} {params : Params}
  (h : Sound c) (hf : c.inFlight = []) (hd : c.expired = []) (hg : c.group? key = some g)
  (call : Call) (verdict : Verdict)
include h hf hd hg

theorem settle_submit_full (hr : g.hasCapacity = false) :
    (c.submit call key m params).settle verdict =
      (((c.record (.offered g m c.now)).record (.rejected key (g.fullFault m))).fault g.outlet m
        (g.fullFault m)).record (.answered call (.outcome .rejected)) := by
  rw [submit, place_full h hg hr]
  exact settle_record (c := ((c.record (.offered g m c.now)).record
    (.rejected key (g.fullFault m))).fault g.outlet m (g.fullFault m)) verdict hf hd _

theorem settle_submit_pending (hr : g.hasCapacity = true)
    (he : g.policy.evaluate (g.messages ++ [m]) c.now = .incomplete) :
    (c.submit call key m params).settle verdict =
      ((c.record (.offered g m c.now)).setGroup (g.push m)).record
        (.answered call (.outcome .pending)) := by
  rw [submit, place_pending h hg hr he]
  exact settle_record (c := (c.record (.offered g m c.now)).setGroup (g.push m)) verdict hf hd _

theorem settle_submit_claimed (hr : g.hasCapacity = true) {trigger : Trigger}
    (he : g.policy.evaluate (g.messages ++ [m]) c.now = .complete trigger) :
    (c.submit call key m params).settle verdict =
      ((c.record (.offered g m c.now)).complete verdict (g.push m) trigger).record
        (.answered call (.outcome (.completed trigger))) := by
  obtain ⟨b, hb⟩ : ∃ b, b = c.record (.offered g m c.now) := ⟨_, rfl⟩
  have hsound : Sound b := hb ▸ h.record _
  have hgb : b.group? key = some g := hb ▸ hg
  have hbf : b.inFlight = [] := hb ▸ hf
  have hbd : b.expired = [] := hb ▸ hd
  rw [submit, place_claimed h hg hr he, ← hb]
  show (b.finalize (g.push m) trigger (.admission call)).settle verdict = _
  rw [settle_finalize hsound (x := g.push m) hgb rfl verdict trigger rfl rfl, resume,
    settle_record verdict
      ((complete_inFlight hsound (x := g.push m) hgb rfl verdict trigger).trans hbf)
      ((complete_expired hsound (x := g.push m) hgb rfl verdict trigger).trans hbd)]

end Submit

/-- A message under a free key is admitted as if its group had been opened before. -/
theorem submit_create {c : Coordinator} (h : Sound c) {key : String} (hk : c.group? key = none)
    (call : Call) (m : Message) (params : Params) :
    c.submit call key m params = (c.create key params).2.submit call key m params := by
  rw [submit, place_create h hk, submit]

end Coordinator

end Aggregation
