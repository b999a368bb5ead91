import Aggregation.Aggregator
import Aggregation.Proofs.Precedence
import Aggregation.Proofs.Coordinator.Handles

/-! What a stop stops.

A stopped scheduler takes nothing and fires nothing, so it stays as the stop left it, whatever is
done afterwards, and no deadline fires any more (`Stopped.apply`, `after_stopped`). Time alone then
moves nothing but the clock (`Stopped.advance_eq`).

A group knows its deadline itself, however, and looks at the clock whenever it is offered a message.
A message that comes after the deadline and reaches no count completes its group by timeout, with or
without a scheduler (`submit_decides`). So it is not by count only that groups complete after a
stop: `clock_after_stop` says when else, and `timeout_after_stop` shows it. -/
namespace Aggregation

/-! ### Schedulers -/

namespace Scheduler

theorem stop_stop (s : Scheduler) : s.stop.stop = s.stop := rfl

theorem schedule_stop (s : Scheduler) (d : Deadline) : s.stop.schedule d = s.stop := rfl

theorem swept_begin_stop (s : Scheduler) (now : Instant) :
    (s.stop.receiveAll.begin now).swept = s.stop := rfl

end Scheduler

namespace Coordinator

/-- The scheduler is as a stop left it, and no deadline waits to be handled but some that did then. -/
structure Stopped (s : Scheduler) (due : List Deadline) (c : Coordinator) : Prop where
  scheduler : c.scheduler = s.stop
  expired : ∀ d ∈ c.expired, d ∈ due

namespace Stopped
variable {s : Scheduler} {due : List Deadline} {c b : Coordinator}

theorem of_stop (c : Coordinator) : Stopped c.scheduler c.expired c.stop :=
  ⟨rfl, fun _ h => h⟩

theorem congr (h : Stopped s due c) (hscheduler : b.scheduler = c.scheduler)
    (hexpired : b.expired = c.expired) : Stopped s due b :=
  ⟨hscheduler.trans h.scheduler, fun d hd => h.expired d (hexpired ▸ hd)⟩

theorem take (h : Stopped s due c) (d : Deadline) : Stopped s due (c.take d) :=
  ⟨h.scheduler, fun e he => h.expired e (List.mem_of_mem_erase he)⟩

/-- Time alone changes nothing but the clock. -/
theorem advance_eq (h : Stopped s due c) (ms : Nat) : c.advance ms = {c with now := c.now + ms} := by
  have hsweep : (c.scheduler.receiveAll.begin (c.now + ms)).sweep = [] := by
    rw [h.scheduler]
    rfl
  have hswept : (c.scheduler.receiveAll.begin (c.now + ms)).swept = c.scheduler := by
    rw [h.scheduler]
    exact Scheduler.swept_begin_stop s _
  rw [Coordinator.advance, fireAll_eq]
  simp only [hsweep, hswept, List.map_nil, List.append_nil]

/-! ### Operations -/

theorem schedule (h : Stopped s due c) (d : Deadline) : Stopped s due (c.schedule d) := by
  rw [schedule_eq]
  exact ⟨by rw [h.scheduler, Scheduler.schedule_stop], h.expired⟩

theorem create (h : Stopped s due c) (key : String) (params : Params) :
    Stopped s due (c.create key params).2 := by
  refine ⟨?_, fun d hd => h.expired d (create_expired c key params ▸ hd)⟩
  rw [create_scheduler, h.scheduler]
  split <;> rfl

theorem openGroup (h : Stopped s due c) (key : String) (params : Params) :
    Stopped s due (c.openGroup key params).2 :=
  openGroup_keeps (fun _ h => h.congr rfl rfl) (fun h => h.create key params) h

theorem submit (h : Stopped s due c) (call : Call) (key : String) (m : Message) (params : Params) :
    Stopped s due (c.submit call key m params) := by
  have hopened := h.openGroup key params
  simp only [Coordinator.submit, place]
  rcases hopen : c.openGroup key params with ⟨g, b⟩
  rw [hopen] at hopened
  rcases hoffer : g.offer m b.now with ⟨offer, after⟩
  cases offer <;> exact hopened.congr rfl rfl

theorem submitCorrelated (h : Stopped s due c) (call : Call) (m : Message) (params : Params) :
    Stopped s due (c.submitCorrelated call m params) := by
  simp only [Coordinator.submitCorrelated, placeCorrelated]
  cases m.correlationKey? c.settings.aggregator with
  | some key => exact h.submit call key m params
  | none => exact h.congr rfl rfl

theorem forced (h : Stopped s due c) (g : Group) (caller : Caller) :
    Stopped s due (c.forced g caller) :=
  h.congr ((finalize_scheduler ..).trans (remark_scheduler ..))
    ((finalize_expired ..).trans (remark_expired ..))

theorem force (h : Stopped s due c) (call : Call) (key : String) :
    Stopped s due (c.force call key) := by
  rcases force_cases c call key with ⟨-, hmissing⟩ | ⟨g, -, ⟨-, hlate⟩ | ⟨-, hclaim⟩⟩
  · rw [hmissing]
    exact h.congr rfl rfl
  · rw [hlate]
    exact h.congr rfl rfl
  · rw [hclaim]
    exact h.forced g (.force call)

theorem forceEach (h : Stopped s due c) (call : Call) (done : Nat) (rest : List Nat) :
    Stopped s due (forceEach call done rest c) := by
  rcases forceEach_eq c call done rest with ⟨-, hanswer⟩ | ⟨_, x, left, -, -, -, -, hclaim⟩
  · rw [hanswer]
    exact h.congr rfl rfl
  · rw [hclaim]
    exact h.forced x (.drain call done left)

theorem expire (h : Stopped s due c) (d : Deadline) : Stopped s due (c.expire d) := by
  rcases expire_cases c d with hstale | ⟨g, -, -, ⟨-, hlate⟩ | ⟨-, hclaim⟩⟩
  · rw [hstale]
    exact h.congr rfl rfl
  · rw [hlate]
    exact h
  · rw [hclaim]
    exact h.forced g .expiry

theorem release (h : Stopped s due c) (id : Nat) (refusal : Option String) :
    Stopped s due (c.release id refusal) := by
  cases hg : c.roster.group? id with
  | none =>
    simp only [Coordinator.release, hg]
    exact h
  | some g => exact h.congr (release_scheduler hg refusal) (release_expired hg refusal)

theorem resume (h : Stopped s due c) (trigger : Trigger) {caller : Caller}
    (hcaller : caller.isSingle = true) : Stopped s due (c.resume trigger caller) := by
  cases caller with
  | siblings => cases hcaller
  | drain call done rest => exact h.forceEach call (done + 1) rest
  | expiry => exact h
  | _ => exact h.congr rfl rfl

theorem conclude {kept : Nat → Prop} (hc : Custody.Intact kept c.custody) (h : Stopped s due c)
    (id : Nat) (refusal : Option String) : Stopped s due (c.conclude id refusal) := by
  simp only [Coordinator.conclude]
  cases hf : c.inFlight.find? fun f => f.group == id with
  | none => exact h
  | some f =>
    have hland : Stopped s due (c.land id) := h.congr rfl rfl
    exact (hland.release id refusal).resume f.result.trigger
      (hc.single f (List.mem_of_find?_eq_some hf))

/-- Whatever anybody does, a stopped scheduler stays as it is. -/
theorem apply {kept : Nat → Prop} (hc : Custody.Intact kept c.custody) (h : Stopped s due c)
    (act : Act) : Stopped s due (act.apply c) := by
  cases act with
  | move x =>
    cases x with
    | submit call key m params => exact h.submit call key m params
    | submitCorrelated call m params => exact h.submitCorrelated call m params
    | openGroup key params => exact h.openGroup key params
    | force call key => exact h.force call key
    | drain call order => exact h.forceEach call 0 _
    | advance ms =>
      simp only [Act.apply, Move.apply, h.advance_eq]
      exact h.congr rfl rfl
    | expire d =>
      simp only [Act.apply, Move.apply]
      split
      · exact (h.take d).expire d
      · exact h
    | conclude id refusal => exact h.conclude hc id refusal
    | stop => exact ⟨(congrArg Scheduler.stop h.scheduler).trans s.stop_stop, h.expired⟩
    | add id m =>
      simp only [Act.apply, Move.apply]
      split
      · exact h.congr rfl rfl
      · exact h
  | call id time asked =>
    simp only [Act.apply]
    split
    · exact h.congr rfl rfl
    · exact h
  | evict key id => exact h.congr rfl rfl
  | schedule d => exact h.schedule d

end Stopped

theorem after_stopped {c : Coordinator} (h : Custody.Intact (fun _ => False) c.custody)
    (acts : List Act) : Stopped c.scheduler c.expired (after c.stop acts) :=
  after_keeps (P := Stopped c.scheduler c.expired) (fun act hc hs => hs.apply hc act)
    (c := c.stop) h (.of_stop c) acts

/-! ### Admissions -/

/-- What an admission of a message to a group comes to. -/
structure Decides (c : Coordinator) (g : Group) (m : Message) (d : Coordinator) : Prop where
  /-- Nothing is handed over, or the group with the message, because of the first rule that holds of
  it then. -/
  handed : d.deliveries = c.deliveries ∨
    ∃ trigger, d.deliveries = c.deliveries ++ [(g.id, resultOf (g.push m) trigger)] ∧
      g.policy.Met (g.messages ++ [m]) c.now trigger ∧
      ∀ rule, g.policy.Met (g.messages ++ [m]) c.now rule → trigger.rank ≤ rule.rank
  /-- Up to its deadline a group completes by count only. -/
  counted : (∀ due, g.policy.expiry = some due → c.now < due) → ∀ trigger,
    d.deliveries = c.deliveries ++ [(g.id, resultOf (g.push m) trigger)] →
      trigger = .declaredTotal ∨ trigger = .minCount ∨ trigger = .maxCount
  /-- A group that is short of every count times out if its deadline has passed. -/
  timedOut : d.deliveries = c.deliveries ++ [(g.id, resultOf (g.push m) .timeout)] ↔
    g.policy.Short (g.messages ++ [m]) ∧ ∃ due, g.policy.expiry = some due ∧ due ≤ c.now

/-- A group that is short of its counts with one message more has room for it. -/
theorem hasCapacity_of_short {g : Group} {m : Message} (h : g.policy.Short (g.messages ++ [m])) :
    g.hasCapacity = true := by
  refine Group.hasCapacity_iff.2 fun max hmax => ?_
  have hlt := h.under.2.2 max hmax
  rw [List.length_append] at hlt
  exact Nat.lt_of_succ_lt hlt

/-- Opening hands nothing over and takes no time. -/
theorem openGroup_still (c : Coordinator) (key : String) (params : Params) :
    (c.openGroup key params).2.deliveries = c.deliveries ∧
      (c.openGroup key params).2.now = c.now := by
  refine openGroup_keeps (P := fun b => b.deliveries = c.deliveries ∧ b.now = c.now)
    (fun {b} id h => ⟨?_, h.2⟩) (fun {b} h => ⟨?_, ?_⟩) ⟨rfl, rfl⟩
  · exact (deliveries_record_none b (e := .replaced key id) rfl).trans h.1
  · rw [deliveries_create, h.1]
  · rw [create_now, h.2]

section Admission
variable {kept : Nat → Prop} {c : Coordinator} (h : Custody.Intact kept c.custody)
include h

/-- What an admission hands over is what the policy of the group decides about its messages. -/
theorem submit_deliveries (call : Call) (key : String) (m : Message) (params : Params) {g : Group}
    (hg : (c.openGroup key params).1 = g) :
    ((g.hasCapacity = false ∨ g.policy.evaluate (g.messages ++ [m]) c.now = .incomplete) ∧
        (c.submit call key m params).deliveries = c.deliveries) ∨
      ∃ trigger, g.hasCapacity = true ∧
        g.policy.evaluate (g.messages ++ [m]) c.now = .complete trigger ∧
        (c.submit call key m params).deliveries =
          c.deliveries ++ [(g.id, resultOf (g.push m) trigger)] := by
  obtain ⟨x, b, hopen, -, -, hc⟩ := openGroup_deeds h key params
  obtain ⟨hdeliveries, hnow⟩ := openGroup_still c key params
  rw [hopen] at hg hdeliveries hnow
  obtain rfl : x = g := hg
  have hoffered : ∀ y, ((b.record (.offered x m b.now)).setGroup y).deliveries = c.deliveries :=
    fun y => (deliveries_record_none b (e := .offered x m b.now) rfl).trans hdeliveries
  simp only [submit, place, hopen]
  cases hroom : x.hasCapacity with
  | false =>
    refine .inl ⟨.inl rfl, ?_⟩
    simp only [Group.offer_full hc hroom, settleAdmission]
    rw [deliveries_record_none _ rfl, deliveries_fault, deliveries_record_none _ rfl, hoffered]
  | true =>
    cases he : x.policy.evaluate (x.messages ++ [m]) b.now with
    | incomplete =>
      refine .inl ⟨.inr (hnow ▸ he), ?_⟩
      simp only [Group.offer_pending hc hroom he, settleAdmission]
      rw [deliveries_record_none _ rfl, hoffered]
    | complete trigger =>
      refine .inr ⟨trigger, rfl, hnow ▸ he, ?_⟩
      simp only [Group.offer_claimed hc hroom he, settleAdmission]
      show ((b.record (.offered x m b.now)).finalize (x.push m) trigger (.admission call)).deliveries
        = _
      rw [deliveries_finalize, deliveries_record_none _ rfl, hdeliveries]
      rfl

theorem submit_decides (call : Call) (key : String) (m : Message) (params : Params) :
    Decides c (c.openGroup key params).1 m (c.submit call key m params) := by
  generalize hg : (c.openGroup key params).1 = g
  rcases submit_deliveries h call key m params hg with ⟨hnone, hsame⟩ | ⟨trigger, -, he, hone⟩
  · have hnobody : ∀ trigger, (c.submit call key m params).deliveries ≠
        c.deliveries ++ [(g.id, resultOf (g.push m) trigger)] := fun trigger hone =>
      absurd (hsame.symm.trans hone) (by simp)
    refine ⟨.inl hsame, fun _ trigger hone => absurd hone (hnobody trigger),
      iff_of_false (hnobody .timeout) fun hovertime => ?_⟩
    -- Such a group has room, so the message went in and the policy was asked.
    have he := Policy.evaluate_eq_timeout.2 (hovertime.imp_right Policy.isExpired_eq_true.2)
    rcases hnone with hfull | hincomplete
    · rw [hasCapacity_of_short hovertime.1] at hfull
      cases hfull
    · rw [hincomplete] at he
      cases he
  · have hmet := Policy.complete_iff.1 he
    have htrigger : ∀ other, (c.submit call key m params).deliveries =
        c.deliveries ++ [(g.id, resultOf (g.push m) other)] ↔ trigger = other := by
      intro other
      rw [hone]
      simp [resultOf]
    refine ⟨.inr ⟨trigger, hone, hmet⟩, fun hearly other hother => ?_, ?_⟩
    · obtain rfl := (htrigger other).1 hother
      exact Policy.Met.isCount hmet.1 hearly
    · rw [htrigger, ← Policy.isExpired_eq_true, ← Policy.evaluate_eq_timeout, he,
        Completion.complete.injEq]

end Admission

end Coordinator

/-! ### What happens by itself -/

/-- A sink that cannot go on cannot later either. -/
theorem Channel.release?_of_none {ch : Channel} {c : Coordinator} (h : ch.release? c = none)
    (b : Coordinator) : ch.release? b = none := by
  unfold release? at h ⊢
  cases hw : ch.waiting with
  | nil => rfl
  | cons id rest =>
    simp only [hw] at h ⊢
    cases hgoes : ch.closed || ch.hasRoom with
    | false => rfl
    | true =>
      simp only [hgoes, if_true] at h
      split at h
      · cases h
      · split at h <;> cases h

namespace Aggregator
variable {a : Aggregator}

theorem next?_eq_none :
    a.next? = none ↔ a.unasked? = none ∧ a.release? = none ∧ a.core.expired = [] := by
  unfold next?
  cases a.unasked? with
  | some f => simp
  | none =>
    cases a.release? with
    | some b => simp
    | none => cases a.core.expired <;> simp

/-- Nothing happens by itself just because the clock has moved. -/
theorem next?_of_now (h : a.next? = none) (now : Instant) :
    {a with core := {a.core with now}}.next? = none := by
  obtain ⟨hunasked, hrelease, hexpired⟩ := next?_eq_none.1 h
  refine next?_eq_none.2 ⟨hunasked, ?_, hexpired⟩
  unfold release? at hrelease ⊢
  cases hsink : a.sink with
  | prompt p => rfl
  | channel ch =>
    simp only [hsink, Option.map_eq_none_iff] at hrelease ⊢
    exact Channel.release?_of_none hrelease _

theorem settle_of_next? (h : a.next? = none) : a.settle = a := by
  unfold settle
  cases a.workload with
  | zero => rfl
  | succ fuel => simp only [run, h]

/-- With a stopped scheduler, letting time pass moves the clock and nothing else. -/
theorem act_advance {s : Scheduler} {due : List Deadline} (hs : a.core.Stopped s due)
    (h : a.next? = none) (ms : Nat) :
    a.act (·.advance ms) = {a with core := {a.core with now := a.core.now + ms}} := by
  rw [act, hs.advance_eq]
  exact settle_of_next? (next?_of_now h _)

end Aggregator

namespace Coordinator

/-- After a stop, whatever was done before and is done afterwards, the scheduler stays as it was left
and no deadline fires that has not fired before; time moves nothing but the clock, with the sinks at
work too. Nevertheless groups go on to complete by timeout: a message that is admitted, under a key
or under the one that it carries, completes its group because of the first rule that holds, and that
is the timeout exactly if the group is short of all counts and its own deadline has passed. -/
theorem clock_after_stop (settings : Settings) (metrics : Bool) (now : Instant)
    (before later : List Act) :
    let a := after (start settings metrics now) before
    let c := after a (.move .stop :: later)
    (c.scheduler = a.scheduler.stop ∧ ∀ d ∈ c.expired, d ∈ a.expired) ∧
      (∀ ms, c.advance ms = {c with now := c.now + ms}) ∧
      (∀ x : Aggregator, x.core.scheduler = c.scheduler → x.next? = none → ∀ ms,
        x.act (·.advance ms) = {x with core := {x.core with now := x.core.now + ms}}) ∧
      (∀ call key m params,
        Decides c (c.openGroup key params).1 m (c.submit call key m params)) ∧
      ∀ call m params,
        match m.correlationKey? c.settings.aggregator with
        | some key => c.submitCorrelated call m params = c.submit call key m params
        | none => (c.submitCorrelated call m params).deliveries = c.deliveries := by
  intro a c
  have hstart := intact_start (fun _ => False) settings metrics now
  have ha : Custody.Intact (fun _ => False) a.custody := after_intact hstart fun _ _ _ hk => hk.elim
  have hc : Custody.Intact (fun _ => False) c.custody := after_intact ha fun _ _ _ hk => hk.elim
  have hstopped : Stopped a.scheduler a.expired c := after_stopped ha later
  refine ⟨⟨hstopped.scheduler, hstopped.expired⟩, hstopped.advance_eq, fun x hx hnext ms => ?_,
    submit_decides hc, fun call m params => ?_⟩
  · have hs : x.core.Stopped a.scheduler x.core.expired :=
      ⟨hx.trans hstopped.scheduler, fun _ hd => hd⟩
    exact Aggregator.act_advance hs hnext ms
  · simp only [submitCorrelated, placeCorrelated]
    cases m.correlationKey? c.settings.aggregator with
    | some key => rfl
    | none =>
      simp only [settleAdmission]
      rw [deliveries_record_none _ rfl, deliveries_record_none _ rfl]

/-- The deadline of a group passes unnoticed after a stop, and the next message completes the group
because of it. -/
theorem clock_after_stop_overdue :
    let m := Message.ofAction "m" "op" (Timestamp.ofMillis 0)
    let params : Params := ⟨1000, 3, 0⟩
    let a := after (start ⟨"name", "sink", none, true⟩ false 0)
      [.move (.submit (.outside 1) "k" m params)]
    let c := after a [.move .stop, .move (.advance 1000)]
    let x : Aggregator := ⟨c, .prompt ⟨.only [], "", [], params⟩, none, ⟨Bag.empty⟩⟩
    x.core.scheduler = c.scheduler ∧ x.next? = none ∧
      x.act (·.advance 5) = {x with core := {x.core with now := 1005}} ∧
      (c.submit (.outside 2) "k" m params).deliveries =
        c.deliveries ++ [(1, ⟨"k", [m, m], .timeout⟩)] := by
  intro m params a c x
  obtain ⟨-, -, hquiet, hdecides, -⟩ := clock_after_stop ⟨"name", "sink", none, true⟩ false 0
    [.move (.submit (.outside 1) "k" m params)] [.move (.advance 1000)]
  have hscheduler : x.core.scheduler = c.scheduler := rfl
  have hnext : x.next? = none := rfl
  refine ⟨hscheduler, hnext, hquiet x hscheduler hnext 5, ?_⟩
  exact (hdecides (.outside 2) "k" m params).timedOut.2
    ⟨⟨rfl, rfl, rfl⟩, 1000, rfl, by decide⟩

/-- Not every group that an admission completes after a stop has reached a count. -/
theorem timeout_after_stop :
    let first := Message.ofAction "1" "op" (Timestamp.ofMillis 0)
    let second := Message.ofAction "2" "op" (Timestamp.ofMillis 0)
    let params : Params := ⟨1000, 3, 0⟩
    let c := after (start ⟨"recorder", "recorder", none, true⟩ false 0)
      [.move (.submit (.outside 1) "G" first params), .move .stop, .move (.advance 1000)]
    ¬ ∀ d ∈ (c.submit (.outside 2) "G" second params).deliveries,
      d.2.trigger = .declaredTotal ∨ d.2.trigger = .minCount ∨ d.2.trigger = .maxCount := by
  intro first second params c h
  have hhanded : (1, ⟨"G", [first, second], .timeout⟩) ∈
      (c.submit (.outside 2) "G" second params).deliveries := List.mem_singleton.2 rfl
  rcases h _ hhanded with hcount | hcount | hcount <;> cases hcount

end Coordinator

end Aggregation
