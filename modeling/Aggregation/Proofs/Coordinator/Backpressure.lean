import Aggregation.Proofs.Coordinator.Completion
import Aggregation.Proofs.Coordinator.Settling
import Aggregation.Proofs.Coordinator.Stroke

/-! Nothing is lost or reordered under back-pressure.

A channel that is full makes sinks wait. Between a group that is handed over and whoever receives
its result stand the channel's buffer and the sinks that wait, the oldest first, and whatever is
done moves results along this pipe without one overtaking another (`Piped`): a sink is asked at
once, and sends if nobody waits and there is room, else waits behind the others; whoever waited
longest goes on as soon as there is room, and the call that it held up may hand over the next group.
So much can go on by itself and no more (`Piped.progress`), so after each step the pipe is at rest,
and sinks wait only before a full buffer (`Piped.flow`). Deadlines that fired are handled in steps
of their own, at any time; settling an aggregator handles them in turn (`Piped.settle_eq`). -/
namespace Aggregation

/-! ### What can go on by itself -/

namespace Aggregator

/-- The next thing that can go on by itself, deadlines apart. -/
def flows? (a : Aggregator) : Option Aggregator :=
  match a.unasked? with
  | some f => some (a.ask f)
  | none => a.release?

def flowWith : (fuel : Nat) → Aggregator → Aggregator
  | 0, a => a
  | fuel + 1, a =>
    match a.flows? with
    | some b => flowWith fuel b
    | none => a

/-- Let go on whatever can. -/
def flow (a : Aggregator) : Aggregator :=
  a.flowWith (owed a.core.inFlight)

theorem flowWith_rest {a : Aggregator} (h : a.flows? = none) (fuel : Nat) :
    a.flowWith fuel = a := by
  cases fuel with
  | zero => rfl
  | succ fuel => simp only [flowWith, h]

/-- Asking and releasing for each finalization. -/
theorem two_mul_length_le_owed (fs : List Finalization) : 2 * fs.length ≤ owed fs := by
  induction fs with
  | nil => exact Nat.le_refl _
  | cons f rest ih =>
    rw [owed, List.length_cons]
    omega

end Aggregator

/-! ### Channels -/

namespace Channel
variable {ch : Channel} {c : Coordinator} {f : Finalization} {rest : List Nat}

theorem hasRoom_eq_true : ch.hasRoom = true ↔ ch.buffer.length < ch.capacity := by
  rw [hasRoom, Nat.blt_eq]

section Opened
variable (ho : ch.closed = false)
include ho

theorem send_first (hw : ch.waiting = []) (hr : ch.hasRoom = true) : ch.send f c =
    ({ch with buffer := ch.buffer ++ [f.result], waiting := []}, c.conclude f.group none) := by
  simp only [send, ho, hw, hr, List.isEmpty_nil, Bool.and_self, Bool.false_eq_true, if_false,
    if_true]

theorem send_behind (h : (ch.waiting.isEmpty && ch.hasRoom) = false) :
    ch.send f c = ({ch with waiting := ch.waiting ++ [f.group]}, c) := by
  simp only [send, ho, h, Bool.false_eq_true, if_false]

theorem release?_eq (h : c.Sound) (hf : f ∈ c.inFlight) (hw : ch.waiting = f.group :: rest) :
    ch.release? c = if ch.hasRoom then
      some ({ch with buffer := ch.buffer ++ [f.result], waiting := rest},
        c.conclude f.group none) else none := by
  simp only [release?, ho, hw, Coordinator.find?_group h.distinct hf, Bool.false_or,
    Bool.false_eq_true,
    if_false]

end Opened

end Channel

/-! ### The pipe -/

namespace Coordinator

/-- What every step keeps of a coordinator. -/
structure Tracked (c : Coordinator) : Prop where
  sound : Sound c
  noted : Noted c
  delivered : Delivered c

theorem tracked_start (settings : Settings) (metrics : Bool) (now : Instant) :
    Tracked (start settings metrics now) :=
  ⟨sound_start .., fun _ h => absurd h List.not_mem_nil, delivered_start ..⟩

namespace Tracked
variable {a b c : Coordinator}

theorem changes {l : List Message} (h : Tracked a) (hc : Changes a l b) : Tracked b :=
  ⟨hc.sound h.sound, hc.keeps Change.noted h.sound h.noted,
    hc.keeps Change.delivered h.sound h.delivered⟩

theorem apply (h : Tracked c) (move : Move) : Tracked (move.apply c) := by
  refine ⟨h.sound.apply move, ?_, delivered_run h.sound h.delivered [move]⟩
  exact apply_keeps move Change.noted (fun _ _ h => h)
    (fun _ _ _ _ m hs hg _ h => h.update (x := Group.push _ m) (hs.of_group? hg).1 rfl rfl)
    h.sound h.noted

end Tracked

section InFlight
variable {c : Coordinator} {f : Finalization} (h : Sound c) (hf : f ∈ c.inFlight)
include h hf

/-- A group that is in flight is under no key. -/
theorem Sound.unregistered (key : String) : c.roster.registry.get? key ≠ some f.group := by
  intro hget
  obtain ⟨g, hg, hc⟩ := h.group_of_inFlight hf
  obtain ⟨x, hx, -, hxc⟩ := h.tidy.live key f.group hget
  rw [← Option.some.inj (hg.symm.trans hx), hc] at hxc
  cases hxc

/-- Whoever wants a key gets a group that is not in flight. -/
theorem Sound.openGroup_id_ne (key : String) (params : Params) :
    (c.openGroup key params).1.id ≠ f.group := by
  cases hk : c.group? key with
  | some x =>
    rw [openGroup_of_group h hk]
    exact (h.carried f hf).id_ne h.tidy hk
  | none =>
    obtain ⟨g, hg, -⟩ := h.group_of_inFlight hf
    have hlt := h.tidy.id_lt_nextId (Roster.mem_of_group? hg)
    rw [Roster.id_of_group? hg] at hlt
    rw [openGroup_of_none hk, create_fst]
    exact Nat.ne_of_gt hlt

end InFlight

/-- The oldest finalization in flight leaves the others. -/
theorem land_oldest {c : Coordinator} (h : Sound c) {f : Finalization} {rest : List Finalization}
    (hf : c.inFlight = rest ++ [f]) : (c.land f.group).inFlight = rest := by
  have hdistinct := h.distinct
  rw [hf, List.map_append, List.map_singleton] at hdistinct
  have hne : ∀ x ∈ rest, x.group ≠ f.group := fun x hx =>
    (List.nodup_append.1 hdistinct).2.2 _ (List.mem_map_of_mem hx) _ (List.mem_singleton_self _)
  show (c.inFlight.eraseP fun x => x.group == f.group) = rest
  rw [hf, List.eraseP_append_right _ fun x hx => by simpa using hne x hx]
  simp

end Coordinator

/-- Results on their way from the groups that were handed over to whoever receives them: some are
received, some are in the buffer, some are held by sinks that wait; `fresh` is a finalization whose
sink was not asked yet. -/
structure Piped (capacity : Nat) (received : List Result) (a : Aggregator) (ch : Channel)
    (fresh : Option Finalization) (asked : List Finalization) : Prop where
  tracked : a.core.Tracked
  sink : a.sink = .channel ch
  opened : ch.closed = false
  room : ch.capacity = capacity
  bounded : ch.buffer.length ≤ capacity
  inFlight : a.core.inFlight = fresh.toList ++ asked
  waiting : ch.waiting = (asked.map Finalization.group).reverse
  order : a.core.deliveries.map Prod.snd =
    received ++ ch.buffer ++ (a.core.inFlight.map Finalization.result).reverse

namespace Piped
variable {capacity : Nat} {received : List Result} {a : Aggregator} {ch : Channel}
  {fresh : Option Finalization} {asked : List Finalization}

/-! ### Asking and releasing -/

theorem isWaiting_of_mem (h : Piped capacity received a ch fresh asked) {f : Finalization}
    (hf : f ∈ asked) : ch.isWaiting f.group = true := by
  rw [Channel.isWaiting, h.waiting, List.any_reverse]
  exact List.any_eq_true.2 ⟨f.group, List.mem_map_of_mem hf, BEq.rfl⟩

theorem isWaiting_fresh {f : Finalization} (h : Piped capacity received a ch (some f) asked) :
    ch.isWaiting f.group = false := by
  have hdistinct := h.tracked.sound.distinct
  rw [h.inFlight] at hdistinct
  have hnone := (List.nodup_cons.1 hdistinct).1
  rw [Channel.isWaiting, h.waiting, List.any_reverse]
  refine List.any_eq_false.2 fun id hid he => hnone ?_
  rwa [← eq_of_beq he]

/-- The sink is to be asked about what is fresh. -/
theorem unasked?_eq (h : Piped capacity received a ch fresh asked) : a.unasked? = fresh := by
  simp only [Aggregator.unasked?, h.sink, h.inFlight]
  cases fresh with
  | none =>
    refine List.find?_eq_none.2 fun f hf => ?_
    rw [h.isWaiting_of_mem hf]
    simp
  | some f =>
    refine List.find?_cons_of_pos ?_
    rw [h.isWaiting_fresh]
    rfl

/-- Something went on by itself: results moved along, and less is left to go on. -/
def Onward (capacity : Nat) (received : List Result) (a : Aggregator) (asked : List Finalization)
    (b : Aggregator) : Prop :=
  ∃ ch' fresh' asked', Piped capacity received b ch' fresh' asked' ∧
    Aggregator.owed b.core.inFlight + asked.length <
      Aggregator.owed a.core.inFlight + asked'.length ∧
    b.core.expired = a.core.expired

/-- A sink that sends is done, and the call that it held up goes on. -/
theorem sent {f : Finalization} {rest : List Finalization}
    (h : Piped capacity received a ch fresh asked) (hf : a.core.inFlight = rest ++ [f])
    (hroom : ch.hasRoom = true) {waiting : List Nat}
    (hwaiting : waiting = (rest.map Finalization.group).reverse) :
    Onward capacity received a asked {a with
      core := a.core.conclude f.group none
      sink := .channel {ch with buffer := ch.buffer ++ [f.result], waiting}} := by
  have hm : f ∈ a.core.inFlight := hf ▸ List.mem_concat_self
  obtain ⟨handed, hinFlight, hdeliveries⟩ :=
    Coordinator.conclude_handed h.tracked.sound hm none
  rw [Coordinator.land_oldest h.tracked.sound hf] at hinFlight
  refine ⟨_, handed, rest, ⟨?tracked, rfl, h.opened, h.room, ?bounded, hinFlight, hwaiting, ?order⟩,
    ?less, Coordinator.expired_conclude h.tracked.sound hm none⟩
  case tracked =>
    exact h.tracked.changes (Coordinator.conclude_changes h.tracked.sound f.group none)
  case bounded =>
    show (ch.buffer ++ [f.result]).length ≤ capacity
    rw [List.length_append]
    exact h.room ▸ Channel.hasRoom_eq_true.1 hroom
  case order =>
    show (a.core.conclude f.group none).deliveries.map Prod.snd =
      received ++ (ch.buffer ++ [f.result]) ++
        ((a.core.conclude f.group none).inFlight.map Finalization.result).reverse
    rw [hdeliveries, List.map_append, h.order, hf, hinFlight]
    cases handed <;> simp [Finalization.delivery]
  case less =>
    have howed := Coordinator.owed_conclude h.tracked.sound hm none
    have hlength := congrArg List.length (h.inFlight.symm.trans hf)
    rw [List.length_append, List.length_append, List.length_singleton] at hlength
    show Aggregator.owed (a.core.conclude f.group none).inFlight + _ < _
    omega

/-- The sink that waited longest is asked again. -/
theorem release?_eq {f : Finalization} {rest : List Finalization}
    (h : Piped capacity received a ch none (rest ++ [f])) :
    a.release? = if ch.hasRoom then some {a with
      core := a.core.conclude f.group none
      sink := .channel {ch with
        buffer := ch.buffer ++ [f.result], waiting := (rest.map Finalization.group).reverse}} else
      none := by
  have hf : a.core.inFlight = rest ++ [f] := h.inFlight
  have hm : f ∈ a.core.inFlight := hf ▸ List.mem_concat_self
  have hwaiting : ch.waiting = f.group :: (rest.map Finalization.group).reverse := by
    rw [h.waiting]
    simp
  simp only [Aggregator.release?, h.sink,
    Channel.release?_eq h.opened h.tracked.sound hm hwaiting]
  split <;> rfl

/-- A sink that is asked sends, if nobody waits and there is room, or else waits behind the
others. -/
theorem ask {f : Finalization} (h : Piped capacity received a ch (some f) asked) :
    Onward capacity received a asked (a.ask f) := by
  have hm : f ∈ a.core.inFlight := h.inFlight ▸ List.mem_cons_self ..
  have hrecorded : f.outlet.recorded = true := by
    obtain ⟨g, hg, -, houtlet, -⟩ := h.tracked.sound.carried f hm
    exact houtlet ▸ h.tracked.noted g (Roster.mem_of_group? hg)
  have hask : a.ask f =
      {a with core := (ch.send f a.core).2, sink := .channel (ch.send f a.core).1} := by
    simp only [Aggregator.ask, hrecorded, h.sink, Bool.not_true, Bool.false_eq_true, if_false]
  rw [hask]
  cases hsend : ch.waiting.isEmpty && ch.hasRoom with
  | true =>
    obtain ⟨hempty, hroom⟩ := Bool.and_eq_true_iff.1 hsend
    have hnone : ch.waiting = [] := List.isEmpty_iff.1 hempty
    obtain rfl : asked = [] := by
      have hwaiting := h.waiting
      rw [hnone] at hwaiting
      simpa using hwaiting.symm
    rw [Channel.send_first h.opened hnone hroom]
    have hf : a.core.inFlight = [] ++ [f] := h.inFlight
    exact h.sent hf hroom rfl
  | false =>
    rw [Channel.send_behind h.opened hsend]
    refine ⟨_, none, f :: asked,
      ⟨h.tracked, rfl, h.opened, h.room, h.bounded, h.inFlight, ?_, h.order⟩, ?_, rfl⟩
    · rw [h.waiting, List.map_cons, List.reverse_cons]
    · show Aggregator.owed a.core.inFlight + asked.length < _
      rw [List.length_cons]
      omega

/-- The sink that waited longest sends as soon as there is room. -/
theorem release (h : Piped capacity received a ch none asked) {b : Aggregator}
    (hb : a.release? = some b) : Onward capacity received a asked b := by
  rcases List.eq_nil_or_concat' asked with rfl | ⟨rest, f, rfl⟩
  · have hwaiting : ch.waiting = [] := h.waiting
    simp only [Aggregator.release?, h.sink, Channel.release?, hwaiting, Option.map_none] at hb
    cases hb
  · rw [h.release?_eq] at hb
    split at hb
    · next hroom =>
      obtain rfl := Option.some.inj hb
      exact h.sent h.inFlight hroom rfl
    · cases hb

/-- Whatever goes on by itself moves results along, and there is less to go on afterwards. -/
theorem progress (h : Piped capacity received a ch fresh asked) {b : Aggregator}
    (hb : a.flows? = some b) : Onward capacity received a asked b := by
  rw [Aggregator.flows?, h.unasked?_eq] at hb
  cases fresh with
  | some f =>
    obtain rfl := Option.some.inj hb
    exact h.ask
  | none => exact h.release hb

/-! ### Coming to rest -/

/-- Nobody waits at rest unless the buffer is full. -/
theorem of_rest (h : Piped capacity received a ch fresh asked) (hrest : a.flows? = none) :
    fresh = none ∧ (asked ≠ [] → ch.buffer.length = capacity) := by
  rw [Aggregator.flows?, h.unasked?_eq] at hrest
  cases fresh with
  | some f => cases hrest
  | none =>
    refine ⟨rfl, fun hne => ?_⟩
    obtain ⟨rest, f, rfl⟩ := (List.eq_nil_or_concat' asked).resolve_left hne
    have hstuck : a.release? = none := hrest
    rw [h.release?_eq] at hstuck
    split at hstuck
    · cases hstuck
    · next hfull =>
      rw [Channel.hasRoom_eq_true, h.room, Nat.not_lt] at hfull
      exact Nat.le_antisymm h.bounded hfull

/-- As many steps as are owed, the sinks that wait being asked already, lead to rest. -/
theorem flowWith (h : Piped capacity received a ch fresh asked) {n : Nat}
    (hn : Aggregator.owed a.core.inFlight ≤ n + asked.length) :
    (a.flowWith n).flows? = none ∧ (a.flowWith n).core.expired = a.core.expired ∧
      ∃ ch' asked', Piped capacity received (a.flowWith n) ch' none asked' ∧
        (asked' ≠ [] → ch'.buffer.length = capacity) := by
  induction n generalizing a ch fresh asked with
  | zero =>
    cases hb : a.flows? with
    | none =>
      obtain ⟨rfl, hfull⟩ := h.of_rest hb
      exact ⟨hb, rfl, ch, asked, h, hfull⟩
    | some b =>
      obtain ⟨ch', fresh', asked', hpiped, hless, -⟩ := h.progress hb
      have hle := Aggregator.two_mul_length_le_owed b.core.inFlight
      rw [hpiped.inFlight, List.length_append] at hle
      rw [hpiped.inFlight] at hless
      omega
  | succ n ih =>
    simp only [Aggregator.flowWith]
    cases hb : a.flows? with
    | none =>
      obtain ⟨rfl, hfull⟩ := h.of_rest hb
      exact ⟨hb, rfl, ch, asked, h, hfull⟩
    | some b =>
      obtain ⟨ch', fresh', asked', hpiped, hless, hexpired⟩ := h.progress hb
      obtain ⟨hrest, hexpired', hflowed⟩ := ih hpiped (by omega)
      exact ⟨hrest, hexpired'.trans hexpired, hflowed⟩

/-- Steps beyond those that are owed change nothing. -/
theorem flowWith_enough (h : Piped capacity received a ch fresh asked) {n m : Nat}
    (hn : Aggregator.owed a.core.inFlight ≤ n + asked.length) (hm : n ≤ m) :
    a.flowWith m = a.flowWith n := by
  induction n generalizing a ch fresh asked m with
  | zero => exact Aggregator.flowWith_rest (h.flowWith hn).1 m
  | succ n ih =>
    obtain ⟨k, rfl⟩ : ∃ k, m = k + 1 := Nat.exists_eq_succ_of_ne_zero (by omega)
    simp only [Aggregator.flowWith]
    cases hb : a.flows? with
    | none => rfl
    | some b =>
      obtain ⟨ch', fresh', asked', hpiped, hless, -⟩ := h.progress hb
      exact ih hpiped (by omega) (by omega)

end Piped

/-! ### Steps -/

/-- One thing that is done to an aggregator with a channel, or to the channel's other end. -/
inductive Step where
  | act (move : Move)
  /-- Results are received, up to a number. -/
  | receive (most : Nat)

namespace Step

/-- Whether a step is one that the channel takes itself. -/
def isConclusion : Step → Bool
  | .act move => move.isConclusion
  | .receive _ => false

/-- Do something and let go on whatever can; what was received is remembered. -/
def apply : List Result × Aggregator → Step → List Result × Aggregator
  | (received, a), .act move => (received, {a with core := move.apply a.core}.flow)
  | (received, a), .receive most =>
    match a.sink with
    | .prompt _ => (received, a)
    | .channel ch =>
      (received ++ (ch.receive most).1, {a with sink := .channel (ch.receive most).2}.flow)

end Step

/-- A pipe at rest: all sinks were asked, and they wait only before a full buffer. -/
def Resting (capacity : Nat) (received : List Result) (a : Aggregator) : Prop :=
  ∃ ch asked, Piped capacity received a ch none asked ∧
    (asked ≠ [] → ch.buffer.length = capacity)

namespace Piped
variable {capacity : Nat} {received : List Result} {a : Aggregator} {ch : Channel}
  {fresh : Option Finalization} {asked : List Finalization}

theorem flow (h : Piped capacity received a ch fresh asked) : Resting capacity received a.flow :=
  (h.flowWith (Nat.le_add_right ..)).2.2

/-- What is handed over stands behind everything else. -/
theorem moved (h : Piped capacity received a ch none asked) {move : Move}
    (hmove : move.isConclusion = false) :
    ∃ handed, Piped capacity received {a with core := move.apply a.core} ch handed asked := by
  obtain ⟨handed, hinFlight, hdeliveries⟩ := move.apply_handed h.tracked.sound hmove
  refine ⟨handed, h.tracked.apply move, h.sink, h.opened, h.room, h.bounded,
    hinFlight.trans (congrArg _ h.inFlight), h.waiting, ?_⟩
  show (move.apply a.core).deliveries.map Prod.snd =
    received ++ ch.buffer ++ ((move.apply a.core).inFlight.map Finalization.result).reverse
  rw [hdeliveries, List.map_append, h.order, hinFlight]
  cases handed <;> simp [Finalization.delivery]

/-- What is received was first in the buffer. -/
theorem taken (h : Piped capacity received a ch none asked) (most : Nat) :
    Piped capacity (received ++ (ch.receive most).1) {a with sink := .channel (ch.receive most).2}
      (ch.receive most).2 none asked := by
  refine ⟨h.tracked, rfl, h.opened, h.room, ?_, h.inFlight, h.waiting, ?_⟩
  · show (ch.buffer.drop most).length ≤ capacity
    rw [List.length_drop]
    exact Nat.le_trans (Nat.sub_le ..) h.bounded
  · show a.core.deliveries.map Prod.snd = received ++ ch.buffer.take most ++
      ch.buffer.drop most ++ (a.core.inFlight.map Finalization.result).reverse
    rw [h.order, List.append_assoc received (ch.buffer.take most), List.take_append_drop]

end Piped

namespace Resting
variable {capacity : Nat} {received : List Result} {a : Aggregator}

theorem start (settings : Settings) (metrics : Bool) (now : Instant) (capacity : Nat)
    (faults : Option FaultSink) (storage : Storage) :
    Resting capacity [] ⟨Coordinator.start settings metrics now,
      .channel (Channel.ofCapacity capacity), faults, storage⟩ :=
  ⟨_, [], ⟨Coordinator.tracked_start .., rfl, rfl, rfl, Nat.zero_le _, rfl, rfl, rfl⟩,
    fun h => absurd rfl h⟩

theorem step (h : Resting capacity received a) {s : Step} (hs : s.isConclusion = false) :
    Resting capacity (s.apply (received, a)).1 (s.apply (received, a)).2 := by
  obtain ⟨ch, asked, hpiped, -⟩ := h
  cases s with
  | act move =>
    obtain ⟨handed, hmoved⟩ := hpiped.moved hs
    exact hmoved.flow
  | receive most =>
    simp only [Step.apply, hpiped.sink]
    exact (hpiped.taken most).flow

theorem steps (h : Resting capacity received a) {steps : List Step}
    (hsteps : ∀ s ∈ steps, s.isConclusion = false) :
    Resting capacity (steps.foldl Step.apply (received, a)).1
      (steps.foldl Step.apply (received, a)).2 := by
  induction steps generalizing received a with
  | nil => exact h
  | cons s rest ih =>
    exact ih (h.step (hsteps s (List.mem_cons_self ..)))
      fun other hm => hsteps other (List.mem_cons_of_mem _ hm)

end Resting

/-! ### Settling -/

namespace Aggregator

theorem next?_eq (a : Aggregator) : a.next? =
    match a.flows? with
    | some b => some b
    | none =>
      match a.core.expired with
      | [] => none
      | _ :: _ => some {a with core := a.core.expireNext} := by
  unfold next? flows?
  cases a.unasked? with
  | some f => rfl
  | none => rfl

end Aggregator

/-- Handling a deadline that fired, as a step. -/
def Step.expire (d : Deadline) : Step :=
  .act (.expire d)

namespace Piped
variable {capacity : Nat} {received : List Result} {a : Aggregator} {ch : Channel}
  {fresh : Option Finalization} {asked : List Finalization}

/-- At rest, the deadline that fired first is handled in a step. -/
theorem expireNext (h : Piped capacity received a ch none asked) {d : Deadline}
    {rest : List Deadline} (hd : a.core.expired = d :: rest) :
    ∃ handed, Piped capacity received {a with core := a.core.expireNext} ch handed asked ∧
      a.core.expireNext = (Move.expire d).apply a.core ∧ a.core.expireNext.expired = rest ∧
      Aggregator.owed a.core.expireNext.inFlight ≤ Aggregator.owed a.core.inFlight + 2 := by
  have hmem : d ∈ a.core.expired := hd ▸ List.mem_cons_self ..
  have hnext : a.core.expireNext = (Move.expire d).apply a.core := by
    rw [Coordinator.expireNext_eq hd, Move.apply, if_pos hmem]
  have hexpired : a.core.expireNext.expired = rest := by
    rw [hnext, Coordinator.expired_apply_expire h.tracked.sound, hd, List.erase_cons_head]
  have hless := Coordinator.workload_expireNext h.tracked.sound hd
  rw [Coordinator.workload, Coordinator.workload, hexpired, hd, List.length_cons] at hless
  have hmove : (Move.expire d).isConclusion = false := rfl
  obtain ⟨handed, hmoved⟩ := h.moved hmove
  exact ⟨handed, hnext ▸ hmoved, hnext, hexpired, by omega⟩

/-- Running is letting go on whatever can, and handling what fired in steps. -/
theorem run_eq (h : Piped capacity received a ch fresh asked) {n fuel : Nat}
    (hn : Aggregator.owed a.core.inFlight ≤ n + asked.length)
    (hfuel : n + 3 * a.core.expired.length ≤ fuel) :
    (a.core.expired.map Step.expire).foldl Step.apply (received, a.flowWith n) =
      (received, a.run fuel) := by
  induction fuel generalizing a ch fresh asked n with
  | zero =>
    obtain rfl : n = 0 := by omega
    have hnone : a.core.expired = [] := List.length_eq_zero_iff.1 (by omega)
    rw [hnone]
    rfl
  | succ fuel ih =>
    rw [Aggregator.run, Aggregator.next?_eq]
    cases hb : a.flows? with
    | some b =>
      obtain ⟨ch', fresh', asked', hpiped, hless, hexpired⟩ := h.progress hb
      cases n with
      | zero =>
        have hrest : a.flows? = none := (h.flowWith hn).1
        rw [hb] at hrest
        cases hrest
      | succ n =>
        have hflow : a.flowWith (n + 1) = b.flowWith n := by simp only [Aggregator.flowWith, hb]
        rw [hflow, ← hexpired]
        exact ih hpiped (by omega) (by rw [hexpired]; omega)
    | none =>
      obtain ⟨rfl, -⟩ := h.of_rest hb
      rw [Aggregator.flowWith_rest hb]
      cases hd : a.core.expired with
      | nil => rfl
      | cons d rest =>
        obtain ⟨handed, hpiped, hnext, hrest, howed⟩ := h.expireNext hd
        rw [hd, List.length_cons] at hfuel
        have hn' : Aggregator.owed a.core.expireNext.inFlight ≤ n + 2 + asked.length := by omega
        have hrun := ih hpiped hn' (by rw [hrest]; omega)
        rw [hrest] at hrun
        rw [← hrun]
        -- Either number of steps is enough to come to rest.
        have hflow : ({a with core := a.core.expireNext} : Aggregator).flow =
            ({a with core := a.core.expireNext} : Aggregator).flowWith (n + 2) :=
          (hpiped.flowWith_enough (Nat.le_add_right ..) (Nat.le_add_left _ (n + 2))).symm.trans
            (hpiped.flowWith_enough hn' (Nat.le_add_right ..))
        rw [← hflow, hnext]
        rfl

/-- Settling is letting go on whatever can, and handling what fired in steps. -/
theorem settle_eq (h : Piped capacity received a ch fresh asked) :
    (a.core.expired.map Step.expire).foldl Step.apply (received, a.flow) =
      (received, a.settle) := by
  refine h.run_eq (Nat.le_add_right ..) ?_
  simp only [Aggregator.workload, h.sink]
  omega

end Piped

/-- Acting on an aggregator at rest is a step, and one for each deadline that has fired. -/
theorem Resting.act_eq {capacity : Nat} {received : List Result} {a : Aggregator}
    (h : Resting capacity received a) {move : Move} (hmove : move.isConclusion = false) :
    (Step.act move :: (move.apply a.core).expired.map Step.expire).foldl Step.apply (received, a) =
      (received, a.act fun c => move.apply c) := by
  obtain ⟨ch, asked, hpiped, -⟩ := h
  obtain ⟨handed, hmoved⟩ := hpiped.moved hmove
  exact hmoved.settle_eq

/-- Receiving from an aggregator at rest is a step, and one for each deadline that has fired. -/
theorem Resting.receive_eq {capacity : Nat} {received : List Result} {a : Aggregator}
    (h : Resting capacity received a) (most : Nat) :
    (Step.receive most :: a.core.expired.map Step.expire).foldl Step.apply (received, a) =
      (received ++ (a.receive most).1.getD [], (a.receive most).2) := by
  obtain ⟨ch, asked, hpiped, -⟩ := h
  have hreceive : a.receive most =
      (some (ch.receive most).1, {a with sink := .channel (ch.receive most).2}.settle) := by
    simp only [Aggregator.receive, hpiped.sink, hpiped.opened, Bool.false_eq_true, if_false]
  have happly : Step.apply (received, a) (.receive most) =
      (received ++ (ch.receive most).1, {a with sink := .channel (ch.receive most).2}.flow) := by
    simp only [Step.apply, hpiped.sink]
  rw [hreceive, List.foldl_cons, happly]
  exact (hpiped.taken most).settle_eq

/-! ### In order -/

/-- Whatever is done through the coordinator and at the channel's other end, in any order, what was
received, what is in the buffer and what is held by sinks that wait, the one that waited longest
first, is what the sink was handed, in the order in which it was. The buffer holds no more than it
may, and sinks wait only while it is full. A group that waits is registered no more and keeps its
messages, and whoever wants its key gets another group. Acting on the aggregator and receiving from
it are such steps, the deadlines that have fired being handled one after the other. -/
theorem channel_in_order (settings : Settings) (metrics : Bool) (now : Instant)
    (faults : Option FaultSink) (storage : Storage) (capacity : Nat) (steps : List Step)
    (received : List Result) (a : Aggregator) (hsteps : ∀ s ∈ steps, s.isConclusion = false)
    (hrun : steps.foldl Step.apply ([], ⟨Coordinator.start settings metrics now,
      .channel (Channel.ofCapacity capacity), faults, storage⟩) = (received, a)) :
    let suspended := a.core.inFlight.reverse
    (∃ ch, a.sink = .channel ch ∧
      received ++ ch.buffer ++ suspended.map Finalization.result =
        a.core.deliveries.map Prod.snd ∧
      suspended.map Finalization.group = ch.waiting ∧
      ch.buffer.length ≤ capacity ∧
      (suspended ≠ [] → ch.buffer.length = capacity)) ∧
    (∀ g ∈ a.core.roster.groups, g.completed = true →
      ∃ result, a.core.deliveriesOf g.id = [result] ∧ result.key = g.key) ∧
    (∀ f ∈ suspended,
      (∃ g, a.core.roster.group? f.group = some g ∧ g.completed = true ∧
        f.result.key = g.key ∧ f.result.messages = g.messages) ∧
      (∀ key, a.core.roster.registry.get? key ≠ some f.group) ∧
      ∀ key params, (a.core.openGroup key params).1.id ≠ f.group) ∧
    (∀ move, move.isConclusion = false →
      (Step.act move :: (move.apply a.core).expired.map Step.expire).foldl Step.apply
        (received, a) = (received, a.act fun c => move.apply c)) ∧
    ∀ most, (Step.receive most :: a.core.expired.map Step.expire).foldl Step.apply (received, a) =
      (received ++ (a.receive most).1.getD [], (a.receive most).2) := by
  intro suspended
  have hresting := (Resting.start settings metrics now capacity faults storage).steps hsteps
  rw [hrun] at hresting
  have ⟨ch, asked, hpiped, hfull⟩ := hresting
  have hs : a.core.Sound := hpiped.tracked.sound
  have hinFlight : a.core.inFlight = asked := hpiped.inFlight
  refine ⟨⟨ch, hpiped.sink, ?_, ?_, hpiped.bounded, fun hne => hfull ?_⟩, fun g hg hc => ?_,
    fun f hf => ?_, fun move hmove => hresting.act_eq hmove, hresting.receive_eq⟩
  · rw [List.map_reverse]
    exact hpiped.order.symm
  · rw [List.map_reverse, hinFlight]
    exact hpiped.waiting.symm
  · rintro rfl
    exact hne (congrArg List.reverse hinFlight)
  · exact hpiped.tracked.delivered.once g.id g (hs.tidy.group?_of_mem hg) hc
  · have hm : f ∈ a.core.inFlight := List.mem_reverse.1 hf
    obtain ⟨g, hg, hc, -, hkey, hmessages⟩ := hs.carried f hm
    exact ⟨⟨g, hg, hc, hkey, hmessages⟩, hs.unregistered hm, hs.openGroup_id_ne hm⟩

/-- A group that waits behind another one before a channel for one. -/
theorem channel_in_order_full :
    let m := Message.ofAction "m" "op" (Timestamp.ofMillis 0)
    let steps : List Step := [.act (.submit (.outside 0) "a" m ⟨0, 1, 0⟩),
      .act (.submit (.outside 1) "b" m ⟨0, 1, 0⟩), .receive 0]
    ∃ received a, (∀ s ∈ steps, s.isConclusion = false) ∧
      steps.foldl Step.apply ([], ⟨Coordinator.start ⟨"name", "sink", none, true⟩ false 0,
        .channel (Channel.ofCapacity 1), none, Storage.empty⟩) = (received, a) ∧
      a.core.inFlight.map Finalization.group = [2] ∧
      ∃ ch, a.sink = .channel ch ∧ ch.waiting = [2] ∧ ch.buffer.length = 1 := by
  intro m steps
  have hsteps : ∀ s ∈ steps, s.isConclusion = false := by decide
  have hgroups : (steps.foldl Step.apply ([], ⟨Coordinator.start ⟨"name", "sink", none, true⟩
      false 0, .channel (Channel.ofCapacity 1), none, Storage.empty⟩)).2.core.inFlight.map
        Finalization.group = [2] := by decide +kernel
  obtain ⟨last, hrun⟩ : ∃ last, steps.foldl Step.apply ([], ⟨Coordinator.start
      ⟨"name", "sink", none, true⟩ false 0, .channel (Channel.ofCapacity 1), none,
        Storage.empty⟩) = last := ⟨_, rfl⟩
  rw [hrun] at hgroups
  obtain ⟨received, a⟩ := last
  obtain ⟨⟨ch, hsink, -, hwaiting, -, hfull⟩, -⟩ := channel_in_order
    ⟨"name", "sink", none, true⟩ false 0 none Storage.empty 1 steps received a hsteps hrun
  have hsuspended : a.core.inFlight.reverse.map Finalization.group = [2] := by
    rw [List.map_reverse, hgroups]
    rfl
  have hne : a.core.inFlight.reverse ≠ [] := fun hnone => by
    rw [hnone] at hsuspended
    cases hsuspended
  exact ⟨received, a, hsteps, hrun, hgroups, ch, hsink, hwaiting.symm.trans hsuspended, hfull hne⟩

end Aggregation
