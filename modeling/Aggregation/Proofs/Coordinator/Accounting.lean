import Aggregation.Proofs.Coordinator.Stroke
import Mathlib.Algebra.Order.BigOperators.Group.List
import Mathlib.Algebra.Order.Group.Nat

/-! Metrics account for the run.

Groups are counted as they are created and as they are handed over, so the gauge of active groups
is what is registered, and completions, by trigger and by size, are what the sink was handed
(`Counts`); every change keeps this, as a change that creates or hands over a group also counts it.
Faults and late messages are counted with the answers and the refusals that they go with
(`audited_apply`). Together they say what the metrics are in every state of a run
(`metrics_account`). -/
namespace Aggregation

/-- The triggers, each once. -/
def Trigger.all : List Trigger :=
  [.declaredTotal, .minCount, .maxCount, .timeout, .forced]

/-- Whatever is told apart by trigger is counted once. -/
theorem sum_countP_trigger {α : Type} (trigger : α → Trigger) (xs : List α) :
    (Trigger.all.map fun t => xs.countP fun x => decide (trigger x = t)).sum = xs.length := by
  induction xs with
  | nil => rfl
  | cons x rest ih =>
    rw [List.length_cons, ← ih]
    simp only [Trigger.all, List.map_cons, List.map_nil, List.sum_cons, List.sum_nil,
      List.countP_cons]
    cases trigger x <;> simp <;> omega

namespace Coordinator

/-- How many messages each result held that the sink was handed. -/
def sizes (c : Coordinator) : List Nat :=
  c.deliveries.map fun d => d.2.messages.length

/-- What is registered is active, and what was handed over was completed. -/
structure Counted (c : Coordinator) (m : Metrics) : Prop where
  active : m.active = c.roster.registry.size
  created : m.created = c.deliveries.length + c.roster.registry.size
  completed : ∀ t, (m.completedCount t).1 = c.deliveries.countP fun d => decide (d.2.trigger = t)
  sizes : m.sizes = Histogram.ofSizes Metrics.bounds c.sizes

def Counts (c : Coordinator) : Prop :=
  ∃ m, c.metrics = some m ∧ Counted c m

theorem counts_start (settings : Settings) (now : Instant) : Counts (start settings true now) :=
  ⟨Metrics.empty, rfl, rfl, rfl, fun _ => rfl, rfl⟩

namespace Counts
variable {a b c : Coordinator}

/-- Counting faults and late messages makes no difference. -/
theorem congr (h : Counts a) {f : Metrics → Metrics} (hm : b.metrics = a.metrics.map f)
    (hf : ∀ m, ∃ faults late, f m = {m with faults, late})
    (hr : b.roster.registry = a.roster.registry) (hd : b.deliveries = a.deliveries) :
    Counts b := by
  obtain ⟨m, ha, hcounted⟩ := h
  obtain ⟨faults, late, hfm⟩ := hf m
  refine ⟨f m, by rw [hm, ha]; rfl, ?_, ?_, fun t => ?_, ?_⟩
  · rw [hfm, hr]
    exact hcounted.active
  · rw [hfm, hr, hd]
    exact hcounted.created
  · rw [hfm, hd]
    exact hcounted.completed t
  · rw [hfm, sizes, hd]
    exact hcounted.sizes

/-- Nothing that is counted is touched. -/
theorem of_metrics (h : Counts a) (hm : b.metrics = a.metrics)
    (hr : b.roster.registry = a.roster.registry) (hd : b.deliveries = a.deliveries) : Counts b :=
  h.congr (f := id) (by rw [hm, Option.map_id]; rfl) (fun m => ⟨m.faults, m.late, rfl⟩) hr hd

theorem create (h : Counts c) (hs : Sound c) {key : String} (params : Params)
    (hk : c.group? key = none) : Counts (c.create key params).2 := by
  obtain ⟨m, hm, hcounted⟩ := h
  have hsize : (c.create key params).2.roster.registry.size = c.roster.registry.size + 1 := by
    rw [create_roster]
    exact Registry.size_getOrCreate (hs.registry_none hk) _
  refine ⟨m.recordCreated, by rw [create_metrics, hm]; rfl, ?_, ?_, fun t => ?_, ?_⟩
  · rw [hsize, Int.natCast_add, ← hcounted.active]
    rfl
  · rw [hsize, deliveries_create, ← Nat.add_assoc, ← hcounted.created]
    rfl
  · rw [deliveries_create]
    exact hcounted.completed t
  · rw [sizes, deliveries_create]
    exact hcounted.sizes

/-- A group that is handed over is counted as completed and is registered no more. -/
theorem finalize (h : Counts c) (hs : Sound c) {key : String} {g x : Group}
    (hg : c.group? key = some g) (hid : x.id = g.id) (hk : x.key = g.key) (trigger : Trigger)
    (caller : Caller) : Counts (c.finalize x trigger caller) := by
  obtain ⟨m, hm, hcounted⟩ := h
  have hkey : x.key = key := hk.trans (hs.of_group? hg).2.1
  have hget : c.roster.registry.get? x.key = some x.id :=
    (hid ▸ hkey ▸ hs.tidy.registry_of_registered? hg)
  have hsize : c.roster.registry.size =
      (c.finalize x trigger caller).roster.registry.size + 1 := Registry.size_remove hget
  have hmetrics : (c.finalize x trigger caller).metrics =
      some (m.recordCompleted trigger x.messages.length) := congrArg (Option.map _) hm
  refine ⟨_, hmetrics, ?_, ?_, fun t => ?_, ?_⟩
  · show m.active - 1 = _
    rw [hcounted.active, hsize, Int.natCast_add]
    exact Int.add_sub_cancel _ _
  · show m.created = _
    rw [hcounted.created, deliveries_finalize, hsize, List.length_append, List.length_singleton]
    omega
  · rw [Metrics.completedCount_recordCompleted, hcounted.completed, deliveries_finalize,
      List.countP_append, List.countP_singleton]
    by_cases ht : trigger = t <;> simp [resultOf, ht]
  · show m.sizes.observe x.messages.length = _
    rw [hcounted.sizes, sizes, sizes, deliveries_finalize, List.map_append, List.map_singleton,
      Histogram.ofSizes_concat]
    rfl

end Counts

theorem release_metrics {c : Coordinator} {id : Nat} {g : Group}
    (hg : c.roster.group? id = some g) (refusal : Option String) :
    ∃ f : Metrics → Metrics, (c.release id refusal).metrics = c.metrics.map f ∧
      ∀ m, ∃ faults late, f m = {m with faults, late} := by
  simp only [release, hg]
  cases refusal with
  | none => exact ⟨fun m => m, Option.map_id'.symm ▸ rfl, fun m => ⟨m.faults, m.late, rfl⟩⟩
  | some cause =>
    refine ⟨fun m => m.recordFault (Fault.sinkFailed g.key g.outlet.sink cause []).kind, ?_,
      fun m => ⟨_, m.late, rfl⟩⟩
    simp only [reportRefusal]
    cases g.last <;> rfl

theorem Change.counts {a b : Coordinator} {l : List Message} (hs : Sound a) (hc : Change a l b)
    (h : Counts a) : Counts b := by
  cases hc with
  | answered he =>
    exact h.of_metrics rfl rfl (deliveries_record_none _ (delivery?_of_isAnswer he))
  | opened params hk => exact h.create hs params hk
  | kept hg _ _ => exact h.of_metrics rfl rfl (deliveries_record_none a rfl)
  | @filled key g m trigger caller hg _ _ _ =>
    have hr : Counts (a.record (.offered g m a.now)) :=
      h.of_metrics rfl rfl (deliveries_record_none a rfl)
    exact hr.finalize (hs.record _) (x := g.push m) hg rfl rfl trigger caller
  | @refused key g m _ _ =>
    exact h.congr (f := fun metrics => metrics.recordFault (g.fullFault m).kind) rfl
      (fun metrics => ⟨_, metrics.late, rfl⟩) rfl (deliveries_refused ..)
  | @forced key g caller hg _ =>
    have hr : Counts (a.remark g (g.claimTrigger a.now)) :=
      h.of_metrics (remark_metrics ..) (congrArg Roster.registry (remark_roster ..))
        (deliveries_remark ..)
    exact hr.finalize (hs.remark g _) ((group?_remark ..).trans hg) rfl rfl _ caller
  | @expired d g _ hg _ =>
    have hr : Counts ((a.take d).remark g (g.claimTrigger a.now)) :=
      h.of_metrics (remark_metrics (a.take d) ..)
        (congrArg Roster.registry (remark_roster (a.take d) ..)) (deliveries_remark (a.take d) ..)
    exact hr.finalize ((hs.take d).remark g _) ((group?_remark ..).trans hg) rfl rfl _ .expiry
  | @stale d _ _ =>
    exact h.of_metrics rfl rfl (deliveries_record_none (a.take d) rfl)
  | advanced ms =>
    refine h.of_metrics ?_ ?_ (deliveries_advance hs.swept ms)
    · rw [advance_eq hs.swept]
    · rw [advance_eq hs.swept]
  | @released f hf refusal =>
    obtain ⟨g, hg, -⟩ := hs.group_landed hf
    obtain ⟨count, hmetrics, hcount⟩ := release_metrics hg refusal
    refine h.congr hmetrics hcount ?_ (deliveries_release hg refusal)
    rw [release_roster hg refusal]
    rfl

theorem counts_run {c : Coordinator} (hs : Sound c) (h : Counts c) (moves : List Move) :
    Counts (run c moves) := by
  refine run_keeps (fun move _ _ hs h => ?_) hs h
  exact apply_keeps move Change.counts (fun _ _ h => h.of_metrics rfl rfl rfl)
    (fun _ _ _ _ _ _ _ _ h => h.of_metrics rfl rfl rfl) hs h

end Coordinator

/-! ### Faults and late messages -/

/-- How many sinks refuse in a move. -/
def Move.refusals (c : Coordinator) : Move → Nat
  | .conclude id (some _) => if c.inFlight.any (fun f => f.group == id) then 1 else 0
  | _ => 0

namespace Coordinator

/-- How many sinks refused in a run. -/
def refusals (c : Coordinator) : List Move → Nat
  | [] => 0
  | move :: rest => move.refusals c + refusals (move.apply c) rest

theorem audited_conclude {c : Coordinator} {n : Nat} (hs : Sound c) (h : Audited c n) (id : Nat)
    (refusal : Option String) :
    Audited (c.conclude id refusal) (n + (Move.conclude id refusal).refusals c) := by
  rcases conclude_stroke hs id refusal with ⟨hnone, hsame⟩ | ⟨f, handed, hf, rfl, hstroke⟩
  · have hany : c.inFlight.any (fun f => f.group == id) = false := by simpa using hnone
    rw [hsame]
    cases refusal with
    | none => exact h
    | some cause =>
      simp only [Move.refusals, hany, Bool.false_eq_true, if_false]
      exact h
  · obtain ⟨g, hg, -⟩ := hs.group_landed hf
    have hland : Audited (c.land f.group) n := h.of_history rfl rfl
    have hany : c.inFlight.any (fun x => x.group == f.group) = true :=
      List.any_eq_true.2 ⟨f, hf, BEq.rfl⟩
    have hrefusals : (Move.conclude f.group refusal).refusals c =
        if refusal.isSome then 1 else 0 := by
      cases refusal with
      | none => rfl
      | some cause => simp only [Move.refusals, hany, if_true, Option.isSome_some]
    rw [hrefusals]
    exact hstroke.audited _ (audited_release hg hland refusal)

theorem audited_apply {c : Coordinator} {n : Nat} (hs : Sound c) (h : Audited c n) (move : Move) :
    Audited (move.apply c) (n + move.refusals c) := by
  cases hconclusion : move.isConclusion with
  | true =>
    obtain ⟨id, refusal, rfl⟩ := Move.eq_conclude hconclusion
    exact audited_conclude hs h id refusal
  | false =>
    have hnone : move.refusals c = 0 := by
      cases move with
      | conclude => cases hconclusion
      | _ => rfl
    rw [hnone, Nat.add_zero]
    cases hadvance : move.isAdvance with
    | true =>
      obtain ⟨ms, rfl⟩ := Move.eq_advance hadvance
      exact audited_advance hs h ms
    | false =>
      obtain ⟨handed, hstroke⟩ := move.apply_stroke hs hconclusion hadvance
      exact hstroke.audited n h

theorem audited_run {c : Coordinator} {n : Nat} (hs : Sound c) (h : Audited c n)
    (moves : List Move) : Audited (run c moves) (n + refusals c moves) := by
  induction moves generalizing c n with
  | nil => exact h
  | cons move rest ih =>
    have hrest := ih (hs.apply move) (audited_apply hs h move)
    rwa [Nat.add_assoc] at hrest

/-! ### The account of a run -/

/-- In every state of a run, active groups are those registered, created ones those that were
completed or are registered; completed ones are what the sink was handed, by trigger and by size;
and faults and late messages are the admissions answered so and the sinks that refused. -/
theorem metrics_account (settings : Settings) (now : Instant) (moves : List Move)
    (hexact : (run (start settings true now) moves).sizes.sum < 2 ^ 53) :
    let first := start settings true now
    let c := run first moves
    ∃ m, c.metrics = some m ∧
      m.active = c.roster.registry.size ∧
      m.created = (Trigger.all.map fun t => (m.completedCount t).1).sum + c.roster.registry.size ∧
      (∀ t, (m.completedCount t).1 = c.deliveries.countP fun d => decide (d.2.trigger = t)) ∧
      m.sizes.count = c.deliveries.length ∧
      m.sizes.sum = (c.deliveries.map fun d => d.2.messages.length).sum ∧
      m.sizes.buckets = (Metrics.bounds.map fun bound =>
        (bound, c.deliveries.countP fun d => decide (d.2.messages.length ≤ bound))) ∧
      m.faultCount "group_full" = (c.outcomes.countP fun x => x.2.isRejected) ∧
      m.faultCount "sink_failed" = refusals first moves ∧
      m.late = (c.outcomes.countP fun x => x.2.isLate) := by
  intro first c
  have hstart := sound_start settings true now
  obtain ⟨m, hm, hcounted⟩ := counts_run hstart (counts_start settings now) moves
  obtain ⟨m', hm', hfull, hrefused, hlate⟩ := audited_run hstart (audited_start settings now) moves
  obtain rfl : m = m' := Option.some.inj (hm.symm.trans hm')
  have hsmall : ∀ n ∈ c.sizes, n < 2 ^ 53 := fun n hn =>
    Nat.lt_of_le_of_lt (List.le_sum_of_mem hn) hexact
  refine ⟨m, hm, hcounted.active, ?_, hcounted.completed, ?_, ?_, ?_, hfull, ?_, hlate⟩
  · simp only [hcounted.completed, sum_countP_trigger]
    exact hcounted.created
  · rw [hcounted.sizes, Histogram.ofSizes_count, sizes, List.length_map]
  · rw [hcounted.sizes, Histogram.ofSizes_sum hexact]
    rfl
  · rw [hcounted.sizes, Histogram.ofSizes_buckets hsmall]
    simp only [sizes, List.countP_map]
    rfl
  · rw [hrefused, Nat.zero_add]

/-- One group is completed by its only message and refused, another one is open. -/
theorem metrics_account_refused :
    let m := Message.ofAction "m" "op" (Timestamp.ofMillis 0)
    let moves : List Move :=
      [.submit (.outside 0) "k" m ⟨0, 1, 0⟩, .conclude 1 (some "full"), .openGroup "q" .none]
    let first := start ⟨"name", "sink", none, true⟩ true 0
    (run first moves).sizes.sum < 2 ^ 53 ∧
      ∃ m, (run first moves).metrics = some m ∧ m.active = 1 ∧ m.sizes.sum = 1 ∧
        m.faultCount "sink_failed" = 1 := by
  intro m moves first
  have hsizes : (run first moves).sizes = [1] := by decide +kernel
  have hexact : (run first moves).sizes.sum < 2 ^ 53 := by rw [hsizes]; decide
  obtain ⟨metrics, hm, hactive, -, -, -, hsum, -, -, hrefused, -⟩ :=
    metrics_account ⟨"name", "sink", none, true⟩ 0 moves hexact
  have hsize : (run first moves).roster.registry.size = 1 := by decide +kernel
  have hrefusals : refusals first moves = 1 := by decide +kernel
  refine ⟨hexact, metrics, hm, ?_, hsum.trans ?_, hrefused.trans hrefusals⟩
  · rw [hactive]
    exact congrArg _ hsize
  · exact congrArg List.sum hsizes

end Coordinator

end Aggregation
