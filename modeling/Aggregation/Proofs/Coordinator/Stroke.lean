import Aggregation.Proofs.Coordinator.Answers
import Aggregation.Proofs.Coordinator.Deliveries
import Aggregation.Proofs.Metrics

/-! What is done in one stroke.

Whatever a caller asks for is done in one stroke, up to the point at which somebody has to wait:
time stands still, at most one group is handed to its sink, and the counters of faults and of late
messages move with the answers. A sink's answer sets off a stroke too, once its group is released
(`resume_stroke`). Only the clock does anything else (`advance_inFlight`, `deliveries_advance`). -/
namespace Aggregation

/-- Whether an outcome is that the group was full. -/
def Outcome.isRejected : Outcome → Bool
  | .rejected => true
  | _ => false

/-- Whether an outcome is that the group was completed meanwhile. -/
def Outcome.isLate : Outcome → Bool
  | .late _ => true
  | _ => false

/-- Whether an event answers that a message was turned away. -/
def Event.turnsAway : Event → Bool
  | .answered _ (.outcome outcome) => outcome.isRejected || outcome.isLate
  | _ => false

/-- What a finalization was handed over as. -/
def Finalization.delivery (f : Finalization) : Nat × Result :=
  (f.group, f.result)

namespace Coordinator

/-! ### Counters of faults -/

/-- How many admissions were answered that their group was full. -/
def rejections (c : Coordinator) : Nat :=
  c.outcomes.countP fun x => x.2.isRejected

/-- How many admissions were answered that their group was completed meanwhile. -/
def latecomers (c : Coordinator) : Nat :=
  c.outcomes.countP fun x => x.2.isLate

/-- Faults are counted as they happen: one for each message that was rejected, one for each sink
that refused, of which there were `refused`; and so are late messages. -/
def Audited (c : Coordinator) (refused : Nat) : Prop :=
  ∃ m, c.metrics = some m ∧ m.faultCount "group_full" = c.rejections ∧
    m.faultCount "sink_failed" = refused ∧ m.late = c.latecomers

theorem audited_start (settings : Settings) (now : Instant) :
    Audited (start settings true now) 0 :=
  ⟨Metrics.empty, rfl, rfl, rfl, rfl⟩

theorem turnedAway_record (c : Coordinator) {e : Event} (he : e.turnsAway = false) :
    (c.record e).rejections = c.rejections ∧ (c.record e).latecomers = c.latecomers := by
  simp only [rejections, latecomers, outcomes_record, List.countP_append]
  cases e with
  | answered call answer =>
    cases answer with
    | outcome outcome =>
      simp only [Event.turnsAway, Bool.or_eq_false_iff] at he
      simp [Event.outcome?, he.1, he.2]
    | _ => exact ⟨rfl, rfl⟩
  | _ => exact ⟨rfl, rfl⟩

/-- Counting what is no fault and turning nobody away leaves the account alone. -/
theorem Audited.congr {a b : Coordinator} {n : Nat} (h : Audited a n) {f : Metrics → Metrics}
    (hm : b.metrics = a.metrics.map f) (hfaults : ∀ m, (f m).faults = m.faults)
    (hlate : ∀ m, (f m).late = m.late) (hr : b.rejections = a.rejections)
    (hl : b.latecomers = a.latecomers) : Audited b n := by
  obtain ⟨m, ha, hfull, hrefused, hlates⟩ := h
  refine ⟨f m, by rw [hm, ha]; rfl, ?_, ?_, ?_⟩
  · rw [Metrics.faultCount, hfaults, hr]
    exact hfull
  · rw [Metrics.faultCount, hfaults]
    exact hrefused
  · rw [hlate, hl]
    exact hlates

/-- Nothing that the account is about is touched. -/
theorem Audited.of_history {a b : Coordinator} {n : Nat} (h : Audited a n)
    (hm : b.metrics = a.metrics) (hh : b.outcomes = a.outcomes) : Audited b n :=
  h.congr (f := id) (by rw [hm, Option.map_id]; rfl) (fun _ => rfl) (fun _ => rfl)
    (by simp only [rejections, hh]) (by simp only [latecomers, hh])

theorem Audited.record {c : Coordinator} {n : Nat} (h : Audited c n) {e : Event}
    (he : e.turnsAway = false) : Audited (c.record e) n :=
  h.congr (b := c.record e) (f := id) (by rw [Option.map_id]; rfl) (fun _ => rfl) (fun _ => rfl)
    (turnedAway_record c he).1 (turnedAway_record c he).2

/-! ### Strokes -/

/-- What holds of anything that is done in one stroke. -/
structure Stroke (a : Coordinator) (handed : Option Finalization) (b : Coordinator) : Prop where
  now : b.now = a.now
  inFlight : b.inFlight = handed.toList ++ a.inFlight
  deliveries : b.deliveries = a.deliveries ++ handed.toList.map Finalization.delivery
  audited : ∀ n, Audited a n → Audited b n

namespace Stroke
variable {a b c : Coordinator} {handed : Option Finalization}

theorem refl (c : Coordinator) : Stroke c none c :=
  ⟨rfl, rfl, (List.append_nil _).symm, fun _ h => h⟩

theorem trans (h : Stroke a none b) (h' : Stroke b handed c) : Stroke a handed c := by
  refine ⟨h'.now.trans h.now, ?_, ?_, fun n ha => h'.audited n (h.audited n ha)⟩
  · rw [h'.inFlight, h.inFlight]
    rfl
  · rw [h'.deliveries, h.deliveries]
    simp

/-- Nothing that a stroke is about is touched. -/
theorem congr (hnow : b.now = a.now) (hf : b.inFlight = a.inFlight)
    (hh : b.history = a.history) (hm : b.metrics = a.metrics) : Stroke a none b :=
  ⟨hnow, hf, by simp [Coordinator.deliveries, hh], fun _ h =>
    h.of_history hm (by simp only [outcomes, hh])⟩

theorem record (c : Coordinator) {e : Event} (hd : e.delivery? = none)
    (he : e.turnsAway = false) : Stroke c none (c.record e) :=
  ⟨rfl, rfl, by rw [deliveries_record, hd]; rfl, fun _ h => h.record he⟩

theorem remark (c : Coordinator) (g : Group) (trigger : Trigger) :
    Stroke c none (c.remark g trigger) := by
  unfold Coordinator.remark
  split
  · exact record c rfl rfl
  · exact refl c

theorem take (c : Coordinator) (d : Deadline) : Stroke c none (c.take d) :=
  congr rfl rfl rfl rfl

theorem setGroup (c : Coordinator) (g : Group) : Stroke c none (c.setGroup g) :=
  congr rfl rfl rfl rfl

theorem create (c : Coordinator) (key : String) (params : Params) :
    Stroke c none (c.create key params).2 := by
  refine ⟨create_now .., create_inFlight .., ?_, fun n h => ?_⟩
  · rw [deliveries_create]
    exact (List.append_nil _).symm
  · refine h.congr (create_metrics c key params) (fun _ => rfl) (fun _ => rfl) ?_ ?_
    · simp only [rejections, outcomes_create]
    · simp only [latecomers, outcomes_create]

/-- A group that is completed is handed over. -/
theorem finalize (c : Coordinator) (g : Group) (trigger : Trigger) (caller : Caller) :
    Stroke c (some ⟨g.id, g.outlet, resultOf g trigger, caller⟩) (c.finalize g trigger caller) := by
  refine ⟨rfl, finalize_inFlight .., deliveries_finalize .., fun n h => ?_⟩
  have houtcomes : (c.finalize g trigger caller).outcomes = c.outcomes :=
    (outcomes_record _ _).trans (List.append_nil _)
  refine h.congr (f := fun m => m.recordCompleted trigger g.messages.length) rfl (fun _ => rfl)
    (fun _ => rfl) ?_ ?_
  · simp only [rejections, houtcomes]
  · simp only [latecomers, houtcomes]

/-- A message that is rejected is counted and answered. -/
theorem rejected (c : Coordinator) (outlet : Outlet) (m : Message) {f : Fault}
    (hf : f.kind = "group_full") (call : Call) :
    Stroke c none ((c.fault outlet m f).record (.answered call (.outcome .rejected))) := by
  refine ⟨rfl, rfl, ?_, ?_⟩
  · rw [deliveries_record, deliveries_fault]
    rfl
  · rintro n ⟨metrics, hm, hfull, hrefused, hlate⟩
    have houtcomes : ((c.fault outlet m f).record (.answered call (.outcome .rejected))).outcomes =
        c.outcomes ++ [(call, .rejected)] := by
      rw [outcomes_record, outcomes_fault]
      rfl
    refine ⟨metrics.recordFault f.kind, ?_, ?_, ?_, ?_⟩
    · show c.metrics.map _ = _
      rw [hm]
      rfl
    · rw [Metrics.faultCount_recordFault, hfull, hf, if_pos rfl]
      simp [rejections, houtcomes, Outcome.isRejected]
    · rw [Metrics.faultCount_recordFault, hrefused, hf, if_neg (by decide)]
      rfl
    · simp only [latecomers, houtcomes, List.countP_append] at hlate ⊢
      exact hlate

end Stroke

/-! ### What callers do -/

section Callers
variable {c : Coordinator} {key : String} {g : Group} {m : Message} {params : Params}

theorem settleAdmission_stroke (h : Sound c) (call : Call) (hg : c.group? key = some g) :
    ∃ handed, Stroke c handed (settleAdmission call (c.place key m params)) := by
  cases hr : g.hasCapacity with
  | false =>
    rw [place_full h hg hr]
    have hoffered : Stroke c none ((c.record (.offered g m c.now)).record
        (.rejected key (g.fullFault m))) := (Stroke.record c rfl rfl).trans (.record _ rfl rfl)
    exact ⟨none, hoffered.trans (.rejected _ g.outlet m rfl call)⟩
  | true =>
    have hoffered : Stroke c none (c.record (.offered g m c.now)) := .record c rfl rfl
    cases he : g.policy.evaluate (g.messages ++ [m]) c.now with
    | incomplete =>
      rw [place_pending h hg hr he]
      exact ⟨none, (hoffered.trans (.setGroup _ _)).trans (.record _ rfl rfl)⟩
    | complete trigger =>
      rw [place_claimed h hg hr he]
      exact ⟨_, hoffered.trans (.finalize _ (g.push m) trigger (.admission call))⟩

theorem submit_stroke (h : Sound c) (call : Call) (key : String) (m : Message) (params : Params) :
    ∃ handed, Stroke c handed (c.submit call key m params) := by
  cases hk : c.group? key with
  | some g => exact settleAdmission_stroke h call hk
  | none =>
    have hg := h.group?_create_self params hk
    rw [submit, place_create h hk]
    obtain ⟨handed, hstroke⟩ := settleAdmission_stroke (m := m) (h.create params hk) call hg
    exact ⟨handed, (Stroke.create c key params).trans hstroke⟩

theorem submitCorrelated_stroke (h : Sound c) (call : Call) (m : Message) (params : Params) :
    ∃ handed, Stroke c handed (c.submitCorrelated call m params) := by
  simp only [submitCorrelated, placeCorrelated]
  cases m.correlationKey? c.settings.aggregator with
  | some key => exact submit_stroke h call key m params
  | none => exact ⟨none, (Stroke.record c rfl rfl).trans (.record _ rfl rfl)⟩

theorem openGroup_stroke (h : Sound c) (key : String) (params : Params) :
    Stroke c none (c.openGroup key params).2 := by
  cases hk : c.group? key with
  | some g =>
    rw [openGroup_of_group h hk]
    exact .refl c
  | none =>
    rw [openGroup_of_none hk]
    exact .create c key params

/-- A group that is completed by force is handed over. -/
theorem forced_stroke (c : Coordinator) (g : Group) (trigger : Trigger) (caller : Caller) :
    ∃ handed, Stroke c handed ((c.remark g trigger).finalize g trigger caller) :=
  ⟨_, (Stroke.remark c g trigger).trans (.finalize _ g trigger caller)⟩

theorem force_stroke (h : Sound c) (call : Call) (key : String) :
    ∃ handed, Stroke c handed (c.force call key) := by
  simp only [force]
  cases hg : c.group? key with
  | none => exact ⟨none, (Stroke.record c rfl rfl).trans (.record _ rfl rfl)⟩
  | some g =>
    simp only [claim_collecting (h.of_group? hg).2.2]
    exact forced_stroke c g _ (.force call)

theorem forceEach_stroke (c : Coordinator) (call : Call) (done : Nat) (rest : List Nat) :
    ∃ handed, Stroke c handed (forceEach call done rest c) := by
  rcases forceEach_eq c call done rest with ⟨-, hanswer⟩ | ⟨_, x, left, -, -, -, -, hclaim⟩
  · rw [hanswer]
    exact ⟨none, .record c rfl rfl⟩
  · rw [hclaim]
    exact forced_stroke c x _ (.drain call done left)

theorem expire_stroke (h : Sound c) (d : Deadline) :
    ∃ handed, Stroke c handed (c.expire d) := by
  by_cases hlive : ∃ g, c.group? d.key = some g ∧ g.id = d.group
  · obtain ⟨g, hg, hid⟩ := hlive
    rw [expire_live h hg hid]
    exact forced_stroke c g _ .expiry
  · rw [expire_stale fun g hg hid => hlive ⟨g, hg, hid⟩]
    exact ⟨none, .record c rfl rfl⟩

/-- Whoever waited for a finalization goes on in one stroke. -/
theorem resume_stroke (c : Coordinator) (trigger : Trigger) {caller : Caller}
    (hcaller : caller.isSingle = true) :
    ∃ handed, Stroke c handed (c.resume trigger caller) := by
  cases caller with
  | admission call => exact ⟨none, .record c rfl rfl⟩
  | siblings call params done rest => cases hcaller
  | force call => exact ⟨none, .record c rfl rfl⟩
  | drain call done rest => exact forceEach_stroke c call (done + 1) rest
  | expiry => exact ⟨none, .refl c⟩

end Callers

end Coordinator

/-! ### Moves -/

namespace Move

/-- Whether a move is a sink's answer. -/
def isConclusion : Move → Bool
  | .conclude _ _ => true
  | _ => false

/-- Whether a move is that time passes. -/
def isAdvance : Move → Bool
  | .advance _ => true
  | _ => false

theorem eq_conclude {move : Move} (h : move.isConclusion = true) :
    ∃ id refusal, move = .conclude id refusal := by
  cases move with
  | conclude id refusal => exact ⟨id, refusal, rfl⟩
  | _ => cases h

theorem eq_advance {move : Move} (h : move.isAdvance = true) : ∃ ms, move = .advance ms := by
  cases move with
  | advance ms => exact ⟨ms, rfl⟩
  | _ => cases h

/-- Callers' moves are made in one stroke each. -/
theorem apply_stroke {c : Coordinator} (h : c.Sound) (move : Move)
    (hconclusion : move.isConclusion = false) (hadvance : move.isAdvance = false) :
    ∃ handed, Coordinator.Stroke c handed (move.apply c) := by
  cases move with
  | submit call key m params => exact Coordinator.submit_stroke h call key m params
  | submitCorrelated call m params => exact Coordinator.submitCorrelated_stroke h call m params
  | openGroup key params => exact ⟨none, Coordinator.openGroup_stroke h key params⟩
  | force call key => exact Coordinator.force_stroke h call key
  | drain call order => exact Coordinator.forceEach_stroke c call 0 _
  | advance ms => cases hadvance
  | expire d =>
    simp only [apply]
    split
    · obtain ⟨handed, hstroke⟩ := Coordinator.expire_stroke (h.take d) d
      exact ⟨handed, (Coordinator.Stroke.take c d).trans hstroke⟩
    · exact ⟨none, .refl c⟩
  | conclude id refusal => cases hconclusion
  | stop => exact ⟨none, .congr rfl rfl rfl rfl⟩
  | add id m =>
    simp only [apply]
    cases c.roster.group? id with
    | none => exact ⟨none, .refl c⟩
    | some g => exact ⟨none, .setGroup c _⟩

end Move

namespace Coordinator

/-- A sink that is waited for answers, and whoever waited goes on in one stroke. -/
theorem conclude_stroke {c : Coordinator} (h : Sound c) (id : Nat) (refusal : Option String) :
    ((∀ f ∈ c.inFlight, f.group ≠ id) ∧ c.conclude id refusal = c) ∨
      ∃ f handed, f ∈ c.inFlight ∧ f.group = id ∧
        Stroke ((c.land id).release id refusal) handed (c.conclude id refusal) := by
  simp only [conclude]
  cases hf : c.inFlight.find? fun f => f.group == id with
  | none => exact .inl ⟨fun f hm => by simpa using List.find?_eq_none.1 hf f hm, rfl⟩
  | some f =>
    have hm := List.mem_of_find?_eq_some hf
    have hid : f.group = id := by simpa using List.find?_some hf
    obtain ⟨handed, hstroke⟩ := resume_stroke ((c.land id).release id refusal) f.result.trigger
      (h.single f hm)
    exact .inr ⟨f, handed, hm, hid, hstroke⟩

end Coordinator

/-- Only the clock moves the time. -/
theorem Move.apply_now {c : Coordinator} (h : c.Sound) (move : Move)
    (hadvance : move.isAdvance = false) : (move.apply c).now = c.now := by
  cases hconclusion : move.isConclusion with
  | false =>
    obtain ⟨handed, hstroke⟩ := move.apply_stroke h hconclusion hadvance
    exact hstroke.now
  | true =>
    obtain ⟨id, refusal, rfl⟩ := Move.eq_conclude hconclusion
    rcases Coordinator.conclude_stroke h id refusal with
      ⟨-, hsame⟩ | ⟨f, handed, hf, rfl, hstroke⟩
    · exact congrArg Coordinator.now hsame
    · obtain ⟨g, hg, -⟩ := h.group_landed hf
      exact hstroke.now.trans (Coordinator.release_now hg refusal)

/-! ### What is handed over -/

theorem Coordinator.advance_inFlight {c : Coordinator} (h : c.scheduler.sweep = []) (ms : Nat) :
    (c.advance ms).inFlight = c.inFlight := by
  rw [advance_eq h]

/-- A move that is no sink's answer hands over one group at most. -/
theorem Move.apply_handed {c : Coordinator} (h : c.Sound) (move : Move)
    (hconclusion : move.isConclusion = false) : ∃ handed : Option Finalization,
      (move.apply c).inFlight = handed.toList ++ c.inFlight ∧
        (move.apply c).deliveries = c.deliveries ++ handed.toList.map Finalization.delivery := by
  cases hadvance : move.isAdvance with
  | true =>
    obtain ⟨ms, rfl⟩ := Move.eq_advance hadvance
    exact ⟨none, Coordinator.advance_inFlight h.swept ms,
      (Coordinator.deliveries_advance h.swept ms).trans (List.append_nil _).symm⟩
  | false =>
    obtain ⟨handed, hstroke⟩ := move.apply_stroke h hconclusion hadvance
    exact ⟨handed, hstroke.inFlight, hstroke.deliveries⟩

/-- A sink's answer hands over one group at most, by whoever waited for it. -/
theorem Coordinator.conclude_handed {c : Coordinator} (h : c.Sound) {f : Finalization}
    (hf : f ∈ c.inFlight) (refusal : Option String) : ∃ handed : Option Finalization,
      (c.conclude f.group refusal).inFlight = handed.toList ++ (c.land f.group).inFlight ∧
        (c.conclude f.group refusal).deliveries =
          c.deliveries ++ handed.toList.map Finalization.delivery := by
  rcases conclude_stroke h f.group refusal with ⟨hnone, -⟩ | ⟨x, handed, hx, -, hstroke⟩
  · exact absurd rfl (hnone f hf)
  · obtain ⟨g, hg, -⟩ := h.group_landed hf
    refine ⟨handed, ?_, ?_⟩
    · rw [hstroke.inFlight, release_inFlight hg]
    · rw [hstroke.deliveries, deliveries_release hg]
      rfl

namespace Coordinator

/-! ### Sinks and the clock -/

theorem audited_advance {c : Coordinator} (h : Sound c) {n : Nat} (ha : Audited c n) (ms : Nat) :
    Audited (c.advance ms) n := by
  refine ha.of_history (by rw [advance_eq h.swept]) ?_
  rw [advance_eq h.swept]
  simp only [outcomes, List.filterMap_append, List.filterMap_map]
  exact List.append_right_eq_self.2 (List.filterMap_eq_nil_iff.2 fun _ _ => rfl)

/-- Counting a sink's refusal. -/
theorem Audited.refused {c : Coordinator} {n : Nat} (h : Audited c n) {f : Fault}
    (hf : f.kind = "sink_failed") : Audited (c.count fun m => m.recordFault f.kind) (n + 1) := by
  obtain ⟨m, hm, hfull, hrefused, hlate⟩ := h
  refine ⟨m.recordFault f.kind, ?_, ?_, ?_, hlate⟩
  · show c.metrics.map _ = _
    rw [hm]
    rfl
  · rw [Metrics.faultCount_recordFault, hf, if_neg (by decide)]
    exact hfull
  · rw [Metrics.faultCount_recordFault, hrefused, hf, if_pos rfl]

/-- A refusal is counted once. -/
theorem audited_release {c : Coordinator} {id n : Nat} {g : Group}
    (hg : c.roster.group? id = some g) (h : Audited c n) (refusal : Option String) :
    Audited (c.release id refusal) (n + if refusal.isSome then 1 else 0) := by
  simp only [release, hg]
  cases refusal with
  | none => exact (Stroke.setGroup c g.clear).audited n h
  | some cause =>
    refine (Stroke.setGroup _ g.clear).audited _ ?_
    simp only [reportRefusal, fault]
    cases g.last with
    | error _ => exact (h.refused rfl).record rfl
    | ok m =>
      refine (h.refused rfl).record ?_
      split <;> rfl

end Coordinator

end Aggregation
