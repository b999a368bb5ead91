import Aggregation.Proofs.Coordinator.Retirement
import Aggregation.Proofs.Coordinator.Stroke

/-! Who waits, and what he is answered.

An act is done for a call, for the clock or for nobody in particular; a sink's answer is acted upon
for the call whose finalization it concludes. Whatever is done for a call either answers it at once,
and never that its message is late, or leaves it waiting for one sink (`Act.serves`). So each call
is answered once or waits for one sink (`apart_apply`), and no admission is ever late
(`after_timely`). -/
namespace Aggregation

deriving instance DecidableEq for Call

open Custody

/-- The call that waits for a finalization. -/
def Caller.call? : Caller → Option Call
  | .admission call | .siblings call _ _ _ | .force call | .drain call _ _ => some call
  | .expiry => none

def Event.answer? : Event → Option (Call × Answer)
  | .answered call answer => some (call, answer)
  | _ => none

/-- Whether an answer is that a message came late. -/
def Answer.isLate : Answer → Bool
  | .outcome o => o.isLate
  | .outcomes os => os.any Outcome.isLate
  | _ => false

namespace Coordinator

/-- What was answered, and to whom. -/
def answers (c : Coordinator) : List (Call × Answer) :=
  c.history.filterMap Event.answer?

def answersTo (c : Coordinator) (call : Call) : List Answer :=
  (c.answers.filter fun x => x.1 == call).map Prod.snd

/-- The finalizations that a call waits for. -/
def waiting (c : Coordinator) (call : Call) : List Finalization :=
  c.inFlight.filter fun f => f.caller.call? == some call

/-- Nobody is answered, and nobody waits for more than before. -/
structure Quiet (a b : Coordinator) : Prop where
  inFlight : b.inFlight = a.inFlight
  answers : b.answers = a.answers

/-- What was done for a call, or for nobody: it waits for one sink, or it was answered. -/
inductive Serves (a b : Coordinator) : Option Call → Prop where
  | waits {call? : Option Call} (f : Finalization) (hcall : f.caller.call? = call?)
      (hflight : b.inFlight = f :: a.inFlight) (hanswers : b.answers = a.answers) :
      Serves a b call?
  | answers (call : Call) (answer : Answer) (hflight : b.inFlight = a.inFlight)
      (hanswers : b.answers = a.answers ++ [(call, answer)]) (hlate : answer.isLate = false) :
      Serves a b (some call)
  | nothing (h : Quiet a b) : Serves a b none

/-! ### Steps that answer nobody -/

namespace Quiet
variable {a b c : Coordinator}

theorem refl (c : Coordinator) : Quiet c c :=
  ⟨rfl, rfl⟩

theorem trans (h : Quiet a b) (h' : Quiet b c) : Quiet a c :=
  ⟨h'.inFlight.trans h.inFlight, h'.answers.trans h.answers⟩

theorem serves (h : Quiet a b) {call? : Option Call} (h' : Serves b c call?) :
    Serves a c call? := by
  obtain ⟨hflight, hanswers⟩ := h
  cases h' with
  | waits f hcall hf ha => exact .waits f hcall (hflight ▸ hf) (hanswers ▸ ha)
  | answers call answer hf ha hlate =>
    exact .answers call answer (hflight ▸ hf) (hanswers ▸ ha) hlate
  | nothing h' => exact .nothing (.trans ⟨hflight, hanswers⟩ h')

theorem of_history {events : List Event} (hflight : b.inFlight = a.inFlight)
    (hhistory : b.history = a.history ++ events)
    (hevents : ∀ e ∈ events, e.answer? = none) : Quiet a b := by
  refine ⟨hflight, ?_⟩
  rw [Coordinator.answers, hhistory, List.filterMap_append,
    List.filterMap_eq_nil_iff.2 hevents, List.append_nil]
  rfl

theorem record (c : Coordinator) {e : Event} (he : e.answer? = none) : Quiet c (c.record e) :=
  of_history rfl rfl (by simpa using he)

theorem remark (c : Coordinator) (g : Group) (trigger : Trigger) :
    Quiet c (c.remark g trigger) := by
  unfold Coordinator.remark
  split
  · exact record c rfl
  · exact refl c

theorem fault (c : Coordinator) (outlet : Outlet) (m : Message) (f : Fault) :
    Quiet c (c.fault outlet m f) :=
  of_history rfl rfl (by cases outlet.hasFaultSink <;> simp [Event.answer?])

theorem create (c : Coordinator) (key : String) (params : Params) :
    Quiet c (c.create key params).2 := by
  refine of_history (create_inFlight ..) (create_history ..) fun e he => ?_
  rcases List.mem_cons.1 he with rfl | he
  · rfl
  · split at he
    · rw [List.mem_singleton.1 he]
      rfl
    · cases he

theorem schedule (c : Coordinator) (d : Deadline) : Quiet c (c.schedule d) := by
  rw [schedule_eq]
  refine of_history rfl rfl ?_
  cases c.scheduler.stopped <;> simp [Event.answer?]

theorem advance (c : Coordinator) (ms : Nat) : Quiet c (c.advance ms) := by
  rw [Coordinator.advance, fireAll_eq]
  refine of_history rfl rfl fun e he => ?_
  obtain ⟨d, -, rfl⟩ := List.mem_map.1 he
  rfl

theorem release (c : Coordinator) (id : Nat) (refusal : Option String) :
    Quiet c (c.release id refusal) := by
  cases hg : c.roster.group? id with
  | none =>
    simp only [Coordinator.release, hg]
    exact refl c
  | some g =>
    obtain ⟨_, events, hrelease, hevents⟩ := release_eq hg refusal
    have hhistory : (c.release id refusal).history = c.history ++ events := by
      rw [hrelease]
      rfl
    refine of_history (release_inFlight hg refusal) hhistory fun e he => ?_
    obtain ⟨fault, rfl | ⟨m, rfl | rfl⟩⟩ := hevents e he <;> rfl

theorem openGroup (c : Coordinator) (key : String) (params : Params) :
    Quiet c (c.openGroup key params).2 := by
  refine openGroup_keeps (P := Quiet c) (fun {b} id h => h.trans ?_)
    (fun {b} h => h.trans (create b key params)) (refl c)
  exact ⟨rfl, (record b (e := .replaced key id) rfl).answers⟩

end Quiet

/-! ### What is done for calls -/

namespace Serves
variable {c : Coordinator}

theorem record (c : Coordinator) (call : Call) {answer : Answer} (hlate : answer.isLate = false) :
    Serves c (c.record (.answered call answer)) (some call) := by
  refine .answers call answer rfl ?_ hlate
  rw [Coordinator.answers, Coordinator.record, List.filterMap_append]
  rfl

theorem finalize (c : Coordinator) (g : Group) (trigger : Trigger) (caller : Caller) :
    Serves c (c.finalize g trigger caller) caller.call? := by
  refine .waits _ rfl (finalize_inFlight ..) ?_
  rw [Coordinator.answers, finalize_history, List.filterMap_append]
  exact List.append_nil _

theorem forced (c : Coordinator) (g : Group) (caller : Caller) :
    Serves c (c.forced g caller) caller.call? :=
  (Quiet.remark c g _).serves (finalize _ g _ caller)

theorem force (c : Coordinator) (call : Call) (key : String) :
    Serves c (c.force call key) (some call) := by
  rcases force_cases c call key with ⟨-, hmissing⟩ | ⟨g, -, ⟨-, hlate⟩ | ⟨-, hclaim⟩⟩
  · rw [hmissing]
    exact (Quiet.record c rfl).serves (record _ call rfl)
  · rw [hlate]
    exact record c call rfl
  · rw [hclaim]
    exact forced c g (.force call)

theorem forceEach (c : Coordinator) (call : Call) (done : Nat) (rest : List Nat) :
    Serves c (forceEach call done rest c) (some call) := by
  rcases forceEach_eq c call done rest with ⟨-, hanswer⟩ | ⟨_, x, left, -, -, -, -, hclaim⟩
  · rw [hanswer]
    exact record c call rfl
  · rw [hclaim]
    exact forced c x (.drain call done left)

theorem expire (c : Coordinator) (d : Deadline) : Serves c (c.expire d) none := by
  rcases expire_cases c d with hstale | ⟨g, -, -, ⟨-, hlate⟩ | ⟨-, hclaim⟩⟩
  · rw [hstale]
    exact .nothing (.record c rfl)
  · rw [hlate]
    exact .nothing (.refl c)
  · rw [hclaim]
    exact forced c g .expiry

/-- Whoever waits is answered when his sink has answered, or waits for another one. -/
theorem resume (c : Coordinator) (trigger : Trigger) {caller : Caller}
    (hcaller : caller.isSingle = true) : Serves c (c.resume trigger caller) caller.call? := by
  cases caller with
  | admission call => exact record c call rfl
  | siblings => cases hcaller
  | force call => exact record c call rfl
  | drain call done rest => exact forceEach c call (done + 1) rest
  | expiry => exact .nothing (.refl c)

section Intact
variable {kept : Nat → Prop} (h : Intact kept c.custody)
include h

/-- The group that a message is offered to collects, so the message is not late. -/
theorem submit (call : Call) (key : String) (m : Message) (params : Params) :
    Serves c (c.submit call key m params) (some call) := by
  obtain ⟨g, b, hopen, -, -, hc⟩ := openGroup_deeds h key params
  have hquiet : Quiet c (b.record (.offered g m b.now)) := by
    have hb := Quiet.openGroup c key params
    rw [hopen] at hb
    exact hb.trans (.record b rfl)
  refine hquiet.serves ?_
  rcases Group.offer_cases g b.now m with ⟨hlate, -⟩ | ⟨-, -, ho⟩ | ⟨-, -, ho⟩ | ⟨trigger, -, -, ho⟩
  · rw [hc] at hlate
    cases hlate
  · simp only [Coordinator.submit, place, hopen, ho, settleAdmission]
    have hset : Quiet (b.record (.offered g m b.now))
        ((b.record (.offered g m b.now)).setGroup g) := ⟨rfl, rfl⟩
    have hfault := (hset.trans (.record _ (e := .rejected key (g.fullFault m)) rfl)).trans
      (.fault _ g.outlet m (g.fullFault m))
    exact hfault.serves (record _ call rfl)
  · simp only [Coordinator.submit, place, hopen, ho, settleAdmission]
    have hset : Quiet (b.record (.offered g m b.now))
        ((b.record (.offered g m b.now)).setGroup (g.push m)) := ⟨rfl, rfl⟩
    exact hset.serves (record _ call rfl)
  · have hsubmit : c.submit call key m params =
        (b.record (.offered g m b.now)).finalize (g.push m) trigger (.admission call) := by
      simp only [Coordinator.submit, place, hopen, ho, settleAdmission]
      rfl
    rw [hsubmit]
    exact finalize _ _ trigger (.admission call)

theorem submitCorrelated (call : Call) (m : Message) (params : Params) :
    Serves c (c.submitCorrelated call m params) (some call) := by
  simp only [Coordinator.submitCorrelated, placeCorrelated]
  cases m.correlationKey? c.settings.aggregator with
  | some key => exact submit h call key m params
  | none => exact (Quiet.record c rfl).serves (record _ call rfl)

theorem conclude {f : Finalization} (hf : f ∈ c.inFlight) (refusal : Option String) :
    Serves (c.land f.group) (c.conclude f.group refusal) f.caller.call? := by
  rw [conclude_eq h hf]
  exact (Quiet.release _ _ refusal).serves (resume _ _ (h.single f hf))

end Intact

end Serves

end Coordinator

/-! ### Acts -/

/-- The call that a move is made for. -/
def Move.call? : Move → Option Call
  | .submit call _ _ _ | .submitCorrelated call _ _ | .force call _ | .drain call _ => some call
  | _ => none

namespace Act
open Coordinator
variable {c : Coordinator}

/-- The call that an act is done for: a sink answers to the call that waits for it. -/
def call? : Act → Option Call
  | .move x => x.call?
  | _ => none

/-- Who is served by an act: a sink's answer is acted upon for the call that waits for it. -/
def client? (c : Coordinator) (act : Act) : Option Call :=
  match act.answered? c with
  | some (f, _) => f.caller.call?
  | none => act.call?

/-- What is left in flight as an act begins. -/
def cleared (c : Coordinator) (act : Act) : Coordinator :=
  match act.answered? c with
  | some (f, _) => c.land f.group
  | none => c

/-- An act that is no answer of a sink serves the call that it is done for. -/
theorem serves_of_none {kept : Nat → Prop} (h : Intact kept c.custody) {act : Act}
    (hnone : act.answered? c = none) : Serves c (act.apply c) act.call? := by
  have hset : ∀ g, Quiet c (c.setGroup g) := fun _ => ⟨rfl, rfl⟩
  cases act with
  | move x =>
    cases x with
    | submit call key m params => exact .submit h call key m params
    | submitCorrelated call m params => exact .submitCorrelated h call m params
    | openGroup key params => exact .nothing (.openGroup c key params)
    | force call key => exact .force c call key
    | drain call order => exact .forceEach c call 0 _
    | advance ms => exact .nothing (.advance c ms)
    | expire d =>
      simp only [apply, Move.apply]
      split
      · exact (Quiet.mk rfl rfl : Quiet c (c.take d)).serves (.expire _ d)
      · exact .nothing (.refl c)
    | conclude id refusal =>
      have hfree : (c.inFlight.find? fun f => f.group == id) = none :=
        Option.map_eq_none_iff.1 hnone
      simp only [apply, Move.apply, conclude, hfree]
      exact .nothing (.refl c)
    | stop => exact .nothing ⟨rfl, rfl⟩
    | add id m =>
      simp only [apply, Move.apply]
      split
      · exact .nothing (hset _)
      · exact .nothing (.refl c)
  | call id time asked =>
    simp only [apply]
    split
    · exact .nothing (hset _)
    · exact .nothing (.refl c)
  | evict key id => exact .nothing ⟨rfl, rfl⟩
  | schedule d => exact .nothing (.schedule c d)

theorem serves {kept : Nat → Prop} (h : Intact kept c.custody) (act : Act) :
    Serves (act.cleared c) (act.apply c) (act.client? c) := by
  cases hanswered : act.answered? c with
  | none =>
    simp only [cleared, client?, hanswered]
    exact serves_of_none h hanswered
  | some answer =>
    obtain ⟨f, refusal⟩ := answer
    obtain ⟨rfl, hf⟩ := of_answered? hanswered
    simp only [cleared, client?, hanswered]
    exact .conclude h hf refusal

end Act

namespace Coordinator
variable {a b c : Coordinator} {call : Call}

/-! ### Calls that others leave alone -/

theorem answersTo_congr (h : b.answers = a.answers) (call : Call) :
    b.answersTo call = a.answersTo call := by
  rw [answersTo, h]
  rfl

theorem Quiet.apart (h : Quiet a b) (call : Call) :
    b.waiting call = a.waiting call ∧ b.answersTo call = a.answersTo call :=
  ⟨by rw [waiting, h.inFlight]; rfl, answersTo_congr h.answers call⟩

/-- What is done for others neither answers a call nor makes it wait. -/
theorem Serves.apart {call? : Option Call} (h : Serves a b call?) (hcall : call? ≠ some call) :
    b.waiting call = a.waiting call ∧ b.answersTo call = a.answersTo call := by
  cases h with
  | waits f hf hflight hanswers =>
    refine ⟨?_, answersTo_congr hanswers call⟩
    rw [waiting, hflight, List.filter_cons_of_neg (by simpa [hf] using hcall)]
    rfl
  | answers other answer hflight hanswers _ =>
    have hother : other ≠ call := fun e => hcall (congrArg some e)
    refine ⟨by rw [waiting, hflight]; rfl, ?_⟩
    rw [answersTo, hanswers, List.filter_append, List.filter_cons_of_neg (by simpa using hother),
      List.filter_nil, List.append_nil]
    rfl
  | nothing h => exact h.apart call

/-- A sink that answers is waited for no more. -/
theorem waiting_land {kept : Nat → Prop} (h : Intact kept c.custody) (id : Nat) (call : Call) :
    (c.land id).waiting call = (c.waiting call).filter fun f => !(f.group == id) := by
  have hdistinct : (c.inFlight.map Finalization.group).Nodup := h.distinct
  show (c.inFlight.eraseP fun f => f.group == id).filter _ = _
  rw [eraseP_group hdistinct, List.filter_filter, waiting, List.filter_filter]
  simp only [Bool.and_comm]

/-- An act for another call leaves a call alone, unless it is the answer that the call waits for. -/
theorem apart_apply {kept : Nat → Prop} (h : Intact kept c.custody) {act : Act}
    (hact : act.call? ≠ some call)
    (hanswered : ∀ f ∈ c.waiting call, ∀ refusal, act.answered? c ≠ some (f, refusal)) :
    (act.apply c).waiting call = c.waiting call ∧
      (act.apply c).answersTo call = c.answersTo call := by
  have hserves := act.serves h
  cases hx : act.answered? c with
  | none =>
    simp only [Act.cleared, Act.client?, hx] at hserves
    exact hserves.apart hact
  | some answer =>
    obtain ⟨f, refusal⟩ := answer
    obtain ⟨-, hf⟩ := Act.of_answered? hx
    have hother : f.caller.call? ≠ some call := fun e =>
      hanswered f (List.mem_filter.2 ⟨hf, by simpa using e⟩) refusal hx
    simp only [Act.cleared, Act.client?, hx] at hserves
    obtain ⟨hwaiting, hanswers⟩ := hserves.apart hother
    refine ⟨hwaiting.trans ((waiting_land h f.group call).trans ?_), hanswers⟩
    refine List.filter_eq_self.2 fun x hx => ?_
    obtain ⟨hxf, hxc⟩ := List.mem_filter.1 hx
    have hne : x.group ≠ f.group := fun e => by
      rw [List.inj_on_of_nodup_map h.distinct hxf hf e] at hxc
      exact hother (by simpa using hxc)
    simpa using hne

/-- So an act for another call leaves a call alone, or the sink that it waits for answers. -/
theorem apart_or_answered {kept : Nat → Prop} (h : Intact kept c.custody) {act : Act}
    (hact : act.call? ≠ some call) :
    ((act.apply c).waiting call = c.waiting call ∧
        (act.apply c).answersTo call = c.answersTo call) ∨
      ∃ f ∈ c.waiting call, ∃ refusal, act.apply c = c.conclude f.group refusal := by
  by_cases hanswered : ∃ f ∈ c.waiting call, ∃ refusal, act.answered? c = some (f, refusal)
  · obtain ⟨f, hf, refusal, hanswered⟩ := hanswered
    obtain ⟨rfl, -⟩ := Act.of_answered? hanswered
    exact .inr ⟨f, hf, refusal, rfl⟩
  · exact .inl (apart_apply h hact fun f hf refusal hx => hanswered ⟨f, hf, refusal, hx⟩)

/-- A call that nobody has made is not waited for and was not answered. -/
theorem apart_after (h : Intact (fun _ => False) c.custody) {acts : List Act}
    (hacts : ∀ act ∈ acts, act.call? ≠ some call) (hwaiting : c.waiting call = []) :
    (after c acts).waiting call = [] ∧ (after c acts).answersTo call = c.answersTo call := by
  induction acts generalizing c with
  | nil => exact ⟨hwaiting, rfl⟩
  | cons act rest ih =>
    obtain ⟨hw, ha⟩ := apart_apply h (hacts act List.mem_cons_self)
      fun f hf => absurd (hwaiting ▸ hf) List.not_mem_nil
    obtain ⟨hwrest, harest⟩ := ih (Act.intact h fun _ hk => hk.elim)
      (fun x hx => hacts x (List.mem_cons_of_mem act hx)) (hw.trans hwaiting)
    exact ⟨hwrest, harest.trans ha⟩

/-! ### No admission is late -/

/-- Nobody was answered that his message is late. -/
def Timely (c : Coordinator) : Prop :=
  ∀ x ∈ c.answers, x.2.isLate = false

theorem Serves.timely {call? : Option Call} (h : Serves a b call?) (ha : Timely a) : Timely b := by
  cases h with
  | waits _ _ _ hanswers => exact fun x hx => ha x (hanswers ▸ hx)
  | answers call answer _ hanswers hlate =>
    intro x hx
    rw [hanswers] at hx
    rcases List.mem_append.1 hx with hx | hx
    · exact ha x hx
    · rw [List.mem_singleton.1 hx]
      exact hlate
  | nothing h => exact fun x hx => ha x (h.answers ▸ hx)

theorem after_timely (h : Intact (fun _ => False) c.custody) (hc : Timely c) (acts : List Act) :
    Timely (after c acts) := by
  refine after_keeps (P := Timely) (fun {c} act h hc => (act.serves h).timely ?_) h hc acts
  unfold Act.cleared
  split <;> exact hc

end Coordinator

end Aggregation
