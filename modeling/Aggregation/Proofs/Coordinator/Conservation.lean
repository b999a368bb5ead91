import Aggregation.Proofs.Coordinator.Answers
import Aggregation.Proofs.Coordinator.Deliveries

/-! No message is lost and none is delivered twice.

A run's ledger lists what was brought to the coordinator and what came of it. At every point of
every run the messages recorded so far are, one for one, those held by the live groups and those
handed to the completion sink; every admission is answered once with the outcome the ledger gives,
or waits for its sink; and each group ever created is live and was handed to no sink, or is
completed and evicted and was handed to its sink once.

The three parts are kept by different arguments: the first change by change, with what the change
records (`Change.places`); the second move by move, since a call and its answer are one move apart
or more (`tally_apply`); the third change by change again (`Change.delivered`). -/
namespace Aggregation

/-- What was brought to a coordinator and what came of it. -/
inductive Entry where
  | admission (call : Call) (m : Message) (outcome : Outcome)
  | addition (group : Nat) (m : Message) (accepted : Bool)

namespace Entry

/-- The message, if it was recorded. -/
def recorded : Entry → List Message
  | .admission _ m outcome => if outcome.isRecorded then [m] else []
  | .addition _ m accepted => if accepted then [m] else []

/-- Who is to be answered what. -/
def answer? : Entry → Option (Call × Outcome)
  | .admission call _ outcome => some (call, outcome)
  | .addition _ _ _ => none

end Entry

/-- What a move brings. -/
def Move.entries (c : Coordinator) : Move → List Entry
  | .submit call key m params => [.admission call m (c.place key m params).1.outcome]
  | .submitCorrelated call m params => [.admission call m (c.placeCorrelated m params).1.outcome]
  | .add id m =>
    [.addition id m (match c.roster.group? id with
      | some g => (g.add m).1
      | none => false)]
  | _ => []

namespace Coordinator

/-- What was brought in the course of a run, the oldest first. -/
def ledger (c : Coordinator) : List Move → List Entry
  | [] => []
  | move :: rest => move.entries c ++ ledger (move.apply c) rest

theorem entries_recorded (c : Coordinator) (move : Move) :
    (move.entries c).flatMap Entry.recorded = move.recorded c := by
  cases move with
  | submit call key m params => exact List.append_nil _
  | submitCorrelated call m params => exact List.append_nil _
  | add id m =>
    simp only [Move.entries, Move.recorded, List.flatMap_cons, List.flatMap_nil, List.append_nil,
      Entry.recorded]
    cases c.roster.group? id <;> rfl
  | _ => rfl

/-! ### Where messages are -/

/-- The messages handed to the sink. -/
def handed (c : Coordinator) : List Message :=
  c.deliveries.flatMap fun d => d.2.messages

/-- All messages in a place: held by live groups, or handed to the sink. -/
def places (c : Coordinator) : List Message :=
  c.roster.held ++ c.handed

theorem places_congr {a b : Coordinator} (hr : b.roster.held = a.roster.held)
    (hd : b.deliveries = a.deliveries) : b.places = a.places := by
  simp only [places, handed, hr, hd]

/-- Finalizing moves what a group held, and what it takes in doing so, into one result. -/
theorem places_finalize {c : Coordinator} (h : Sound c) {key : String} {g x : Group}
    (hg : c.group? key = some g) (hid : x.id = g.id) (hk : x.key = g.key) {l : List Message}
    (hx : x.messages = g.messages ++ l) (trigger : Trigger) (caller : Caller) :
    (c.places ++ l).Perm (c.finalize x trigger caller).places := by
  obtain ⟨-, rfl, -⟩ := h.of_group? hg
  have hheld := h.tidy.held_retire (x := x.sealed) (g := g) (hk ▸ hg) hid
  have hhanded : (c.finalize x trigger caller).handed = c.handed ++ (g.messages ++ l) := by
    simp only [handed, deliveries_finalize, List.flatMap_append, List.flatMap_cons,
      List.flatMap_nil, List.append_nil, resultOf, hx]
  simp only [places, hhanded, finalize_roster]
  refine ((hheld.append_right c.handed).append_right l).trans ?_
  rw [List.append_assoc g.messages, ← List.append_assoc (Roster.held _),
    ← List.append_assoc (_ ++ _)]
  exact List.perm_append_comm.append_right l

/-- A change records what it says, and moves or keeps everything else. -/
theorem Change.places {a b : Coordinator} {l : List Message} (hc : Change a l b) (h : Sound a) :
    (a.places ++ l).Perm b.places := by
  cases hc with
  | @answered e he =>
    rw [List.append_nil]
    have hd : (a.record e).deliveries = a.deliveries :=
      deliveries_record_none _ (delivery?_of_isAnswer he)
    have hp : (a.record e).places = a.places := places_congr rfl hd
    rw [hp]
  | @opened key params hk =>
    rw [List.append_nil]
    refine .of_eq (places_congr ?_ (deliveries_create a key params)).symm
    rw [create_roster]
    exact h.tidy.held_create (g := a.newGroup key params) (h.registry_none hk) rfl rfl
  | @kept key g m hg _ _ =>
    have hheld := h.tidy.held_push hg m
    have hd : ((a.record (.offered g m a.now)).setGroup (g.push m)).deliveries = a.deliveries :=
      deliveries_record_none a rfl
    have hhanded : ((a.record (.offered g m a.now)).setGroup (g.push m)).handed = a.handed := by
      simp only [handed, hd]
    show (_ ++ _ ++ _ : List Message).Perm (_ ++ _)
    rw [hhanded, List.append_assoc]
    refine (List.perm_append_comm.append_left _).trans ?_
    rw [← List.append_assoc]
    exact hheld.symm.append_right _
  | @filled key g m trigger caller hg _ _ _ =>
    have hr := h.record (.offered g m a.now)
    have hp : (a.record (.offered g m a.now)).places = a.places :=
      places_congr rfl (deliveries_record_none a rfl)
    rw [← hp]
    exact places_finalize hr (x := g.push m) hg rfl rfl rfl trigger caller
  | @refused key g m _ _ =>
    have hp : (((a.record (.offered g m a.now)).record (.rejected key (g.fullFault m))).fault
        g.outlet m (g.fullFault m)).places = a.places :=
      places_congr rfl (deliveries_refused ..)
    rw [List.append_nil, hp]
  | @forced key g caller hg _ =>
    have hp : (a.remark g (g.claimTrigger a.now)).places = a.places :=
      places_congr (congrArg _ (remark_roster a g _)) (deliveries_remark a g _)
    rw [← hp]
    exact places_finalize (h.remark g _) ((group?_remark ..).trans hg) rfl rfl
      (List.append_nil _).symm _ caller
  | @expired d g _ hg _ =>
    have hp : ((a.take d).remark g (g.claimTrigger a.now)).places = a.places :=
      places_congr (congrArg _ (remark_roster (a.take d) g _)) (deliveries_remark (a.take d) g _)
    rw [← hp]
    exact places_finalize ((h.take d).remark g _) ((group?_remark ..).trans hg) rfl rfl
      (List.append_nil _).symm _ .expiry
  | @stale d _ _ =>
    have hp : ((a.take d).record (.stale d)).places = a.places :=
      places_congr rfl (deliveries_record_none (a.take d) rfl)
    rw [List.append_nil, hp]
  | advanced ms =>
    rw [List.append_nil]
    refine .of_eq (places_congr ?_ (deliveries_advance h.swept ms)).symm
    rw [advance_eq h.swept]
  | @released f hf refusal =>
    obtain ⟨g, hg, hgc⟩ := h.group_landed hf
    rw [List.append_nil]
    refine .of_eq (places_congr ?_ (deliveries_release hg refusal)).symm
    rw [release_roster hg refusal]
    exact h.tidy.held_update_completed (x := g.clear) (g := g) (Roster.id_of_group? hg ▸ hg) hgc

theorem Changes.places {a b : Coordinator} {l : List Message} (hc : Changes a l b) (h : Sound a) :
    (a.places ++ l).Perm b.places := by
  induction hc with
  | refl => rw [List.append_nil]
  | tail hbefore hc ih =>
    rw [← List.append_assoc]
    exact (ih.append_right _).trans (hc.places (hbefore.sound h))

theorem places_apply {c : Coordinator} (h : Sound c) (move : Move) :
    (c.places ++ move.recorded c).Perm (move.apply c).places := by
  cases hstop : move.isStop with
  | true =>
    cases move with
    | stop => exact .of_eq (List.append_nil _)
    | _ => cases hstop
  | false =>
    cases hdirect : move.isDirect with
    | false => exact (move.apply_changes h hstop hdirect).places h
    | true =>
      cases move with
      | add id m =>
        rcases add_cases h id m with ⟨g, hg, -, -, hrec, happly⟩ | ⟨hrec, happly⟩
        · rw [hrec, happly]
          have hheld := h.tidy.held_push hg m
          show (_ ++ _ ++ _ : List Message).Perm (_ ++ _)
          rw [List.append_assoc]
          refine (List.perm_append_comm.append_left _).trans ?_
          rw [← List.append_assoc]
          exact hheld.symm.append_right _
        · rw [hrec, happly, List.append_nil]
      | _ => cases hdirect

/-- In every run, what is in a place is what was there before and what the run recorded. -/
theorem places_run {c : Coordinator} (h : Sound c) (moves : List Move) :
    (c.places ++ (ledger c moves).flatMap Entry.recorded).Perm (run c moves).places := by
  induction moves generalizing c with
  | nil => exact .of_eq (List.append_nil _)
  | cons move rest ih =>
    simp only [ledger, run, List.flatMap_append, entries_recorded]
    rw [← List.append_assoc]
    exact ((places_apply h move).append_right _).trans (ih (h.apply move))

/-! ### What is answered -/

theorem tally_apply {c : Coordinator} (h : Sound c) (move : Move) :
    (move.apply c).tally.Perm (c.tally ++ (move.entries c).filterMap Entry.answer?) := by
  cases move with
  | submit call key m params => exact tally_submit h call key m params
  | submitCorrelated call m params => exact tally_submitCorrelated h call m params
  | openGroup key params =>
    rw [show (Move.openGroup key params).entries c = [] from rfl, List.filterMap_nil,
      List.append_nil]
    show (c.openGroup key params).2.tally.Perm _
    cases hk : c.group? key with
    | some g => rw [openGroup_of_group h hk]
    | none => rw [openGroup_of_none hk, tally_create]
  | force call key => exact (tally_force h call key).trans (.of_eq (List.append_nil _).symm)
  | drain call order => exact (tally_forceEach c call 0 _).trans (.of_eq (List.append_nil _).symm)
  | advance ms => exact .of_eq ((tally_advance h ms).trans (List.append_nil _).symm)
  | expire d =>
    simp only [Move.apply, Move.entries, List.filterMap_nil, List.append_nil]
    split
    · exact tally_expire (h.take d) d
    · exact .refl _
  | conclude id refusal =>
    exact (tally_conclude h id refusal).trans (.of_eq (List.append_nil _).symm)
  | stop => exact .of_eq (List.append_nil _).symm
  | add id m =>
    simp only [Move.apply, Move.entries, Entry.answer?, List.filterMap_cons, List.filterMap_nil,
      List.append_nil]
    cases c.roster.group? id <;> exact .refl _

/-- In every run, admissions are answered what the ledger says, or wait for that answer. -/
theorem tally_run {c : Coordinator} (h : Sound c) (moves : List Move) :
    (run c moves).tally.Perm (c.tally ++ (ledger c moves).filterMap Entry.answer?) := by
  induction moves generalizing c with
  | nil => exact .of_eq (List.append_nil _).symm
  | cons move rest ih =>
    simp only [ledger, run, List.filterMap_append]
    rw [← List.append_assoc]
    exact (ih (h.apply move)).trans ((tally_apply h move).append_right _)

/-- Every message recorded is held by one live group or was handed over in one result, as often as
it was recorded; every admission is answered once, or waits; and every group ever created is live
and was handed to nobody, or is completed and evicted and was handed to its sink once. -/
theorem recorded_once (settings : Settings) (metrics : Bool) (now : Instant) (moves : List Move) :
    let c := run (start settings metrics now) moves
    let entries := ledger (start settings metrics now) moves
    (entries.flatMap Entry.recorded).Perm (c.roster.held ++ c.handed) ∧
      (entries.filterMap Entry.answer?).Perm (c.outcomes ++ c.awaited) ∧
      c.roster.live.Nodup ∧
      ∀ g ∈ c.roster.groups,
        (g ∈ c.roster.live ∧ c.group? g.key = some g ∧ g.completed = false ∧
          c.deliveriesOf g.id = []) ∨
        (g.completed = true ∧ (∀ key, c.roster.registry.get? key ≠ some g.id) ∧
          ∃ result, c.deliveriesOf g.id = [result] ∧ result.key = g.key) := by
  intro c entries
  have hstart := sound_start settings metrics now
  have hs : Sound c := run_sound hstart moves
  have hd : Delivered c := delivered_run hstart (delivered_start settings metrics now) moves
  refine ⟨places_run hstart moves, (tally_run hstart moves).symm, hs.tidy.live_nodup,
    fun g hm => ?_⟩
  have hg := hs.tidy.group?_of_mem hm
  cases hc : g.completed with
  | false =>
    have hfound := hs.group?_of_mem hm hc
    refine .inl ⟨hs.tidy.mem_live.2 hfound, hfound, rfl, hd.none g.id fun x hx => ?_⟩
    rwa [← Option.some.inj (hg.symm.trans hx)]
  | true =>
    refine .inr ⟨rfl, fun key hr => ?_, hd.once g.id g hg hc⟩
    obtain ⟨x, hx, -, hxc⟩ := hs.tidy.live key g.id hr
    rw [← Option.some.inj (hg.symm.trans hx), hc] at hxc
    exact absurd hxc (by simp)

end Coordinator

end Aggregation
