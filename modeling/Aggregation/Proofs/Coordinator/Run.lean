import Aggregation.Proofs.Coordinator.Operations

/-! Runs of a coordinator.

A run is any sequence of moves by callers, sinks and the clock. A sink moves by answering, with or
without a refusal, at any time after it was handed a group; until then it is suspended, and what
it admits meanwhile is an admission like any other. A deadline that fired may be handled at any
time after that. So a run may interleave operations with finalizations in every possible way. A
drain may visit the groups in any order. The clock is taken to name every deadline that is asked
for; a call that needs one beyond panics and answers nobody.

Whatever is done through the operations alone is a sequence of changes (`Move.apply_changes`), and
every state of a run is sound (`run_sound`). -/
namespace Aggregation

/-- One thing that a caller, a sink or the clock does. -/
inductive Move where
  | submit (call : Call) (key : String) (m : Message) (params : Params)
  | submitCorrelated (call : Call) (m : Message) (params : Params)
  | openGroup (key : String) (params : Params)
  | force (call : Call) (key : String)
  | drain (call : Call) (order : Coordinator.Visiting)
  | advance (ms : Nat)
  /-- A deadline that fired is handled. -/
  | expire (d : Deadline)
  /-- A sink answers, refusing or not. -/
  | conclude (id : Nat) (refusal : Option String)
  | stop
  /-- A message is added to a group through a handle. -/
  | add (id : Nat) (m : Message)

namespace Move

/-- What a move does to a coordinator. -/
def apply (c : Coordinator) : Move → Coordinator
  | .submit call key m params => c.submit call key m params
  | .submitCorrelated call m params => c.submitCorrelated call m params
  | .openGroup key params => (c.openGroup key params).2
  | .force call key => c.force call key
  | .drain call order => c.drainIn call order
  | .advance ms => c.advance ms
  | .expire d => if d ∈ c.expired then (c.take d).expire d else c
  | .conclude id refusal => c.conclude id refusal
  | .stop => c.stop
  | .add id m =>
    match c.roster.group? id with
    | some g => c.setGroup (g.add m).2
    | none => c

/-- Whether a move stops the scheduler. -/
def isStop : Move → Bool
  | .stop => true
  | _ => false

/-- Whether a move goes through a handle. -/
def isDirect : Move → Bool
  | .add _ _ => true
  | _ => false

/-- The messages that a move records. -/
def recorded (c : Coordinator) : Move → List Message
  | .submit _ key m params => (c.place key m params).1.recorded m
  | .submitCorrelated _ m params => (c.placeCorrelated m params).1.recorded m
  | .add id m =>
    match c.roster.group? id with
    | some g => if (g.add m).1 then [m] else []
    | none => []
  | _ => []

/-- What is done through the operations is a sequence of changes. -/
theorem apply_changes {c : Coordinator} (h : c.Sound) (move : Move) (hstop : move.isStop = false)
    (hdirect : move.isDirect = false) :
    Coordinator.Changes c (move.recorded c) (move.apply c) := by
  cases move with
  | submit call key m params => exact Coordinator.submit_changes h call key m params
  | submitCorrelated call m params => exact Coordinator.submitCorrelated_changes h call m params
  | openGroup key params =>
    obtain ⟨g, b, ho, hb, -⟩ := Coordinator.openGroup_changes h key params
    simp only [apply, ho]
    exact hb
  | force call key => exact Coordinator.force_changes h call key
  | drain call order => exact Coordinator.forceEach_changes h call 0 _
  | advance ms => exact (Coordinator.Change.advanced ms).changes
  | expire d =>
    by_cases hd : d ∈ c.expired
    · simp only [apply, hd, if_true]
      exact Coordinator.expire_changes h hd
    · simp only [apply, hd, if_false]
      exact .refl c
  | conclude id refusal => exact Coordinator.conclude_changes h id refusal
  | stop => cases hstop
  | add id m => cases hdirect

end Move

namespace Coordinator

/-! ### Stopping and adding -/

theorem Sound.stop {c : Coordinator} (h : Sound c) : Sound c.stop :=
  ⟨h.tidy, rfl, h.carried, h.distinct, h.single⟩

/-- Adding a message through a handle pushes it onto a group under its key, or does nothing. -/
theorem add_cases {c : Coordinator} (h : Sound c) (id : Nat) (m : Message) :
    (∃ g, c.group? g.key = some g ∧ g.id = id ∧ g.hasCapacity = true ∧
        (Move.add id m).recorded c = [m] ∧ (Move.add id m).apply c = c.setGroup (g.push m)) ∨
      ((Move.add id m).recorded c = [] ∧ (Move.add id m).apply c = c) := by
  simp only [Move.recorded, Move.apply]
  cases hg : c.roster.group? id with
  | none => exact .inr ⟨rfl, rfl⟩
  | some g =>
    have hm := Roster.mem_of_group? hg
    cases hfull : g.completed || !g.hasCapacity with
    | true =>
      refine .inr ⟨by simp [Group.add_of_no_room hfull], ?_⟩
      simp only [Group.add_of_no_room hfull, setGroup, h.tidy.update_self hm]
    | false =>
      simp only [Bool.or_eq_false_iff, Bool.not_eq_false'] at hfull
      refine .inl ⟨g, h.group?_of_mem hm hfull.1, Roster.id_of_group? hg, hfull.2, ?_⟩
      simp [Group.add_of_room hfull.1 hfull.2]

/-- What every change keeps, a move keeps, as long as stopping and adding to a group keep it too
where the move does that. -/
theorem apply_keeps {P : Coordinator → Prop} (move : Move)
    (hchange : ∀ {a l b}, Sound a → Change a l b → P a → P b)
    (hstop : move.isStop = true → ∀ {a}, P a → P a.stop)
    (hpush : move.isDirect = true → ∀ {a key g} (m : Message), Sound a → a.group? key = some g →
      g.hasCapacity = true → P a → P (a.setGroup (g.push m)))
    {c : Coordinator} (hs : Sound c) (h : P c) : P (move.apply c) := by
  cases hmove : move.isStop with
  | true =>
    cases move with
    | stop => exact hstop hmove h
    | _ => cases hmove
  | false =>
    cases hdirect : move.isDirect with
    | false => exact (move.apply_changes hs hmove hdirect).keeps hchange hs h
    | true =>
      cases move with
      | add id m =>
        rcases add_cases hs id m with ⟨g, hg, -, hr, -, happly⟩ | ⟨-, happly⟩
        · rw [happly]
          exact hpush hdirect m hs hg hr h
        · rw [happly]
          exact h
      | _ => cases hdirect

theorem Sound.apply {c : Coordinator} (h : Sound c) (move : Move) : Sound (move.apply c) :=
  apply_keeps move (fun hs hc _ => hc.sound hs) (fun _ _ h => h.stop)
    (fun _ _ _ _ m hs hg _ _ => hs.setGroup_push hg m) h h

/-! ### Runs -/

/-- The coordinator after some moves. -/
def run (c : Coordinator) : List Move → Coordinator
  | [] => c
  | move :: rest => run (move.apply c) rest

theorem run_sound {c : Coordinator} (h : Sound c) (moves : List Move) : Sound (run c moves) := by
  induction moves generalizing c with
  | nil => exact h
  | cons move rest ih => exact ih (h.apply move)

/-- What every move of a run keeps, the run keeps. -/
theorem run_keeps {P : Coordinator → Prop} {moves : List Move}
    (hP : ∀ move ∈ moves, ∀ {c}, Sound c → P c → P (move.apply c)) {c : Coordinator}
    (hs : Sound c) (h : P c) : P (run c moves) := by
  induction moves generalizing c with
  | nil => exact h
  | cons move rest ih =>
    refine ih (fun other hm => hP other (List.mem_cons_of_mem _ hm)) (hs.apply move) ?_
    exact hP move (List.mem_cons_self ..) hs h

end Coordinator

end Aggregation
