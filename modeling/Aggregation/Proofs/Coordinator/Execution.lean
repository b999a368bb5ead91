import Aggregation.Proofs.Coordinator.Settling
import Aggregation.Proofs.Coordinator.Timers

/-! Operations that are carried through.

What callers and the clock do to a coordinator whose sink answers at once is one operation after the
other, each with all that it leads to, which keeps what every change keeps (`carry_keeps`). Between
operations a coordinator is `Ready`: nothing is in flight, nothing that fired is left, and its
deadlines are on time, or there are none because its scheduler is stopped (`Ready.carry`). -/
namespace Aggregation

/-- What callers and the clock do to a coordinator whose sink answers at once. -/
inductive Operation where
  | submit (key : String) (m : Message) (params : Params)
  | openGroup (key : String) (params : Params)
  | force (key : String)
  | drain (order : Coordinator.Visiting)
  | stop
  | advance (ms : Nat)

namespace Operation

/-- The key that an operation is on. -/
def key? : Operation → Option String
  | .submit key _ _ => some key
  | .openGroup key _ => some key
  | .force key => some key
  | .drain _ | .stop | .advance _ => none

/-- What an operation does at first, the answer being that to a given call. -/
def move (n : Nat) : Operation → Move
  | .submit key m params => .submit (.outside n) key m params
  | .openGroup key params => .openGroup key params
  | .force key => .force (.outside n) key
  | .drain order => .drain (.outside n) order
  | .stop => .stop
  | .advance ms => .advance ms

end Operation

namespace Coordinator

/-- Make a move and carry through what it leads to, by what the sink says to it. -/
def carry (c : Coordinator) : Move × Verdict → Coordinator
  | (move, verdict) => (move.apply c).settle verdict

/-- Make moves one after the other, each carried through; the sink need not say the same to the
same result every time. -/
def carried (c : Coordinator) (moves : List (Move × Verdict)) : Coordinator :=
  moves.foldl carry c

/-- Do an operation and carry through what it leads to. -/
def perform (verdict : Verdict) (c : Coordinator) : Operation × Nat → Coordinator
  | (op, n) => ((op.move n).apply c).settle verdict

/-- Do operations one after the other. -/
def execute (verdict : Verdict) (c : Coordinator) (ops : List (Operation × Nat)) : Coordinator :=
  ops.foldl (perform verdict) c

/-- What every change keeps, and stopping and adding to a group, moves keep that are carried
through. -/
theorem carry_keeps {P : Coordinator → Prop}
    (hchange : ∀ {a l b}, Sound a → Change a l b → P a → P b)
    (hstop : ∀ {a}, P a → P a.stop)
    (hpush : ∀ {a key g} (m : Message), Sound a → a.group? key = some g → g.hasCapacity = true →
      P a → P (a.setGroup (g.push m)))
    {c : Coordinator} (hs : Sound c) (h : P c) (x : Move × Verdict) : P (c.carry x) :=
  have hmoved : P (x.1.apply c) := apply_keeps x.1 hchange (fun _ => hstop) (fun _ => hpush) hs h
  (settle_keeps x.2 hchange (hs.apply x.1) hmoved).1

/-! ### Between operations -/

/-- The scheduler is stopped, and nothing is left in it. -/
def Halted (c : Coordinator) : Prop :=
  c.scheduler.stopped = true ∧ c.scheduler.queue = []

/-- Deadlines are on time as long as there are any. -/
structure Punctual (settings : Settings) (c : Coordinator) : Prop where
  timers : Timed c ∨ Halted c
  settings : c.settings = settings

/-- Nothing is left to be done before the next operation. -/
structure Ready (settings : Settings) (c : Coordinator) : Prop where
  sound : Sound c
  punctual : Punctual settings c
  inFlight : c.inFlight = []
  expired : c.expired = []

theorem ready_start (settings : Settings) (metrics : Bool) (now : Instant) :
    Ready settings (start settings metrics now) :=
  ⟨sound_start .., ⟨.inl (timed_start ..), rfl⟩, rfl, rfl⟩

theorem Halted.advance {c : Coordinator} (h : Halted c) (hs : Sound c) (ms : Nat) :
    Halted (c.advance ms) ∧ (c.advance ms).expired = c.expired := by
  rw [advance_eq hs.swept, h.2]
  exact ⟨⟨h.1, rfl⟩, List.append_nil _⟩

theorem Change.halted {a b : Coordinator} {l : List Message} (hs : Sound a) (hc : Change a l b)
    (h : Halted a) : Halted b := by
  have hsame : ∀ {c : Coordinator}, c.scheduler = a.scheduler → Halted c := by
    intro c hc
    rw [Halted, hc]
    exact h
  cases hc with
  | answered _ => exact hsame rfl
  | @opened key params hk =>
    refine hsame ?_
    rw [create_scheduler]
    split
    · simp only [Scheduler.schedule, h.1, if_true]
    · rfl
  | kept _ _ _ => exact hsame rfl
  | filled _ _ _ _ => exact hsame rfl
  | refused _ _ => exact hsame rfl
  | forced _ _ => exact hsame ((finalize_scheduler ..).trans (remark_scheduler ..))
  | expired _ _ _ => exact hsame ((finalize_scheduler ..).trans (remark_scheduler ..))
  | stale _ _ => exact hsame rfl
  | advanced ms => exact (h.advance hs ms).1
  | @released f hf refusal =>
    obtain ⟨g, hg, -⟩ := hs.group_landed hf
    exact hsame (release_scheduler hg refusal)

theorem Change.settings {a b : Coordinator} {l : List Message} (hs : Sound a) (hc : Change a l b) :
    b.settings = a.settings := by
  cases hc with
  | answered _ => rfl
  | opened params hk => exact create_settings ..
  | kept _ _ _ => rfl
  | filled _ _ _ _ => rfl
  | refused _ _ => rfl
  | forced _ _ => exact (finalize_settings ..).trans (remark_settings ..)
  | expired _ _ _ => exact (finalize_settings ..).trans (remark_settings ..)
  | stale _ _ => rfl
  | advanced ms => rw [advance_eq hs.swept]
  | @released f hf refusal =>
    obtain ⟨g, hg, -⟩ := hs.group_landed hf
    exact release_settings hg refusal

theorem Change.punctual {settings : Settings} {a b : Coordinator} {l : List Message} (hs : Sound a)
    (hc : Change a l b) (h : Punctual settings a) : Punctual settings b :=
  ⟨h.timers.imp (Change.timed hs hc) (Change.halted hs hc),
    (Change.settings hs hc).trans h.settings⟩

/-- What a move leads to is carried through before the next. -/
theorem Ready.carry {settings : Settings} {c : Coordinator} (h : Ready settings c)
    (x : Move × Verdict) : Ready settings (c.carry x) := by
  obtain ⟨move, verdict⟩ := x
  have hpunctual : Punctual settings (move.apply c) := by
    refine apply_keeps move Change.punctual (fun _ _ ha => ?_) ?_ h.sound h.punctual
    · exact ⟨.inr ⟨rfl, rfl⟩, ha.settings⟩
    · intro _ a key g m hs hg _ ha
      have hfound := hs.tidy.group?_of_mem (hs.of_group? hg).1
      refine ⟨ha.timers.imp (fun ht => ?_) id, ha.settings⟩
      exact ht.update hs (x := g.push m) hfound rfl rfl rfl rfl rfl
  obtain ⟨hp, hs, hf, hd⟩ := settle_keeps verdict Change.punctual (h.sound.apply move) hpunctual
  exact ⟨hs, hp, hf, hd⟩

theorem Ready.carried {settings : Settings} {c : Coordinator} (h : Ready settings c)
    (moves : List (Move × Verdict)) : Ready settings (c.carried moves) := by
  induction moves generalizing c with
  | nil => exact h
  | cons x rest ih => exact ih (h.carry x)

theorem Ready.perform {settings : Settings} {c : Coordinator} (h : Ready settings c)
    (verdict : Verdict) (op : Operation) (n : Nat) :
    Ready settings (c.perform verdict (op, n)) :=
  h.carry (op.move n, verdict)

end Coordinator

end Aggregation
