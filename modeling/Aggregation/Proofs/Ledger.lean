import Aggregation.Proofs.Scheduler
import Mathlib.Data.List.Perm.Basic

/-! The ledger of a scheduler: what it accepted, and what became of that.

Anybody may ask a scheduler for something at any time; what a callback asks for is asked after the
deadline that it was called for has fired and before the next one fires. Time may pass at any point,
and the dispatcher goes on by receiving a deadline, by beginning a sweep or by firing the next
deadline of it, as it likes. In every state that is reached by such steps, what was accepted has
fired, is waiting or was discarded, each deadline in one of the three places (`Balanced.run`), and
nothing is discarded before the scheduler is stopped (`running_run`). Once it is stopped nothing
changes but the time (`run_halted`). A scheduler that settles takes such steps only
(`settle_works`). -/
namespace Aggregation.Scheduler

/-! ### Steps -/

/-- One thing that happens around a scheduler. -/
inductive Step where
  /-- Somebody asks for something, a callback or anybody else. -/
  | request (r : Request)
  | advance (ms : Nat)
  /-- The dispatcher receives the oldest deadline that was sent. -/
  | receive
  /-- The dispatcher begins a sweep. -/
  | begin
  /-- The dispatcher fires the next deadline of its sweep. -/
  | fire

/-- Whether a step stops the scheduler. -/
def Step.isStop : Step → Bool
  | .request .stop => true
  | _ => false

/-- Whether a step is one of the dispatcher, or of its callback after one of some deadlines. -/
def Step.IsWork (callback : Deadline → List Request) (fired : List Deadline) : Step → Prop
  | .receive | .begin | .fire => True
  | .request r => ∃ d ∈ fired, r ∈ callback d
  | .advance _ => False

theorem Step.IsWork.mono {callback : Deadline → List Request} {x : Step}
    {fired more : List Deadline} (h : x.IsWork callback fired) (hsub : fired ⊆ more) :
    x.IsWork callback more := by
  cases x with
  | request r =>
    obtain ⟨d, hd, hr⟩ := h
    exact ⟨d, hsub hd, hr⟩
  | advance _ => exact h
  | receive => trivial
  | begin => trivial
  | fire => trivial

/-- What a scheduler has still to fire. -/
def waiting (s : Scheduler) : List Deadline :=
  s.sweep ++ (s.heap ++ s.channel)

/-- A scheduler at work, and its books. -/
structure Ledger where
  scheduler : Scheduler
  now : Instant
  accepted : List Deadline
  /-- What fired, and when. -/
  fired : List (Deadline × Instant)
  /-- What was waiting when the scheduler was stopped. -/
  discarded : List Deadline

namespace Ledger

/-- The books of a scheduler that has just started. -/
def blank (name : String) (now : Instant) : Ledger :=
  ⟨Scheduler.start name, now, [], [], []⟩

/-- Book a request: a scheduler that is stopped accepts nothing, and stopping discards all that
waits. -/
def ask (l : Ledger) (r : Request) : Ledger :=
  match r with
  | .schedule d => {l with
      scheduler := l.scheduler.request r
      accepted := l.accepted ++ if l.scheduler.stopped then [] else [d]}
  | .stop => {l with
      scheduler := l.scheduler.request r
      discarded := l.discarded ++ l.scheduler.waiting}

def step (l : Ledger) : Step → Ledger
  | .request r => l.ask r
  | .advance ms => {l with now := l.now + ms}
  | .receive => {l with scheduler := l.scheduler.receive}
  | .begin => {l with scheduler := l.scheduler.begin l.now}
  | .fire =>
    match l.scheduler.fire? with
    | none => l
    | some (d, s) => {l with scheduler := s, fired := l.fired ++ [(d, l.now)]}

def run (l : Ledger) (steps : List Step) : Ledger :=
  steps.foldl step l

/-- The deadlines that fired. -/
def spent (l : Ledger) : List Deadline :=
  l.fired.map Prod.fst

/-- The dispatcher has nothing to do: there is nothing to receive, nothing is left of its sweep, and
another one finds nothing that is due. -/
def Settled (l : Ledger) : Prop :=
  l.scheduler.channel = [] ∧ (l.scheduler.begin l.now).sweep = []

/-! ### What a step can do -/

theorem ask_schedule_cases (l : Ledger) (d : Deadline) :
    (l.scheduler.stopped = true ∧ l.ask (.schedule d) = l) ∨
      l.scheduler.stopped = false ∧ l.ask (.schedule d) = {l with
        scheduler := {l.scheduler with
          channel := l.scheduler.channel ++ [d], pending := l.scheduler.pending + 1}
        accepted := l.accepted ++ [d]} := by
  cases hs : l.scheduler.stopped with
  | true => exact .inl ⟨rfl, by simp [ask, request, schedule_of_stopped hs, hs]⟩
  | false => exact .inr ⟨rfl, by simp [ask, request, schedule_of_running hs, hs]⟩

theorem step_receive_cases (l : Ledger) :
    l.step .receive = l ∨ ∃ d rest, l.scheduler.sweep = [] ∧ l.scheduler.channel = d :: rest ∧
      l.step .receive = {l with
        scheduler := {l.scheduler with
          channel := rest, heap := enqueue d l.scheduler.heap}} := by
  rcases receive_cases l.scheduler with hsame | ⟨d, rest, hsweep, hchannel, hnext⟩
  · exact .inl (by simp only [step, hsame])
  · exact .inr ⟨d, rest, hsweep, hchannel, by simp only [step, hnext]⟩

theorem step_begin_cases (l : Ledger) :
    l.step .begin = l ∨ l.scheduler.sweep = [] ∧ l.step .begin = {l with
      scheduler := {l.scheduler with
        sweep := dueBy l.now l.scheduler.heap, heap := later l.now l.scheduler.heap}} := by
  rcases begin_cases l.scheduler l.now with hsame | ⟨hsweep, hnext⟩
  · exact .inl (by simp only [step, hsame])
  · exact .inr ⟨hsweep, by simp only [step, hnext]⟩

theorem step_fire_cases (l : Ledger) :
    l.step .fire = l ∨ ∃ d rest, l.scheduler.sweep = d :: rest ∧ l.step .fire = {l with
      scheduler := {l.scheduler with
        sweep := rest
        pending := l.scheduler.pending - 1
        fired := l.scheduler.fired + 1}
      fired := l.fired ++ [(d, l.now)]} := by
  cases hsweep : l.scheduler.sweep with
  | nil => exact .inl (by simp only [step, fire?, hsweep])
  | cons d rest => exact .inr ⟨d, rest, rfl, by simp only [step, fire?, hsweep]⟩

/-! ### The balance -/

structure Balanced (l : Ledger) : Prop where
  inOrder : InOrder l.scheduler.heap
  /-- Every deadline that was accepted is in one place. -/
  whole : (l.spent ++ l.scheduler.waiting ++ l.discarded).Perm l.accepted
  pending : l.scheduler.pending = l.scheduler.waiting.length
  counted : l.scheduler.fired = l.fired.length
  /-- What is swept is due. -/
  due : ∀ d ∈ l.scheduler.sweep, d.due ≤ l.now
  /-- Nothing fired before it was due. -/
  punctual : ∀ x ∈ l.fired, x.1.due ≤ x.2 ∧ x.2 ≤ l.now

theorem balanced_blank (name : String) (now : Instant) : Balanced (blank name now) :=
  ⟨List.Pairwise.nil, .refl _, rfl, rfl, fun _ h => absurd h List.not_mem_nil,
    fun _ h => absurd h List.not_mem_nil⟩

namespace Balanced
variable {l : Ledger}

theorem schedule (h : Balanced l) (d : Deadline) : Balanced (l.ask (.schedule d)) := by
  rcases l.ask_schedule_cases d with ⟨-, hsame⟩ | ⟨-, hnext⟩
  · rw [hsame]
    exact h
  · rw [hnext]
    have hwaiting : l.scheduler.sweep ++ (l.scheduler.heap ++ (l.scheduler.channel ++ [d])) =
        l.scheduler.waiting ++ [d] := by
      simp only [waiting, List.append_assoc]
    refine ⟨h.inOrder, ?_, ?_, h.counted, h.due, h.punctual⟩
    · show (l.spent ++ (l.scheduler.sweep ++ (l.scheduler.heap ++ (l.scheduler.channel ++ [d]))) ++
        l.discarded).Perm _
      rw [hwaiting]
      refine .trans ?_ (h.whole.append_right [d])
      rw [← List.append_assoc, List.append_assoc, List.append_assoc (_ ++ _) _ [d]]
      exact List.perm_append_comm.append_left _
    · show l.scheduler.pending + 1 =
        (l.scheduler.sweep ++ (l.scheduler.heap ++ (l.scheduler.channel ++ [d]))).length
      rw [hwaiting, h.pending, List.length_append, List.length_singleton]

theorem stop (h : Balanced l) : Balanced (l.ask .stop) := by
  refine ⟨List.Pairwise.nil, ?_, rfl, h.counted, fun _ hd => absurd hd List.not_mem_nil,
    h.punctual⟩
  show (l.spent ++ [] ++ (l.discarded ++ l.scheduler.waiting)).Perm _
  rw [List.append_nil]
  refine (List.perm_append_comm.append_left _).trans ?_
  rw [← List.append_assoc]
  exact h.whole

theorem receive (h : Balanced l) : Balanced (l.step .receive) := by
  rcases l.step_receive_cases with hsame | ⟨d, rest, -, hchannel, hnext⟩
  · rw [hsame]
    exact h
  · rw [hnext]
    have hwaiting : (l.scheduler.sweep ++ (enqueue d l.scheduler.heap ++ rest)).Perm
        l.scheduler.waiting := by
      rw [waiting, hchannel]
      exact (((enqueue_perm d _).append_right rest).trans List.perm_middle.symm).append_left _
    exact ⟨h.inOrder.enqueue d, ((hwaiting.append_left _).append_right _).trans h.whole,
      h.pending.trans hwaiting.length_eq.symm, h.counted, h.due, h.punctual⟩

theorem begin (h : Balanced l) : Balanced (l.step .begin) := by
  rcases l.step_begin_cases with hsame | ⟨hsweep, hnext⟩
  · rw [hsame]
    exact h
  · rw [hnext]
    have hwaiting : dueBy l.now l.scheduler.heap ++
        (later l.now l.scheduler.heap ++ l.scheduler.channel) = l.scheduler.waiting := by
      rw [waiting, hsweep, List.nil_append, ← List.append_assoc, dueBy_append_later]
    refine ⟨h.inOrder.later _, ?_, h.pending.trans (congrArg List.length hwaiting.symm), h.counted,
      fun d hd => due_le_of_mem_dueBy hd, h.punctual⟩
    have hwhole := h.whole
    rwa [← hwaiting] at hwhole

theorem fire (h : Balanced l) : Balanced (l.step .fire) := by
  rcases l.step_fire_cases with hsame | ⟨d, rest, hsweep, hnext⟩
  · rw [hsame]
    exact h
  · have hwhole := h.whole
    have hpending := h.pending
    rw [waiting, hsweep] at hwhole hpending
    rw [hnext]
    refine ⟨h.inOrder, ?_, ?_, ?_, fun e he => ?_, fun x hx => ?_⟩
    · show ((l.fired ++ [(d, l.now)]).map Prod.fst ++
        (rest ++ (l.scheduler.heap ++ l.scheduler.channel)) ++ l.discarded).Perm _
      rw [List.map_append, List.append_assoc (l.fired.map Prod.fst)]
      exact hwhole
    · show l.scheduler.pending - 1 = (rest ++ (l.scheduler.heap ++ l.scheduler.channel)).length
      rw [hpending]
      rfl
    · show l.scheduler.fired + 1 = (l.fired ++ [(d, l.now)]).length
      rw [h.counted, List.length_append]
      rfl
    · exact h.due e (hsweep ▸ List.mem_cons_of_mem d he)
    · rcases List.mem_append.1 hx with hx | hx
      · exact h.punctual x hx
      · obtain rfl := List.mem_singleton.1 hx
        exact ⟨h.due d (hsweep ▸ List.mem_cons_self ..), Int.le_refl _⟩

theorem advance (h : Balanced l) (ms : Nat) : Balanced (l.step (.advance ms)) := by
  have hle : l.now ≤ l.now + ms := Int.le_add_of_nonneg_right (Int.natCast_nonneg ms)
  refine ⟨h.inOrder, h.whole, h.pending, h.counted, fun d hd => Int.le_trans (h.due d hd) hle,
    fun x hx => ?_⟩
  obtain ⟨hdue, hnow⟩ := h.punctual x hx
  exact ⟨hdue, Int.le_trans hnow hle⟩

theorem step (h : Balanced l) (x : Step) : Balanced (l.step x) := by
  cases x with
  | request r =>
    cases r with
    | schedule d => exact h.schedule d
    | stop => exact h.stop
  | advance ms => exact h.advance ms
  | receive => exact h.receive
  | begin => exact h.begin
  | fire => exact h.fire

theorem run (h : Balanced l) (steps : List Step) : Balanced (l.run steps) := by
  induction steps generalizing l with
  | nil => exact h
  | cons x rest ih => exact ih (h.step x)

/-- What is accepted once fires once at most. -/
theorem count_spent_le (h : Balanced l) (d : Deadline) : l.spent.count d ≤ l.accepted.count d := by
  rw [← h.whole.count_eq, List.count_append, List.count_append]
  omega

/-- When the dispatcher has nothing to do, what waits is not due. -/
theorem lt_due_of_settled (h : Balanced l) (hsettled : l.Settled) :
    ∀ d ∈ l.scheduler.waiting, l.now < d.due := by
  obtain ⟨hchannel, hbegin⟩ := hsettled
  obtain ⟨hsweep, hdue⟩ := idle_of_begin hbegin
  intro d hd
  rw [waiting, hsweep, hchannel, List.nil_append, List.append_nil,
    ← dueBy_append_later l.now l.scheduler.heap, hdue, List.nil_append] at hd
  exact lt_due_of_mem_later h.inOrder hd

end Balanced

/-! ### Until the scheduler is stopped -/

/-- The scheduler is running, and nothing was discarded. -/
def Running (l : Ledger) : Prop :=
  l.scheduler.stopped = false ∧ l.discarded = []

theorem Running.step {l : Ledger} (h : Running l) {x : Step} (hx : x.isStop = false) :
    Running (l.step x) := by
  cases x with
  | request r =>
    cases r with
    | schedule d =>
      show Running (l.ask (.schedule d))
      rcases l.ask_schedule_cases d with ⟨-, hsame⟩ | ⟨-, hnext⟩
      · rwa [hsame]
      · rw [hnext]
        exact h
    | stop => cases hx
  | advance _ => exact h
  | receive =>
    rcases l.step_receive_cases with hsame | ⟨d, rest, -, -, hnext⟩
    · rwa [hsame]
    · rw [hnext]
      exact h
  | begin =>
    rcases l.step_begin_cases with hsame | ⟨-, hnext⟩
    · rwa [hsame]
    · rw [hnext]
      exact h
  | fire =>
    rcases l.step_fire_cases with hsame | ⟨d, rest, -, hnext⟩
    · rwa [hsame]
    · rw [hnext]
      exact h

theorem running_run {l : Ledger} (h : Running l) {steps : List Step}
    (hsteps : ∀ x ∈ steps, x.isStop = false) : Running (l.run steps) := by
  induction steps generalizing l with
  | nil => exact h
  | cons x rest ih =>
    exact ih (h.step (hsteps x (List.mem_cons_self ..))) fun y hy =>
      hsteps y (List.mem_cons_of_mem x hy)

/-- What was accepted has fired or waits. -/
theorem Balanced.perm_of_running {l : Ledger} (h : Balanced l) (hrunning : Running l) :
    (l.spent ++ l.scheduler.waiting).Perm l.accepted := by
  have hwhole := h.whole
  rwa [hrunning.2, List.append_nil] at hwhole

/-! ### From then on -/

/-- The scheduler is stopped, and nothing is left in it. -/
def Halted (l : Ledger) : Prop :=
  l.scheduler.stopped = true ∧ l.scheduler.sweep = [] ∧ l.scheduler.heap = [] ∧
    l.scheduler.channel = [] ∧ l.scheduler.pending = 0

theorem halted_stop (l : Ledger) : Halted (l.ask .stop) :=
  ⟨rfl, rfl, rfl, rfl, rfl⟩

/-- Whatever happens around a scheduler that is stopped, only time passes. -/
theorem Halted.step_eq {l : Ledger} (h : Halted l) (x : Step) :
    ∃ now, l.step x = {l with now} := by
  obtain ⟨⟨name, channel, heap, sweep, pending, count, stopped⟩, now, accepted, fired,
    discarded⟩ := l
  obtain ⟨rfl, rfl, rfl, rfl, rfl⟩ := h
  cases x with
  | request r =>
    refine ⟨now, ?_⟩
    cases r with
    | schedule d => simp [step, ask, request, Scheduler.schedule]
    | stop => simp [step, ask, request, Scheduler.stop, waiting]
  | advance ms => exact ⟨_, rfl⟩
  | receive => exact ⟨now, rfl⟩
  | begin => exact ⟨now, rfl⟩
  | fire => exact ⟨now, rfl⟩

theorem run_halted {l : Ledger} (h : Halted l) (steps : List Step) :
    ∃ now, l.run steps = {l with now} := by
  induction steps generalizing l with
  | nil => exact ⟨l.now, rfl⟩
  | cons x rest ih =>
    obtain ⟨now, hstep⟩ := h.step_eq x
    obtain ⟨later, hrest⟩ := ih (l := {l with now}) h
    refine ⟨later, ?_⟩
    show (l.step x).run rest = _
    rw [hstep, hrest]

/-! ### Settling -/

/-- The dispatcher works by itself: by some steps it fires some deadlines, and comes to rest as a
given scheduler. -/
structure Works (callback : Deadline → List Request) (l : Ledger) (fired : List Deadline)
    (s : Scheduler) (work : List Step) : Prop where
  steps : ∀ x ∈ work, x.IsWork callback fired
  scheduler : (l.run work).scheduler = s
  now : (l.run work).now = l.now
  fired : (l.run work).fired = l.fired ++ fired.map fun d => (d, l.now)

section Works
variable {callback : Deadline → List Request} {l : Ledger}

theorem run_append (l : Ledger) (first second : List Step) :
    l.run (first ++ second) = (l.run first).run second :=
  List.foldl_append

theorem Works.refl (callback : Deadline → List Request) (l : Ledger) :
    Works callback l [] l.scheduler [] :=
  ⟨fun _ h => absurd h List.not_mem_nil, rfl, rfl, (List.append_nil _).symm⟩

theorem Works.trans {fired more : List Deadline} {s t : Scheduler} {first second : List Step}
    (h : Works callback l fired s first) (h' : Works callback (l.run first) more t second) :
    Works callback l (fired ++ more) t (first ++ second) := by
  refine ⟨fun x hx => ?_, ?_, ?_, ?_⟩
  · rcases List.mem_append.1 hx with hx | hx
    · exact (h.steps x hx).mono (List.subset_append_left ..)
    · exact (h'.steps x hx).mono (List.subset_append_right ..)
  · rw [run_append, h'.scheduler]
  · rw [run_append, h'.now, h.now]
  · rw [run_append, h'.fired, h.fired, h.now, List.map_append, List.append_assoc]

theorem Works.spent {fired : List Deadline} {s : Scheduler} {work : List Step}
    (h : Works callback l fired s work) : (l.run work).spent = l.spent ++ fired := by
  rw [Ledger.spent, h.fired, List.map_append, List.map_map]
  exact congrArg (l.spent ++ ·) (List.map_id fired)

/-- What a callback asks for is booked, and nothing fires meanwhile. -/
theorem run_requests (l : Ledger) (rs : List Request) :
    (l.run (rs.map .request)).scheduler = rs.foldl request l.scheduler ∧
      (l.run (rs.map .request)).now = l.now ∧ (l.run (rs.map .request)).fired = l.fired := by
  induction rs generalizing l with
  | nil => exact ⟨rfl, rfl, rfl⟩
  | cons r rest ih =>
    have hask : (l.ask r).scheduler = l.scheduler.request r ∧ (l.ask r).now = l.now ∧
        (l.ask r).fired = l.fired := by
      cases r <;> exact ⟨rfl, rfl, rfl⟩
    obtain ⟨hs, hnow, hfired⟩ := ih (l.ask r)
    exact ⟨hs.trans (by rw [hask.1]; rfl), hnow.trans hask.2.1, hfired.trans hask.2.2⟩

/-- A deadline fires, and its callback asks for what it asks for. -/
theorem works_fire (callback : Deadline → List Request) {d : Deadline} {s : Scheduler}
    (hfire : l.scheduler.fire? = some (d, s)) :
    Works callback l [d] ((callback d).foldl request s)
      (.fire :: (callback d).map .request) := by
  have hstep : l.step .fire = {l with scheduler := s, fired := l.fired ++ [(d, l.now)]} := by
    simp only [step, hfire]
  obtain ⟨hs, hnow, hfired⟩ := run_requests (l.step .fire) (callback d)
  refine ⟨fun x hx => ?_, hs.trans (by rw [hstep]), hnow.trans (by rw [hstep]),
    hfired.trans (by rw [hstep]; rfl)⟩
  rcases List.mem_cons.1 hx with rfl | hx
  · trivial
  · obtain ⟨r, hr, rfl⟩ := List.mem_map.1 hx
    exact ⟨d, List.mem_singleton_self d, hr⟩

theorem finish_works (l : Ledger) (callback : Deadline → List Request) (fuel : Nat) :
    ∃ work, Works callback l (l.scheduler.finish callback fuel).1
      (l.scheduler.finish callback fuel).2 work := by
  induction fuel generalizing l with
  | zero => exact ⟨[], .refl callback l⟩
  | succ fuel ih =>
    simp only [finish]
    cases hfire : l.scheduler.fire? with
    | none => exact ⟨[], .refl callback l⟩
    | some x =>
      obtain ⟨d, s⟩ := x
      have hfired := works_fire callback hfire
      obtain ⟨work, hrest⟩ := ih (l.run (.fire :: (callback d).map .request))
      rw [hfired.scheduler] at hrest
      exact ⟨_, hfired.trans hrest⟩

/-- Receiving all that was sent is receiving again and again. -/
theorem run_receives (l : Ledger) :
    ∃ n, l.run (List.replicate n .receive) = {l with scheduler := l.scheduler.receiveAll} := by
  obtain ⟨⟨name, channel, heap, sweep, pending, count, stopped⟩, now, accepted, fired,
    discarded⟩ := l
  cases sweep with
  | cons d rest => exact ⟨0, rfl⟩
  | nil =>
    induction channel generalizing heap with
    | nil => exact ⟨0, rfl⟩
    | cons d rest ih =>
      obtain ⟨n, hn⟩ := ih (enqueue d heap)
      exact ⟨n + 1, hn⟩

theorem receiveAll_works (l : Ledger) (callback : Deadline → List Request) :
    ∃ work, Works callback l [] l.scheduler.receiveAll work ∧
      l.run work = {l with scheduler := l.scheduler.receiveAll} := by
  obtain ⟨n, hn⟩ := run_receives l
  refine ⟨_, ⟨fun x hx => ?_, by rw [hn], by rw [hn], by rw [hn]; exact (List.append_nil _).symm⟩,
    hn⟩
  rw [List.eq_of_mem_replicate hx]
  trivial

/-- Settling is work of the dispatcher. -/
theorem settle_works (l : Ledger) (callback : Deadline → List Request) (fuel : Nat) :
    ∃ work, Works callback l (l.scheduler.settle callback l.now fuel).1
      (l.scheduler.settle callback l.now fuel).2 work := by
  induction fuel generalizing l with
  | zero => exact ⟨[], .refl callback l⟩
  | succ fuel ih =>
    obtain ⟨receiving, hreceived, -⟩ := receiveAll_works l callback
    have hbegin : Works callback (l.run receiving) [] (l.scheduler.receiveAll.begin l.now)
        [.begin] := by
      refine ⟨fun x hx => List.mem_singleton.1 hx ▸ trivial, ?_, rfl, (List.append_nil _).symm⟩
      rw [← hreceived.scheduler, ← hreceived.now]
      rfl
    have hbegun := hreceived.trans hbegin
    simp only [settle]
    cases hsweep : (l.scheduler.receiveAll.begin l.now).sweep with
    | nil => exact ⟨_, hbegun⟩
    | cons d rest =>
      obtain ⟨swept, hswept⟩ :=
        finish_works (l.run (receiving ++ [.begin])) callback (d :: rest).length
      obtain ⟨work, hrest⟩ := ih ((l.run (receiving ++ [.begin])).run swept)
      rw [hbegun.scheduler] at hswept
      rw [hswept.scheduler, hswept.now, hbegun.now] at hrest
      exact ⟨_, hbegun.trans (hswept.trans hrest)⟩

end Works

/-- Settling leaves nothing to be done, unless its fuel is too little for what there is to fire. -/
theorem settle_settled (s : Scheduler) (callback : Deadline → List Request) (now : Instant)
    (fuel : Nat) :
    ((s.settle callback now fuel).2.channel = [] ∧
        ((s.settle callback now fuel).2.begin now).sweep = []) ∨
      fuel ≤ (s.settle callback now fuel).1.length := by
  induction fuel generalizing s with
  | zero => exact .inr (Nat.zero_le _)
  | succ fuel ih =>
    simp only [settle]
    cases hsweep : (s.receiveAll.begin now).sweep with
    | nil => exact .inl (begin_idle hsweep)
    | cons d rest =>
      refine (ih ((s.receiveAll.begin now).finish callback (d :: rest).length).2).imp id
        fun hmore => ?_
      have hfirst : 1 ≤ ((s.receiveAll.begin now).finish callback (d :: rest).length).1.length := by
        simp only [List.length_cons, finish, fire?, hsweep]
        omega
      rw [List.length_append]
      omega

/-! ### The books of a run -/

/-- In every state each deadline that was accepted has fired at most once, as it was scheduled, and
not before it was due. Until the scheduler is stopped, what is pending or counted as fired is what
was accepted, and when the dispatcher has nothing to do, all of it that is due has fired. Once the
scheduler is stopped nothing fires, nothing is pending and nothing is accepted, whatever happens
later. What a settling scheduler does is work of this kind, and it goes on until the dispatcher has
nothing to do or its fuel is spent on what fired. -/
theorem ledger_balances (name : String) (start : Instant) (steps : List Step) :
    let l := run (blank name start) steps
    (∀ d, l.spent.count d ≤ l.accepted.count d) ∧
    (∀ x ∈ l.fired, x.1.due ≤ x.2 ∧ x.2 ≤ l.now) ∧
    l.scheduler.fired = l.fired.length ∧
    ((∀ x ∈ steps, x.isStop = false) →
      l.scheduler.pending + l.scheduler.fired = l.accepted.length ∧
        (l.Settled → ∀ d, d.due ≤ l.now → l.spent.count d = l.accepted.count d)) ∧
    (∀ later,
      let m := l.run (.request .stop :: later)
      m.fired = l.fired ∧ m.accepted = l.accepted ∧ m.scheduler = l.scheduler.stop ∧
        m.scheduler.fired = l.scheduler.fired ∧ m.scheduler.pending = 0) ∧
    ∀ callback fuel,
      let fired := (l.scheduler.settle callback l.now fuel).1
      let settled := (l.scheduler.settle callback l.now fuel).2
      ∃ work, Works callback l fired settled work ∧
        ((l.run work).Settled ∨ fuel ≤ fired.length) := by
  intro l
  have h : Balanced l := (balanced_blank name start).run steps
  refine ⟨h.count_spent_le, h.punctual, h.counted, fun hsteps => ?_, fun later => ?_,
    fun callback fuel => ?_⟩
  · have hperm := h.perm_of_running (running_run (l := blank name start) ⟨rfl, rfl⟩ hsteps)
    refine ⟨?_, fun hsettled d hd => ?_⟩
    · have hlength := hperm.length_eq
      rw [List.length_append, spent, List.length_map] at hlength
      rw [h.pending, h.counted, Nat.add_comm]
      exact hlength
    · have hnone : l.scheduler.waiting.count d = 0 := by
        refine List.count_eq_zero.2 fun hm => ?_
        exact absurd hd (Int.not_le.2 (h.lt_due_of_settled hsettled d hm))
      rw [← hperm.count_eq, List.count_append, hnone, Nat.add_zero]
  · obtain ⟨now, hrun⟩ := run_halted (halted_stop l) later
    have hm : l.run (.request .stop :: later) = {l.ask .stop with now} := hrun
    rw [hm]
    exact ⟨rfl, rfl, rfl, rfl, rfl⟩
  · obtain ⟨work, hwork⟩ := settle_works l callback fuel
    refine ⟨work, hwork, ?_⟩
    rw [Settled, hwork.scheduler, hwork.now]
    exact settle_settled l.scheduler callback l.now fuel

/-- Two deadlines are due, and the callback of the first stops the scheduler: the second never
fires. -/
theorem ledger_balances_stopped :
    let steps : List Step :=
      [.request (.schedule ⟨"a", 1, 5⟩), .request (.schedule ⟨"b", 2, 5⟩), .receive, .receive,
        .advance 5, .begin, .fire]
    let l := run (blank "name" 0) steps
    (∀ x ∈ steps, x.isStop = false) ∧ l.scheduler.pending + l.scheduler.fired = 2 ∧
      (l.run [.request .stop, .fire, .request (.schedule ⟨"c", 3, 0⟩), .receive, .begin,
        .fire]).fired = [(⟨"a", 1, 5⟩, 5)] := by
  intro steps l
  have hsteps : ∀ x ∈ steps, x.isStop = false := by decide
  obtain ⟨-, -, -, hrunning, hstopped, -⟩ := ledger_balances "name" 0 steps
  exact ⟨hsteps, (hrunning hsteps).1, (hstopped _).1⟩

end Ledger

end Aggregation.Scheduler
