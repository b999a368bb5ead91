import Aggregation.Scheduler
import Mathlib.Data.List.TakeWhile

/-! What the dispatcher receives, and what a sweep fires.

The heap stays in order of deadline, so what is due stands in front of what is not
(`lt_due_of_mem_later`). What waits outside a sweep is the same before and after the dispatcher
receives some of it (`queue_receive`); a deadline that is sent will stand behind all in it that are
not later (`queue_schedule`). A sweep whose callback asks for nothing fires all that was due in the
heap, each deadline once (`finish_idle`). -/
namespace Aggregation.Scheduler

/-! ### The order of the queue -/

/-- In order of deadline. -/
def InOrder (queue : List Deadline) : Prop :=
  queue.Pairwise fun d e => d.due ≤ e.due

theorem enqueue_perm (d : Deadline) (queue : List Deadline) :
    (enqueue d queue).Perm (d :: queue) := by
  induction queue with
  | nil => exact .refl _
  | cons e rest ih =>
    by_cases h : e.due ≤ d.due
    · simp only [enqueue, h, if_true]
      exact (ih.cons e).trans (.swap d e rest)
    · simp only [enqueue, h, if_false]
      exact .refl _

theorem mem_enqueue {d e : Deadline} {queue : List Deadline} :
    e ∈ enqueue d queue ↔ e = d ∨ e ∈ queue :=
  (enqueue_perm d queue).mem_iff.trans List.mem_cons

theorem InOrder.enqueue {queue : List Deadline} (h : InOrder queue) (d : Deadline) :
    InOrder (enqueue d queue) := by
  induction queue with
  | nil => exact List.pairwise_singleton _ d
  | cons e rest ih =>
    obtain ⟨he, hrest⟩ := List.pairwise_cons.1 h
    by_cases hd : e.due ≤ d.due
    · simp only [Scheduler.enqueue, hd, if_true]
      refine List.pairwise_cons.2 ⟨fun x hx => ?_, ih hrest⟩
      rcases mem_enqueue.1 hx with rfl | hx
      · exact hd
      · exact he x hx
    · simp only [Scheduler.enqueue, hd, if_false]
      refine List.pairwise_cons.2 ⟨fun x hx => ?_, h⟩
      have hlt := Int.le_of_lt (Int.not_le.1 hd)
      rcases List.mem_cons.1 hx with rfl | hx
      · exact hlt
      · exact Int.le_trans hlt (he x hx)

/-! ### Receiving -/

section Receiving
variable {s : Scheduler}

theorem schedule_of_stopped (h : s.stopped = true) (d : Deadline) : s.schedule d = s := by
  simp [schedule, h]

theorem schedule_of_running (h : s.stopped = false) (d : Deadline) :
    s.schedule d = {s with channel := s.channel ++ [d], pending := s.pending + 1} := by
  simp [schedule, h]

theorem queue_schedule (h : s.stopped = false) (d : Deadline) :
    (s.schedule d).queue = enqueue d s.queue := by
  simp [schedule_of_running h, queue]

/-- The dispatcher receives the oldest deadline of the channel, or nothing changes. -/
theorem receive_cases (s : Scheduler) :
    s.receive = s ∨ ∃ d rest, s.sweep = [] ∧ s.channel = d :: rest ∧
      s.receive = {s with channel := rest, heap := enqueue d s.heap} := by
  obtain ⟨name, channel, heap, sweep, pending, fired, stopped⟩ := s
  cases sweep with
  | nil =>
    cases channel with
    | nil => exact .inl rfl
    | cons d rest => exact .inr ⟨d, rest, rfl, rfl, rfl⟩
  | cons e more => exact .inl rfl

theorem queue_receive (s : Scheduler) : s.receive.queue = s.queue := by
  rcases receive_cases s with h | ⟨d, rest, -, hchannel, h⟩
  · rw [h]
  · rw [h, queue, queue, hchannel, List.foldl_cons]

theorem receiveAll_of_idle (h : s.sweep = []) :
    s.receiveAll = {s with channel := [], heap := s.queue} := by
  simp only [receiveAll, h]

@[simp] theorem sweep_receiveAll (s : Scheduler) : s.receiveAll.sweep = s.sweep := by
  cases hsweep : s.sweep <;> simp only [receiveAll, hsweep]

theorem receiveAll_receiveAll (s : Scheduler) : s.receiveAll.receiveAll = s.receiveAll := by
  cases hsweep : s.sweep with
  | nil =>
    rw [receiveAll_of_idle (s.sweep_receiveAll.trans hsweep), receiveAll_of_idle hsweep]
    rfl
  | cons d rest => simp only [receiveAll, hsweep]

end Receiving

/-! ### What is due -/

/-- What of a queue is due. -/
def dueBy (now : Instant) (queue : List Deadline) : List Deadline :=
  queue.takeWhile fun d => decide (d.due ≤ now)

/-- What of a queue is not due. -/
def later (now : Instant) (queue : List Deadline) : List Deadline :=
  queue.dropWhile fun d => decide (d.due ≤ now)

theorem dueBy_append_later (now : Instant) (queue : List Deadline) :
    dueBy now queue ++ later now queue = queue :=
  List.takeWhile_append_dropWhile

theorem due_le_of_mem_dueBy {now : Instant} {queue : List Deadline} {d : Deadline}
    (h : d ∈ dueBy now queue) : d.due ≤ now := by
  simpa using List.mem_takeWhile_imp h

theorem InOrder.later {queue : List Deadline} (h : InOrder queue) (now : Instant) :
    InOrder (later now queue) :=
  h.sublist (List.dropWhile_sublist _)

theorem lt_due_of_mem_later {now : Instant} {queue : List Deadline} (h : InOrder queue)
    {d : Deadline} (hd : d ∈ later now queue) : now < d.due := by
  induction queue with
  | nil => cases hd
  | cons e rest ih =>
    obtain ⟨he, hrest⟩ := List.pairwise_cons.1 h
    by_cases hdue : e.due ≤ now
    · simp only [Scheduler.later, List.dropWhile_cons, hdue, decide_true, if_true] at hd
      exact ih hrest hd
    · simp only [Scheduler.later, List.dropWhile_cons, hdue, decide_false, Bool.false_eq_true,
        if_false] at hd
      have hlt := Int.not_le.1 hdue
      rcases List.mem_cons.1 hd with rfl | hd
      · exact hlt
      · exact Int.lt_of_lt_of_le hlt (he d hd)

/-- What is left when all that is due was taken begins with nothing that is due. -/
theorem dueBy_later (now : Instant) (queue : List Deadline) : dueBy now (later now queue) = [] :=
  List.takeWhile_eq_nil_iff.2 fun hl => List.dropWhile_get_zero_not _ queue hl

theorem length_dueBy_add_length_later (now : Instant) (queue : List Deadline) :
    (dueBy now queue).length + (later now queue).length = queue.length := by
  rw [← List.length_append, dueBy_append_later]

/-! ### Sweeps -/

theorem begin_of_idle {s : Scheduler} (h : s.sweep = []) (now : Instant) :
    s.begin now = {s with sweep := dueBy now s.heap, heap := later now s.heap} := by
  simp only [begin, h, dueBy, later]

theorem begin_receiveAll {s : Scheduler} (h : s.sweep = []) (now : Instant) :
    s.receiveAll.begin now =
      {s with channel := [], heap := later now s.queue, sweep := dueBy now s.queue} := by
  rw [begin_of_idle (s.sweep_receiveAll.trans h), receiveAll_of_idle h]

/-- The dispatcher begins a sweep with what is due in its heap, or nothing changes. -/
theorem begin_cases (s : Scheduler) (now : Instant) :
    s.begin now = s ∨ s.sweep = [] ∧
      s.begin now = {s with sweep := dueBy now s.heap, heap := later now s.heap} := by
  cases hsweep : s.sweep with
  | nil => exact .inr ⟨rfl, begin_of_idle hsweep now⟩
  | cons d rest => exact .inl (by simp only [begin, hsweep])

/-- A sweep that finds nothing is no sweep, and nothing due is left in the heap. -/
theorem idle_of_begin {s : Scheduler} {now : Instant} (h : (s.begin now).sweep = []) :
    s.sweep = [] ∧ dueBy now s.heap = [] := by
  rcases begin_cases s now with hsame | ⟨hsweep, hbegin⟩
  · have hsweep : s.sweep = [] := hsame ▸ h
    rw [begin_of_idle hsweep] at h
    exact ⟨hsweep, h⟩
  · rw [hbegin] at h
    exact ⟨hsweep, h⟩

/-- A dispatcher that has received all that was sent and finds nothing due has nothing to do. -/
theorem begin_idle {s : Scheduler} {now : Instant} (h : (s.receiveAll.begin now).sweep = []) :
    (s.receiveAll.begin now).channel = [] ∧
      ((s.receiveAll.begin now).begin now).sweep = [] := by
  have hidle := (idle_of_begin h).1
  have hchannel : s.receiveAll.channel = [] := by
    rw [receiveAll_of_idle (s.sweep_receiveAll.symm.trans hidle)]
  rw [begin_of_idle h now, begin_of_idle hidle now]
  exact ⟨hchannel, dueBy_later now s.receiveAll.heap⟩

/-- Settling begins by receiving, so it does not matter if that is done before. -/
theorem settle_receiveAll (s : Scheduler) (callback : Deadline → List Request) (now : Instant)
    (fuel : Nat) :
    s.receiveAll.settle callback now (fuel + 1) = s.settle callback now (fuel + 1) := by
  simp only [settle, receiveAll_receiveAll]

/-- The scheduler after a sweep of which nothing is left. -/
def swept (s : Scheduler) : Scheduler :=
  {s with sweep := [], pending := s.pending - s.sweep.length, fired := s.fired + s.sweep.length}

theorem finish_idle (s : Scheduler) :
    s.finish (fun _ => []) s.sweep.length = (s.sweep, s.swept) := by
  obtain ⟨name, channel, heap, sweep, pending, fired, stopped⟩ := s
  induction sweep generalizing pending fired with
  | nil => rfl
  | cons d rest ih =>
    simp only [List.length_cons, finish, fire?, List.foldl_nil]
    simp only [] at ih
    rw [ih]
    simp only [swept, List.length_cons]
    congr 2 <;> omega

end Aggregation.Scheduler
