import Aggregation.Proofs.Ledger

/-! The order in which deadlines fire.

A deadline that is accepted gets the next number. The channel holds the last numbers, the oldest
first; what was received stands in order of deadline and, where deadlines are equal, of number
(`Numbered`). The dispatcher receives the least number of the channel and puts it between two parts
of its heap (`enqueue_split`), and fires from the front or not at all. So what was received is
overtaken by nothing that waits behind it, however much is accepted in between, and nothing at all
is overtaken by what was accepted after it and is not earlier (`Numbered.step`, `Numbered.run`).

Main result: what the dispatcher has received fires by deadline, equal deadlines by number, and any
two deadlines that are equal fire by number (`fires_in_order`). What it has not received yet may
fire after a deadline that is later (`overtaken_in_channel`). -/
namespace Aggregation.Scheduler

/-- A deadline finds its place behind all that are not later and before all that are. -/
theorem enqueue_split {queue : List Deadline} (h : InOrder queue) (d : Deadline) :
    ∃ front back, queue = front ++ back ∧ enqueue d queue = front ++ d :: back ∧
      (∀ e ∈ front, e.due ≤ d.due) ∧ ∀ e ∈ back, d.due < e.due := by
  induction queue with
  | nil => exact ⟨[], [], rfl, rfl, by simp, by simp⟩
  | cons e rest ih =>
    obtain ⟨he, hrest⟩ := List.pairwise_cons.1 h
    by_cases hd : e.due ≤ d.due
    · obtain ⟨front, back, hqueue, henqueue, hfront, hback⟩ := ih hrest
      refine ⟨e :: front, back, by rw [hqueue]; rfl, ?_, List.forall_mem_cons.2 ⟨hd, hfront⟩, hback⟩
      simp only [enqueue, hd, if_true, henqueue, List.cons_append]
    · have hlt := Int.not_le.1 hd
      refine ⟨[], e :: rest, rfl, ?_, by simp,
        List.forall_mem_cons.2 ⟨hlt, fun x hx => Int.lt_of_lt_of_le hlt (he x hx)⟩⟩
      simp only [enqueue, hd, if_false, List.nil_append]

/-- What joins an ordered list keeps it in order where it fits. -/
theorem pairwise_insert {α : Type} {r : α → α → Prop} {front back : List α} {x : α}
    (h : (front ++ back).Pairwise r) (hfront : ∀ y ∈ front, r y x) (hback : ∀ y ∈ back, r x y) :
    (front ++ x :: back).Pairwise r := by
  obtain ⟨hf, hb, hcross⟩ := List.pairwise_append.1 h
  refine List.pairwise_append.2 ⟨hf, List.pairwise_cons.2 ⟨hback, hb⟩, fun y hy z hz => ?_⟩
  rcases List.mem_cons.1 hz with rfl | hz
  · exact hfront y hy
  · exact hcross y hy z hz

namespace Ledger

/-! ### Numbers -/

/-- A deadline that was accepted, and how many were accepted before it. -/
structure Ticket where
  number : Nat
  deadline : Deadline

/-- By deadline, equal deadlines by number. -/
def Ticket.Before (s t : Ticket) : Prop :=
  s.deadline.due < t.deadline.due ∨ s.deadline.due = t.deadline.due ∧ s.number < t.number

/-- By number, unless the deadline is earlier. -/
def Ticket.MayPrecede (s t : Ticket) : Prop :=
  s.number < t.number ∨ s.deadline.due < t.deadline.due

/-- Tickets stand for different acceptances. -/
structure Issued (accepted : List Deadline) (tickets : List Ticket) : Prop where
  valid : ∀ t ∈ tickets, accepted[t.number]? = some t.deadline
  distinct : (tickets.map Ticket.number).Nodup

/-- How many deadlines were accepted that are not in the channel any more. -/
def received (l : Ledger) : Nat :=
  l.accepted.length - l.scheduler.channel.length

/-- The tickets of what fired, of what was received and waits, and of what is in the channel. -/
structure Numbered (l : Ledger) (fired waiting sent : List Ticket) : Prop where
  spent : fired.map Ticket.deadline = l.spent
  waits : waiting.map Ticket.deadline = l.scheduler.sweep ++ l.scheduler.heap
  inChannel : sent.map Ticket.deadline = l.scheduler.channel
  issued : Issued l.accepted (fired ++ (waiting ++ sent))
  whole : l.accepted.length = l.received + sent.length
  /-- What is in the channel was accepted last. -/
  last : sent.map Ticket.number = List.range' l.received sent.length
  earlier : ∀ t ∈ fired ++ waiting, t.number < l.received
  inOrder : waiting.Pairwise Ticket.Before
  mayPrecede : (fired ++ waiting).Pairwise Ticket.MayPrecede

theorem numbered_blank (name : String) (now : Instant) : Numbered (blank name now) [] [] [] :=
  ⟨rfl, rfl, rfl, ⟨by simp, List.nodup_nil⟩, rfl, rfl, by simp, List.Pairwise.nil, List.Pairwise.nil⟩

section Tickets
variable {accepted : List Deadline} {tickets some : List Ticket}

theorem Issued.lt_length (h : Issued accepted tickets) {t : Ticket} (ht : t ∈ tickets) :
    t.number < accepted.length :=
  (List.getElem?_eq_some_iff.1 (h.valid t ht)).1

theorem Issued.sublist (h : Issued accepted tickets) (hsub : some.Sublist tickets) :
    Issued accepted some :=
  ⟨fun t ht => h.valid t (hsub.subset ht), h.distinct.sublist (hsub.map _)⟩

theorem Issued.perm (h : Issued accepted tickets) (hperm : some.Perm tickets) :
    Issued accepted some :=
  ⟨fun t ht => h.valid t (hperm.subset ht), (hperm.map _).nodup_iff.2 h.distinct⟩

/-- The next acceptance is a new one. -/
theorem Issued.concat (h : Issued accepted tickets) (d : Deadline) :
    Issued (accepted ++ [d]) (tickets ++ [⟨accepted.length, d⟩]) := by
  refine ⟨List.forall_mem_append.2 ⟨fun t ht => ?_, ?_⟩, ?_⟩
  · rw [List.getElem?_append_left (h.lt_length ht)]
    exact h.valid t ht
  · simp
  · rw [List.map_append]
    refine List.nodup_append.2 ⟨h.distinct, by simp, fun n hn k hk => ?_⟩
    obtain ⟨t, ht, rfl⟩ := List.mem_map.1 hn
    obtain rfl := List.mem_singleton.1 hk
    exact Nat.ne_of_lt (h.lt_length ht)

end Tickets

/-! ### Steps -/

/-- The tickets below a number. -/
def below (n : Nat) (tickets : List Ticket) : List Ticket :=
  tickets.filter fun t => decide (t.number < n)

theorem below_append (n : Nat) (front back : List Ticket) :
    below n (front ++ back) = below n front ++ below n back :=
  List.filter_append ..

theorem below_sublist {k n : Nat} (h : k ≤ n) (tickets : List Ticket) :
    (below k tickets).Sublist (below n tickets) :=
  List.monotone_filter_right _ fun t ht => by
    simp only [decide_eq_true_eq] at ht ⊢
    exact Nat.lt_of_lt_of_le ht h

/-- Of the tickets below a number, those that fire come from the front of those that wait. -/
def Advances (n : Nat) (waiting fired left : List Ticket) : Prop :=
  below n (fired ++ left) <+: below n waiting

theorem Advances.of_eq {n : Nat} {waiting fired left : List Ticket}
    (h : below n (fired ++ left) = below n waiting) : Advances n waiting fired left :=
  ⟨[], (List.append_nil _).trans h⟩

theorem Advances.trans {n : Nat} {waiting fired left more rest : List Ticket}
    (h : Advances n waiting fired left) (h' : Advances n left more rest) :
    Advances n waiting (fired ++ more) rest := by
  refine List.IsPrefix.trans ?_ h
  rw [List.append_assoc, below_append, below_append n fired left]
  exact (List.prefix_append_right_inj _).2 h'

namespace Numbered
variable {l : Ledger} {fired waiting sent : List Ticket}

theorem dueInOrder (h : Numbered l fired waiting sent) :
    InOrder (l.scheduler.sweep ++ l.scheduler.heap) := by
  rw [InOrder, ← h.waits, List.pairwise_map]
  refine h.inOrder.imp fun hbefore => ?_
  rcases hbefore with hlt | ⟨heq, -⟩
  · exact Int.le_of_lt hlt
  · exact Int.le_of_eq heq

/-- A new ticket joins the end of the channel. -/
theorem schedule (h : Numbered l fired waiting sent) (d : Deadline) :
    ∃ sent', Numbered (l.ask (.schedule d)) fired waiting sent' := by
  rcases l.ask_schedule_cases d with ⟨-, hsame⟩ | ⟨-, hnext⟩
  · rw [hsame]
    exact ⟨sent, h⟩
  · have hreceived : (l.ask (.schedule d)).received = l.received := by
      simp [hnext, received]
    refine ⟨sent ++ [⟨l.accepted.length, d⟩],
      ⟨?_, ?_, ?_, ?_, ?_, ?_, hreceived ▸ h.earlier, h.inOrder, h.mayPrecede⟩⟩
    · rw [hnext]
      exact h.spent
    · rw [hnext]
      exact h.waits
    · rw [hnext, List.map_append, h.inChannel]
      rfl
    · rw [hnext, ← List.append_assoc waiting, ← List.append_assoc]
      exact h.issued.concat d
    · rw [hreceived, hnext, List.length_append, List.length_append, h.whole]
      exact Nat.add_assoc ..
    · rw [hreceived, List.map_append, h.last, List.length_append, List.length_singleton,
        List.range'_concat, h.whole, Nat.one_mul]
      rfl

theorem stop (h : Numbered l fired waiting sent) : Numbered (l.ask .stop) fired [] [] := by
  have hsub : (fired ++ []).Sublist (fired ++ waiting) := (List.nil_sublist _).append_left _
  refine ⟨h.spent, rfl, rfl, h.issued.sublist ((List.nil_sublist _).append_left _), rfl, rfl,
    fun t ht => ?_, List.Pairwise.nil, h.mayPrecede.sublist hsub⟩
  exact Nat.lt_of_lt_of_le (h.earlier t (hsub.subset ht)) (Nat.sub_le ..)

/-- The dispatcher receives by number. -/
theorem number_first {t : Ticket} (h : Numbered l fired waiting (t :: sent)) :
    t.number = l.received ∧ sent.map Ticket.number = List.range' (l.received + 1) sent.length := by
  have hlast := h.last
  rwa [List.map_cons, List.length_cons, List.range'_succ, List.cons.injEq] at hlast

/-- What is received has the greatest number so far, so it stands right behind those of its own
deadline. -/
theorem receive (h : Numbered l fired waiting sent) :
    ∃ waiting' sent', Numbered (l.step .receive) fired waiting' sent' ∧
      ∀ n ≤ l.received, below n waiting' = below n waiting := by
  rcases l.step_receive_cases with hsame | ⟨d, rest, hsweep, hchannel, hnext⟩
  · rw [hsame]
    exact ⟨waiting, sent, h, fun _ _ => rfl⟩
  · obtain ⟨t, sent, rfl, rfl, hrest⟩ := List.map_eq_cons_iff.1 (h.inChannel.trans hchannel)
    obtain ⟨hnumber, hlast⟩ := h.number_first
    have hwhole := h.whole
    rw [List.length_cons] at hwhole
    have hreceived : (l.step .receive).received = l.received + 1 := by
      have hlength : rest.length = sent.length := by rw [← hrest, List.length_map]
      rw [hnext]
      show l.accepted.length - rest.length = l.received + 1
      omega
    have hwaits := h.waits
    have hdue := h.dueInOrder
    rw [hsweep, List.nil_append] at hwaits hdue
    obtain ⟨front, back, hheap, henqueue, hfront, hback⟩ := enqueue_split hdue t.deadline
    obtain ⟨a, b, rfl, rfl, rfl⟩ := List.map_eq_append_iff.1 (hwaits.trans hheap)
    have hearlier := h.earlier
    have hlate : ∀ s ∈ a ++ b, s.number < t.number := fun s hs =>
      hnumber ▸ hearlier s (List.mem_append_right _ hs)
    have hbefore : (a ++ t :: b).Pairwise Ticket.Before := by
      refine pairwise_insert h.inOrder (fun s hs => ?_) fun s hs =>
        .inl (hback _ (List.mem_map_of_mem hs))
      rcases Int.lt_or_eq_of_le (hfront _ (List.mem_map_of_mem hs)) with hlt | heq
      · exact .inl hlt
      · exact .inr ⟨heq, hlate s (List.mem_append_left _ hs)⟩
    have hmay : (fired ++ (a ++ t :: b)).Pairwise Ticket.MayPrecede := by
      have hmay := h.mayPrecede
      rw [← List.append_assoc] at hmay hearlier ⊢
      exact pairwise_insert hmay
        (fun s hs => .inl (hnumber ▸ hearlier s (List.mem_append_left _ hs)))
        fun s hs => .inr (hback _ (List.mem_map_of_mem hs))
    refine ⟨a ++ t :: b, sent, ⟨?_, ?_, ?_, ?_, ?_, ?_, ?_, hbefore, hmay⟩, fun n hn => ?_⟩
    · rw [hnext]
      exact h.spent
    · rw [hnext, List.map_append, List.map_cons, hsweep, henqueue]
      rfl
    · rw [hnext, hrest]
    · rw [hnext]
      refine h.issued.perm (List.Perm.append_left _ ?_)
      rw [List.append_assoc, List.append_assoc]
      exact (List.perm_middle.symm.append_left _)
    · rw [hreceived, hnext, hwhole]
      omega
    · rw [hreceived, hlast]
    · intro s hs
      rw [hreceived]
      rcases List.mem_append.1 hs with hs | hs
      · exact Nat.lt_succ_of_lt (hearlier s (List.mem_append_left _ hs))
      · rcases List.mem_cons.1 (List.perm_middle.subset hs) with rfl | hs
        · exact hnumber ▸ Nat.lt_succ_self _
        · exact Nat.lt_succ_of_lt (hearlier s (List.mem_append_right _ hs))
    · have hnew : below n (t :: b) = below n b :=
        List.filter_cons_of_neg (by simpa [hnumber] using hn)
      simp only [below_append, hnew]

theorem begin (h : Numbered l fired waiting sent) :
    Numbered (l.step .begin) fired waiting sent := by
  rcases l.step_begin_cases with hsame | ⟨hsweep, hnext⟩
  · rwa [hsame]
  · rw [hnext]
    refine ⟨h.spent, ?_, h.inChannel, h.issued, h.whole, h.last, h.earlier, h.inOrder,
      h.mayPrecede⟩
    show _ = dueBy l.now l.scheduler.heap ++ later l.now l.scheduler.heap
    rw [h.waits, hsweep, List.nil_append, dueBy_append_later]

theorem fire (h : Numbered l fired waiting sent) :
    ∃ new waiting', Numbered (l.step .fire) (fired ++ new) waiting' sent ∧
      new ++ waiting' = waiting := by
  rcases l.step_fire_cases with hsame | ⟨d, rest, hsweep, hnext⟩
  · rw [hsame]
    exact ⟨[], waiting, by rwa [List.append_nil], rfl⟩
  · have hwaits := h.waits
    rw [hsweep] at hwaits
    obtain ⟨t, waiting, rfl, rfl, hrest⟩ := List.map_eq_cons_iff.1 hwaits
    have hsplit : fired ++ t :: waiting = fired ++ [t] ++ waiting := by simp
    have hearlier := h.earlier
    have hmay := h.mayPrecede
    rw [hsplit] at hearlier hmay
    rw [hnext]
    refine ⟨[t], waiting, ⟨?_, hrest, h.inChannel, ?_, h.whole, h.last, hearlier,
      (List.pairwise_cons.1 h.inOrder).2, hmay⟩, rfl⟩
    · show _ = (l.fired ++ [(t.deadline, l.now)]).map Prod.fst
      rw [List.map_append, List.map_append, h.spent]
      rfl
    · rw [List.append_assoc]
      exact h.issued

theorem step (h : Numbered l fired waiting sent) (x : Step) :
    ∃ new waiting' sent', Numbered (l.step x) (fired ++ new) waiting' sent' ∧
      ∀ n ≤ l.received, Advances n waiting new waiting' := by
  have hfired : fired ++ [] = fired := List.append_nil fired
  cases x with
  | request r =>
    cases r with
    | schedule d =>
      obtain ⟨sent', hnext⟩ := h.schedule d
      exact ⟨[], waiting, sent', hfired.symm ▸ hnext, fun n _ => List.prefix_rfl⟩
    | stop => exact ⟨[], [], [], hfired.symm ▸ h.stop, fun n _ => List.nil_prefix⟩
  | advance ms =>
    exact ⟨[], waiting, sent, hfired.symm ▸ ⟨h.spent, h.waits, h.inChannel, h.issued, h.whole,
      h.last, h.earlier, h.inOrder, h.mayPrecede⟩, fun n _ => List.prefix_rfl⟩
  | receive =>
    obtain ⟨waiting', sent', hnext, hsame⟩ := h.receive
    exact ⟨[], waiting', sent', hfired.symm ▸ hnext, fun n hn => .of_eq (hsame n hn)⟩
  | begin => exact ⟨[], waiting, sent, hfired.symm ▸ h.begin, fun n _ => List.prefix_rfl⟩
  | fire =>
    obtain ⟨new, waiting', hnext, hsame⟩ := h.fire
    exact ⟨new, waiting', sent, hnext, fun n _ => .of_eq (congrArg (below n) hsame)⟩

end Numbered

/-- What was received stays received. -/
theorem received_le_step (l : Ledger) (x : Step) : l.received ≤ (l.step x).received := by
  cases x with
  | request r =>
    cases r with
    | schedule d =>
      show l.received ≤ (l.ask (.schedule d)).received
      rcases l.ask_schedule_cases d with ⟨-, hsame⟩ | ⟨-, hnext⟩
      · rw [hsame]
      · simp [hnext, received]
    | stop => exact Nat.sub_le_sub_left (Nat.zero_le _) _
  | advance _ => exact Nat.le_refl _
  | receive =>
    rcases l.step_receive_cases with hsame | ⟨d, rest, -, hchannel, hnext⟩
    · rw [hsame]
    · rw [hnext, received, hchannel, List.length_cons]
      show _ ≤ l.accepted.length - rest.length
      omega
  | begin =>
    rcases l.step_begin_cases with hsame | ⟨-, hnext⟩
    · rw [hsame]
    · rw [hnext]
      exact Nat.le_refl _
  | fire =>
    rcases l.step_fire_cases with hsame | ⟨d, rest, -, hnext⟩
    · rw [hsame]
    · rw [hnext]
      exact Nat.le_refl _

theorem received_le_run (l : Ledger) (steps : List Step) : l.received ≤ (l.run steps).received := by
  induction steps generalizing l with
  | nil => exact Nat.le_refl _
  | cons x rest ih => exact Nat.le_trans (received_le_step l x) (ih (l.step x))

theorem Numbered.run {l : Ledger} {fired waiting sent : List Ticket}
    (h : Numbered l fired waiting sent) (steps : List Step) :
    ∃ since waiting' sent', Numbered (l.run steps) (fired ++ since) waiting' sent' ∧
      ∀ n ≤ l.received, Advances n waiting since waiting' := by
  induction steps generalizing l fired waiting sent with
  | nil => exact ⟨[], waiting, sent, by rwa [List.append_nil], fun _ _ => List.prefix_rfl⟩
  | cons x rest ih =>
    obtain ⟨new, _, _, hnext, hfirst⟩ := h.step x
    obtain ⟨since, waiting', sent', hlast, hrest⟩ := ih hnext
    refine ⟨new ++ since, waiting', sent', by rwa [← List.append_assoc], fun n hn => ?_⟩
    exact (hfirst n hn).trans (hrest n (Nat.le_trans hn (received_le_step l x)))

/-! ### The order -/

/-- From one state of the books to a later one, tickets fire: different ones, and none that had
fired before. What was received before fires in order among itself, whatever fires in between; and
of any two that ever fired, the one that was accepted first fired first unless the other one is
earlier. -/
structure FiredInOrder (l m : Ledger) (before since : List Ticket) : Prop where
  fired : m.spent = l.spent ++ since.map Ticket.deadline
  issued : Issued m.accepted (before ++ since)
  inOrder : (below l.received since).Pairwise Ticket.Before
  mayPrecede : (before ++ since).Pairwise Ticket.MayPrecede

theorem Numbered.firedInOrder {l : Ledger} {fired waiting sent : List Ticket}
    (h : Numbered l fired waiting sent) (steps : List Step) :
    ∃ since, FiredInOrder l (l.run steps) fired since := by
  obtain ⟨since, waiting', sent', hlast, hadvances⟩ := h.run steps
  refine ⟨since, ⟨?_, ?_, ?_, ?_⟩⟩
  · rw [← hlast.spent, ← h.spent, List.map_append]
  · exact hlast.issued.sublist (List.sublist_append_left ..)
  · have hadvanced := hadvances _ (Nat.le_refl _)
    rw [Advances, below_append] at hadvanced
    exact h.inOrder.sublist
      ((((List.prefix_append _ _).trans hadvanced).sublist).trans List.filter_sublist)
  · exact hlast.mayPrecede.sublist (List.sublist_append_left ..)

/-- A scheduler that settles receives first, and what it has received it fires in order. -/
theorem Numbered.settle {l : Ledger} {fired waiting sent : List Ticket}
    (h : Numbered l fired waiting sent) (ms : Nat) (callback : Deadline → List Request)
    (fuel : Nat) :
    ∃ work since,
      since.map Ticket.deadline = (l.scheduler.settle callback (l.now + ms) fuel).1 ∧
      Works callback (l.step (.advance ms)) (l.scheduler.settle callback (l.now + ms) fuel).1
        (l.scheduler.settle callback (l.now + ms) fuel).2 work ∧
      FiredInOrder l ((l.step (.advance ms)).run work) fired since ∧
      (l.scheduler.sweep = [] → (below l.accepted.length since).Pairwise Ticket.Before) := by
  cases fuel with
  | zero =>
    obtain ⟨since, hsince⟩ := h.firedInOrder [.advance ms]
    have hnone : since.map Ticket.deadline = [] :=
      List.append_right_eq_self.1 hsince.fired.symm
    obtain rfl := List.map_eq_nil_iff.1 hnone
    exact ⟨[], [], rfl, .refl callback _, hsince, fun _ => List.Pairwise.nil⟩
  | succ fuel =>
    obtain ⟨receiving, hreceiving, hrun⟩ := receiveAll_works (l.step (.advance ms)) callback
    have hrun : l.run (.advance ms :: receiving) = _ := hrun
    obtain ⟨before, waiting', sent', hnext, -⟩ := h.run (.advance ms :: receiving)
    have hspent : (l.run (.advance ms :: receiving)).spent = l.spent := by rw [hrun]; rfl
    have hbefore : before.map Ticket.deadline = [] := by
      have hmap := hnext.spent
      rwa [hspent, ← h.spent, List.map_append, List.append_right_eq_self] at hmap
    obtain rfl := List.map_eq_nil_iff.1 hbefore
    rw [List.append_nil] at hnext
    obtain ⟨work, hwork⟩ := settle_works (l.run (.advance ms :: receiving)) callback (fuel + 1)
    obtain ⟨since, hsince⟩ := hnext.firedInOrder work
    have hsame : (l.run (.advance ms :: receiving)).scheduler.settle callback
        (l.run (.advance ms :: receiving)).now (fuel + 1) =
          l.scheduler.settle callback (l.now + ms) (fuel + 1) := by
      rw [hrun]
      exact settle_receiveAll ..
    rw [hsame] at hwork
    have hworks := hreceiving.trans hwork
    refine ⟨receiving ++ work, since, ?_, hworks, ?_, fun hidle => ?_⟩
    · exact List.append_cancel_left (hsince.fired.symm.trans hwork.spent)
    · rw [run_append]
      exact ⟨hspent ▸ hsince.fired, hsince.issued,
        hsince.inOrder.sublist (below_sublist (received_le_run l _) since), hsince.mayPrecede⟩
    · have hall : (l.run (.advance ms :: receiving)).received = l.accepted.length := by
        rw [hrun, received]
        show l.accepted.length - l.scheduler.receiveAll.channel.length = _
        rw [receiveAll_of_idle hidle]
        rfl
      exact hall ▸ hsince.inOrder

/-- Number what was accepted, in any state. Whatever happens from there on, time passing, sweeps, and
requests of callbacks and others, what the dispatcher has received by now and fires from now on
fires by deadline, equal deadlines in the order of acceptance; and of any two deadlines that ever
fire, the one that was accepted first fires first unless the other one is earlier. So does what a
scheduler fires that settles after some time has passed, whatever its callback asks for; it receives
all that was sent before it begins a sweep, so all that was accepted by now fires in that order. -/
theorem fires_in_order (name : String) (start : Instant) (steps : List Step) :
    let l := run (blank name start) steps
    ∃ before, before.map Ticket.deadline = l.spent ∧
      (∀ later, ∃ since, FiredInOrder l (l.run later) before since) ∧
      ∀ (ms : Nat) callback fuel, ∃ work since,
        since.map Ticket.deadline = (l.scheduler.settle callback (l.now + ms) fuel).1 ∧
        Works callback (l.step (.advance ms))
          (l.scheduler.settle callback (l.now + ms) fuel).1
          (l.scheduler.settle callback (l.now + ms) fuel).2 work ∧
        FiredInOrder l ((l.step (.advance ms)).run work) before since ∧
        (l.scheduler.sweep = [] → (below l.accepted.length since).Pairwise Ticket.Before) := by
  intro l
  obtain ⟨before, waiting, sent, h, -⟩ := (numbered_blank name start).run steps
  rw [List.nil_append] at h
  exact ⟨before, h.spent, h.firedInOrder, h.settle⟩

/-- Three deadlines wait in the channel, two of them equal; while they fire, a callback asks for one
that is earlier than any of them. -/
theorem fires_in_order_ties :
    let l := run (blank "name" 0)
      [.request (.schedule ⟨"a", 1, 5⟩), .request (.schedule ⟨"b", 2, 3⟩),
        .request (.schedule ⟨"c", 3, 5⟩)]
    let callback := fun d : Deadline =>
      if d.group = 2 then [Request.schedule ⟨"d", 4, 1⟩] else []
    let fired := (l.scheduler.settle callback (l.now + 5) 3).1
    l.scheduler.sweep = [] ∧
      fired = [⟨"b", 2, 3⟩, ⟨"a", 1, 5⟩, ⟨"c", 3, 5⟩, ⟨"d", 4, 1⟩] ∧
      ∃ since, since.map Ticket.deadline = fired ∧ (below 3 since).Pairwise Ticket.Before := by
  intro l callback fired
  obtain ⟨before, -, -, hsettle⟩ := fires_in_order "name" 0
    [.request (.schedule ⟨"a", 1, 5⟩), .request (.schedule ⟨"b", 2, 3⟩),
      .request (.schedule ⟨"c", 3, 5⟩)]
  obtain ⟨work, since, hfired, -, -, hinOrder⟩ := hsettle 5 callback 3
  exact ⟨rfl, rfl, since, hfired, hinOrder rfl⟩

/-- Two deadlines are sent, the later one first, and both come due before the dispatcher receives any
of them. It receives one, sweeps its heap and only then receives the other: nothing is sent
meanwhile, and they do not fire by deadline. -/
theorem overtaken_in_channel :
    let late : Deadline := ⟨"late", 1, 25⟩
    let early : Deadline := ⟨"early", 2, 20⟩
    let l := run (blank "name" 0)
      [.request (.schedule late), .request (.schedule early), .advance 30]
    let work : List Step := [.receive, .begin, .fire, .receive, .begin, .fire]
    l.accepted = [late, early] ∧ l.spent = [] ∧ l.scheduler.pending = 2 ∧
      late.due ≤ l.now ∧ early.due < late.due ∧
      (∀ x ∈ work, x.IsWork (fun _ => []) []) ∧
      (l.run work).accepted = l.accepted ∧ (l.run work).now = l.now ∧
      (l.run work).spent = [late, early] ∧ (l.run work).Settled := by
  intro late early l work
  have hwork : ∀ x ∈ work, x.IsWork (fun _ => []) [] := by simp [work, Step.IsWork]
  have hsettled : (l.run work).Settled := ⟨by decide, by decide⟩
  exact ⟨rfl, rfl, rfl, by decide, by decide, hwork, by decide, by decide, by decide, hsettled⟩

end Ledger

end Aggregation.Scheduler
