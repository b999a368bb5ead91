import Aggregation.Proofs.Coordinator.Execution
import Aggregation.Proofs.Coordinator.Strand
import Aggregation.Proofs.Policy

/-! Keys do not interfere.

With a sink that answers at once, and the same to the same result, what is seen of a key is what is
seen when everything done to other keys is left out. The reason is that an operation changes the
strand of a key to one that can be told from that strand alone (`strand_perform`): a coordinator
has a machine in it for each key, and none of these looks at another. Numbers and stale deadlines,
which the keys share, show in no strand. -/
namespace Aggregation

/-! ### One key's machine -/

namespace Strand
variable (verdict : Verdict) (settings : Settings) (key : String)

/-- What an operation does to what is seen of a key. -/
def step (mine : Nat → Bool) (s : Strand) : Operation × Nat → Strand
  | (.submit other m params, n) =>
    if other = key then s.submit verdict settings key m params (Sight.reply mine n) else s
  | (.openGroup other params, _) =>
    if other = key then s.hold (s.opened settings key params) else s
  | (.force other, n) => if other = key then s.force verdict (Sight.reply mine n) else s
  | (.drain _, _) => s.force verdict fun _ => []
  | (.stop, _) => {s with stopped := true}
  | (.advance ms, _) => {s with now := s.now + ms}.expire verdict

end Strand

namespace Coordinator

/-! ### What each operation does to a strand -/

section Strand
variable {verdict : Verdict} {settings : Settings} {c : Coordinator} {key : String}
  {mine : Nat → Bool} {n : Nat}

/-- Handling what fired completes the live group if its deadline has come, and shows no more. -/
theorem strand_settle_timed (h : Sound c) (ht : Timed c) (hf : c.inFlight = []) :
    (c.settle verdict).strand key mine = (c.strand key mine).expire verdict := by
  obtain ⟨ds, hds⟩ : ∃ ds, c.expired = ds := ⟨_, rfl⟩
  induction ds generalizing c with
  | nil =>
    rw [settle_done verdict hf hds, Strand.expire]
    cases hg : c.group? key with
    | none => simp only [strand, hg, Option.map_none]
    | some g =>
      have hahead : g.unnumbered.policy.isExpired c.now = false :=
        Policy.isExpired_eq_false.2 fun _ hdue => ht.lt_due hds hg hdue
      simp only [strand, hg, Option.map_some, hahead, Bool.and_false, Bool.false_eq_true, if_false]
  | cons d rest ih =>
    have hd : d ∈ c.expired := hds ▸ List.mem_cons_self ..
    have hrest : (c.take d).expired = rest := by simp only [take, hds, List.erase_cons_head]
    rw [settle_expired verdict h hf hds]
    by_cases hlive : ∃ g, c.group? d.key = some g ∧ g.id = d.group
    · obtain ⟨g, hg, hid⟩ := hlive
      obtain ⟨b, hb⟩ : ∃ b, b = (c.take d).record (.timedOut d.key) := ⟨_, rfl⟩
      have hsound : Sound b := hb ▸ (h.take d).record _
      have hgb : b.group? d.key = some g := hb ▸ hg
      have hbf : b.inFlight = [] := hb ▸ hf
      have hbd : b.expired = rest := hb ▸ hrest
      have hstrand : b.strand key mine = c.strand key mine := hb ▸ strand_unseen rfl
      have hexpire : (c.take d).expire d = b.finalize g .timeout .expiry :=
        hb ▸ ht.expire_eq h hd hg hid
      have hcomplete : Changes c [] (b.complete verdict g .timeout) :=
        changes_complete verdict (hexpire ▸ expire_changes h hd)
      rw [hexpire, settle_finalize hsound hgb rfl verdict .timeout rfl rfl, resume,
        ih (hcomplete.sound h) (hcomplete.keeps Change.timed h ht)
          ((complete_inFlight hsound hgb rfl verdict .timeout).trans hbf)
          ((complete_expired hsound hgb rfl verdict .timeout).trans hbd),
        strand_complete hsound hgb rfl verdict .timeout rfl, hstrand]
      by_cases hkey : d.key = key
      · have hg' : c.group? key = some g := hkey ▸ hg
        have hfired := ht.isExpired_of_fired h hd hg hid
        have hexpired : g.unnumbered.policy.isExpired c.now = true := hfired
        rw [if_pos hkey]
        simp only [Strand.expire, Strand.finish, Strand.emit, strand, hg', Option.map_some,
          ht.running, hexpired, Bool.not_false, Bool.and_self, if_true]
        rfl
      · rw [if_neg hkey]
    · have hgone : ∀ g, c.group? d.key = some g → g.id ≠ d.group := fun g hg hid =>
        hlive ⟨g, hg, hid⟩
      have hchange := Change.stale hd hgone
      rw [expire_stale (c := c.take d) hgone]
      rw [ih (hchange.sound h) (Change.timed h hchange ht) hf hrest, strand_unseen rfl]
      rfl

theorem strand_advance (h : Ready settings c) (ms : Nat) :
    (c.perform verdict (.advance ms, n)).strand key mine =
      {c.strand key mine with now := c.now + ms}.expire verdict := by
  have hf : (c.advance ms).inFlight = [] := by
    rw [advance_eq h.sound.swept]
    exact h.inFlight
  have hstrand : (c.advance ms).strand key mine =
      {c.strand key mine with now := c.now + ms} := by
    rw [advance_eq h.sound.swept]
    simp only [strand, List.filterMap_append, List.filterMap_map]
    congr 1
    exact List.append_right_eq_self.2 (List.filterMap_eq_nil_iff.2 fun _ _ => rfl)
  show ((c.advance ms).settle verdict).strand key mine = _
  rw [← hstrand]
  rcases h.punctual.timers with ht | hh
  · exact strand_settle_timed (h.sound.advance ms) (ht.advance h.sound ms) hf
  · obtain ⟨hhalted, hexpired⟩ := hh.advance h.sound ms
    rw [settle_done verdict hf (hexpired.trans h.expired), Strand.expire]
    have hstopped : ((c.advance ms).strand key mine).stopped = true := hhalted.1
    cases ((c.advance ms).strand key mine).group with
    | none => rfl
    | some g => simp only [hstopped, Bool.not_true, Bool.false_and, Bool.false_eq_true, if_false]

/-- A call that is on another key is answered unseen. -/
theorem strand_answered_other {other : String} (hmine : other ≠ key → mine n = false)
    (ho : ¬ other = key) (b : Coordinator) (a : Answer) :
    (b.record (.answered (.outside n) a)).strand key mine = b.strand key mine := by
  refine strand_unseen ?_
  simp only [Event.seen?, hmine ho, Bool.false_eq_true, if_false]

theorem strand_force (h : Ready settings c) {other : String}
    (hmine : other ≠ key → mine n = false) :
    (c.perform verdict (.force other, n)).strand key mine =
      if other = key then (c.strand key mine).force verdict (Sight.reply mine n)
      else c.strand key mine := by
  show ((c.force (.outside n) other).settle verdict).strand key mine = _
  simp only [force]
  cases hg : c.group? other with
  | none =>
    obtain ⟨b, hb⟩ : ∃ b, b = c.record (.missing other) := ⟨_, rfl⟩
    have hbf : b.inFlight = [] := hb ▸ h.inFlight
    have hbd : b.expired = [] := hb ▸ h.expired
    have hstrand : b.strand key mine = c.strand key mine := hb ▸ strand_unseen rfl
    simp only [← hb]
    rw [settle_record verdict hbf hbd]
    by_cases ho : other = key
    · rw [if_pos ho, strand_answered, hstrand, Strand.force]
      simp only [strand, ← ho, hg, Option.map_none]
    · rw [if_neg ho, strand_answered_other hmine ho, hstrand]
  | some g =>
    simp only [claim_collecting (h.sound.of_group? hg).2.2]
    obtain ⟨trigger, htrigger⟩ : ∃ trigger, trigger = g.claimTrigger c.now := ⟨_, rfl⟩
    rw [← htrigger]
    have hsound := h.sound.remark g trigger
    have hgb : (c.remark g trigger).group? other = some g := (group?_remark ..).trans hg
    show (((c.remark g trigger).finalize g trigger (.force (.outside n))).settle verdict).strand _ _
      = _
    rw [settle_finalize hsound hgb rfl verdict trigger rfl rfl, resume, settle_done]
    · by_cases ho : other = key
      · rw [if_pos ho, strand_answered, strand_complete hsound hgb rfl verdict _ rfl, if_pos ho,
          strand_remark, Strand.force]
        simp only [strand, ← ho, hg, Option.map_some]
        rw [htrigger]
        rfl
      · rw [if_neg ho, strand_answered_other hmine ho, strand_complete hsound hgb rfl verdict _ rfl,
          if_neg ho, strand_remark]
    · exact (complete_inFlight hsound hgb rfl verdict trigger).trans
        ((remark_inFlight ..).trans h.inFlight)
    · exact (complete_expired hsound hgb rfl verdict trigger).trans
        ((remark_expired ..).trans h.expired)

/-- A live group is not one that is passed over. -/
theorem id_ne_of_skipped (h : Sound c) {g : Group} {id : Nat} (hg : c.group? key = some g)
    (hskip : ∀ x, c.roster.group? id = some x → x.completed = true) : g.id ≠ id := by
  rintro rfl
  obtain ⟨hm, -, hc⟩ := h.of_group? hg
  rw [hskip g (h.tidy.group?_of_mem hm)] at hc
  cases hc

/-- Forcing groups one after the other shows under a key if its live group is among them. -/
theorem strand_forceEach (h : Sound c) (hf : c.inFlight = []) (hd : c.expired = [])
    (hmine : mine n = false) (done : Nat) (ids : List Nat) :
    ((forceEach (.outside n) done ids c).settle verdict).strand key mine =
      match c.group? key with
      | none => c.strand key mine
      | some g =>
        if g.id ∈ ids then (c.strand key mine).finish verdict g (g.claimTrigger c.now)
        else c.strand key mine := by
  induction ids generalizing c done with
  | nil =>
    have hunseen : (c.record (.answered (.outside n) (.count done))).strand key mine =
        c.strand key mine := by
      refine strand_unseen ?_
      simp only [Event.seen?, hmine, Bool.false_eq_true, if_false]
    rw [forceEach, settle_record verdict hf hd, hunseen]
    cases c.group? key <;> simp
  | cons id rest ih =>
    rcases forceEach_cases c (.outside n) done id rest with
      ⟨hskip, heq⟩ | ⟨x, trigger, hx, hc, htrigger, heq⟩
    · rw [heq, ih h hf hd]
      cases hg : c.group? key with
      | none => rfl
      | some g => simp only [List.mem_cons, id_ne_of_skipped h hg hskip, false_or]
    · have hxid := Roster.id_of_group? hx
      have hxm := Roster.mem_of_group? hx
      have hlive := h.group?_of_mem hxm hc
      have hsound := h.remark x trigger
      have hxb : (c.remark x trigger).group? x.key = some x := (group?_remark ..).trans hlive
      have hbf := (complete_inFlight hsound hxb rfl verdict trigger).trans
        ((remark_inFlight ..).trans hf)
      have hbd := (complete_expired hsound hxb rfl verdict trigger).trans
        ((remark_expired ..).trans hd)
      have hnow := (complete_now hsound hxb rfl verdict trigger).trans (remark_now ..)
      rw [heq, settle_finalize hsound hxb rfl verdict trigger rfl rfl, resume,
        ih (sound_complete hsound hxb rfl verdict trigger rfl) hbf hbd, hnow,
        group?_complete hsound hxb rfl verdict _ rfl, strand_complete hsound hxb rfl verdict _ rfl,
        strand_remark, group?_remark]
      -- The group that is forced is that of the key, or leaves the one of the key alone.
      by_cases hk : x.key = key
      · have hg : c.group? key = some x := hk ▸ hlive
        simp only [hk, hg, if_true, hxid, List.mem_cons_self, htrigger]
      · rw [if_neg (Ne.symm hk), if_neg hk]
        cases hg : c.group? key with
        | none => rfl
        | some g =>
          obtain ⟨hm, hgk, -⟩ := h.of_group? hg
          have hne : g.id ≠ id := fun hid =>
            hk (h.tidy.eq_of_id hm hxm (hid.trans hxid.symm) ▸ hgk)
          simp only [List.mem_cons, hne, false_or]

/-- Whatever order a drain visits the groups in, it visits the one of the key. -/
theorem strand_drain (h : Ready settings c) (hmine : mine n = false) (order : Visiting) :
    (c.perform verdict (.drain order, n)).strand key mine =
      (c.strand key mine).force verdict fun _ => [] := by
  show ((c.drainIn (.outside n) order).settle verdict).strand key mine = _
  rw [drainIn, strand_forceEach h.sound h.inFlight h.expired hmine, Strand.force]
  cases hg : c.group? key with
  | none => simp only [strand, hg, Option.map_none, Strand.emit_nil]
  | some g =>
    have hid : g.id ∈ order.arrange c.roster.registry.ids :=
      order.mem_arrange.2 (Registry.mem_ids.2 ⟨key, h.sound.tidy.registry_of_registered? hg⟩)
    simp only [hid, if_true, strand, hg, Option.map_some, Strand.emit_nil]
    rfl

theorem strand_openGroup (h : Ready settings c) (other : String) (params : Params) :
    (c.perform verdict (.openGroup other params, n)).strand key mine =
      if other = key then
        (c.strand key mine).hold ((c.strand key mine).opened settings key params)
      else c.strand key mine := by
  show ((c.openGroup other params).2.settle verdict).strand key mine = _
  cases hg : c.group? other with
  | none =>
    have hf := (create_inFlight c other params).trans h.inFlight
    have hd := (create_expired c other params).trans h.expired
    rw [openGroup_of_none hg, settle_done verdict hf hd, strand_create h.sound params hg]
    by_cases ho : other = key
    · subst ho
      simp only [if_true, strand, hg, Option.map_none, Strand.opened, Option.getD_none,
        ← h.punctual.settings]
      rfl
    · rw [if_neg ho, if_neg ho]
  | some g =>
    rw [openGroup_of_group h.sound hg, settle_done verdict h.inFlight h.expired]
    by_cases ho : other = key
    · subst ho
      simp only [if_true, strand, hg, Option.map_some, Strand.opened, Option.getD_some, Strand.hold]
    · rw [if_neg ho]

section Submit
variable (h : Sound c) (hf : c.inFlight = []) (hd : c.expired = []) {other : String}
  (hmine : other ≠ key → mine n = false) {g : Group} (hg : c.group? other = some g) (m : Message)
  (params : Params)
include hg

theorem strand_group : other = key → (c.strand key mine).group = some g.unnumbered := by
  rintro rfl
  simp only [strand, hg, Option.map_some]

include h hf hd hmine

theorem strand_submit_full (hr : g.hasCapacity = false) :
    ((c.submit (.outside n) other m params).settle verdict).strand key mine =
      if other = key then
        (c.strand key mine).submit verdict settings key m params (Sight.reply mine n)
      else c.strand key mine := by
  obtain ⟨-, hkey, hc⟩ := h.of_group? hg
  obtain ⟨b, hb⟩ : ∃ b, b = ((c.record (.offered g m c.now)).record
    (.rejected other (g.fullFault m))).fault g.outlet m (g.fullFault m) := ⟨_, rfl⟩
  have hstrand : b.strand key mine = (c.strand key mine).emit
      (if other = key then [.fault (some m) (g.fullFault m)] else []) := by
    rw [hb, strand_fault, strand_unseen rfl, strand_unseen rfl]
    simp only [Group.fullFault, Fault.key?, hkey, Option.some.injEq]
  rw [settle_submit_full h hf hd hg _ verdict hr, ← hb]
  by_cases ho : other = key
  · rw [if_pos ho, strand_answered, hstrand, if_pos ho, ← Strand.emit_append,
      Strand.submit_full verdict settings (strand_group hg ho) hc hr]
    rfl
  · rw [if_neg ho, strand_answered_other hmine ho, hstrand, if_neg ho, Strand.emit_nil]

theorem strand_submit_pending (hr : g.hasCapacity = true)
    (he : g.policy.evaluate (g.messages ++ [m]) c.now = .incomplete) :
    ((c.submit (.outside n) other m params).settle verdict).strand key mine =
      if other = key then
        (c.strand key mine).submit verdict settings key m params (Sight.reply mine n)
      else c.strand key mine := by
  obtain ⟨-, -, hc⟩ := h.of_group? hg
  obtain ⟨b, hb⟩ : ∃ b, b = (c.record (.offered g m c.now)).setGroup (g.push m) := ⟨_, rfl⟩
  have hsound := h.record (.offered g m c.now)
  have hstrand : b.strand key mine = if other = key then
      (c.strand key mine).hold (some (g.push m).unnumbered) else c.strand key mine := by
    rw [hb, strand_setGroup hsound (x := g.push m) hg rfl, strand_unseen rfl]
  rw [settle_submit_pending h hf hd hg _ verdict hr he, ← hb]
  by_cases ho : other = key
  · rw [if_pos ho, strand_answered, hstrand, if_pos ho,
      Strand.submit_pending verdict settings (strand_group hg ho) hc hr he]
  · rw [if_neg ho, strand_answered_other hmine ho, hstrand, if_neg ho]

theorem strand_submit_claimed (hr : g.hasCapacity = true) {trigger : Trigger}
    (he : g.policy.evaluate (g.messages ++ [m]) c.now = .complete trigger) :
    ((c.submit (.outside n) other m params).settle verdict).strand key mine =
      if other = key then
        (c.strand key mine).submit verdict settings key m params (Sight.reply mine n)
      else c.strand key mine := by
  obtain ⟨-, -, hc⟩ := h.of_group? hg
  obtain ⟨b, hb⟩ : ∃ b, b = c.record (.offered g m c.now) := ⟨_, rfl⟩
  have hsound : Sound b := hb ▸ h.record _
  have hgb : b.group? other = some g := hb ▸ hg
  have hoffered : b.strand key mine = c.strand key mine := hb ▸ strand_unseen rfl
  rw [settle_submit_claimed h hf hd hg _ verdict hr he, ← hb]
  by_cases ho : other = key
  · rw [if_pos ho, strand_answered, strand_complete hsound (x := g.push m) hgb rfl verdict _ rfl,
      if_pos ho, hoffered, Strand.submit_claimed verdict settings (strand_group hg ho) hc hr he]
  · rw [if_neg ho, strand_answered_other hmine ho,
      strand_complete hsound (x := g.push m) hgb rfl verdict _ rfl, if_neg ho, hoffered]

/-- An offer to a live group. -/
theorem strand_submit_live :
    ((c.submit (.outside n) other m params).settle verdict).strand key mine =
      if other = key then
        (c.strand key mine).submit verdict settings key m params (Sight.reply mine n)
      else c.strand key mine := by
  cases hr : g.hasCapacity with
  | false => exact strand_submit_full h hf hd hmine hg m params hr
  | true =>
    cases he : g.policy.evaluate (g.messages ++ [m]) c.now with
    | incomplete => exact strand_submit_pending h hf hd hmine hg m params hr he
    | complete trigger => exact strand_submit_claimed h hf hd hmine hg m params hr he

end Submit

theorem strand_submit (h : Ready settings c) {other : String}
    (hmine : other ≠ key → mine n = false) (m : Message) (params : Params) :
    (c.perform verdict (.submit other m params, n)).strand key mine =
      if other = key then
        (c.strand key mine).submit verdict settings key m params (Sight.reply mine n)
      else c.strand key mine := by
  show ((c.submit (.outside n) other m params).settle verdict).strand key mine = _
  cases hg : c.group? other with
  | some g => exact strand_submit_live h.sound h.inFlight h.expired hmine hg m params
  | none =>
    have hgroup := h.sound.group?_create_self params hg
    have hstrand : (((c.create other params).2.submit (.outside n) other m params).settle
        verdict).strand key mine = if other = key then
          ((c.create other params).2.strand key mine).submit verdict settings key m params
            (Sight.reply mine n)
        else (c.create other params).2.strand key mine :=
      strand_submit_live (h.sound.create params hg) ((create_inFlight ..).trans h.inFlight)
        ((create_expired ..).trans h.expired) hmine hgroup m params
    rw [submit_create h.sound hg, hstrand, strand_create h.sound params hg]
    by_cases ho : other = key
    · subst ho
      have hnone : (c.strand other mine).group = none := by
        simp only [strand, hg, Option.map_none]
      have hopened : (c.newGroup other params).unnumbered =
          (c.strand other mine).opened settings other params := by
        simp only [Strand.opened, hnone, Option.getD_none, ← h.punctual.settings]
        rfl
      rw [if_pos rfl, if_pos rfl, if_pos rfl, hopened, Strand.submit_opened]
    · rw [if_neg ho, if_neg ho, if_neg ho]

/-- What an operation does to a strand can be told from that strand. -/
theorem strand_perform (h : Ready settings c) {op : Operation}
    (hmine : op.key? ≠ some key → mine n = false) :
    (c.perform verdict (op, n)).strand key mine =
      (c.strand key mine).step verdict settings key mine (op, n) := by
  have hother : ∀ {other}, op.key? = some other → other ≠ key → mine n = false :=
    fun hop hne => hmine (by rw [hop]; exact fun e => hne (Option.some.inj e))
  cases op with
  | submit other m params => exact strand_submit h (hother rfl) m params
  | openGroup other params => exact strand_openGroup h other params
  | force other => exact strand_force h (hother rfl)
  | drain order => exact strand_drain h (hmine (by simp [Operation.key?])) order
  | stop =>
    show (c.stop.settle verdict).strand key mine = _
    rw [settle_done (c := c.stop) verdict h.inFlight h.expired]
    rfl
  | advance ms => exact strand_advance h ms

theorem strand_execute (h : Ready settings c) {ops : List (Operation × Nat)}
    (hmine : ∀ x ∈ ops, x.1.key? ≠ some key → mine x.2 = false) :
    (c.execute verdict ops).strand key mine =
      ops.foldl (Strand.step verdict settings key mine) (c.strand key mine) := by
  induction ops generalizing c with
  | nil => rfl
  | cons x rest ih =>
    obtain ⟨op, n⟩ := x
    have hstep : (c.perform verdict (op, n)).strand key mine =
        (c.strand key mine).step verdict settings key mine (op, n) :=
      strand_perform h (hmine (op, n) (List.mem_cons_self ..))
    show ((c.perform verdict (op, n)).execute verdict rest).strand key mine = _
    rw [ih (h.perform verdict op n) fun x hx => hmine x (List.mem_cons_of_mem _ hx), hstep]
    rfl

end Strand

end Coordinator

/-! ### Leaving out the other keys -/

namespace Operation

/-- An operation as seen from a key: none on another key, and a drain forces the key. -/
def onto (key : String) (op : Operation) : Option Operation :=
  match op with
  | .drain _ => some (.force key)
  | .stop | .advance _ => some op
  | .submit .. | .openGroup .. | .force _ => if op.key? = some key then some op else none

end Operation

/-- The operations of a list as seen from a key, with their numbers. -/
def restrict (key : String) (ops : List (Operation × Nat)) : List (Operation × Nat) :=
  ops.filterMap fun (op, n) => (op.onto key).map fun op => (op, n)

section Restrict
variable {verdict : Verdict} {settings : Settings} {key : String} {mine : Nat → Bool}

/-- To the key, what is left of an operation is all of it. -/
theorem Strand.step_onto (s : Strand) {op : Operation} {n : Nat}
    (hmine : op.key? ≠ some key → mine n = false) :
    (match op.onto key with
      | some op => s.step verdict settings key mine (op, n)
      | none => s) = s.step verdict settings key mine (op, n) := by
  have hkey : ∀ {other : String}, op.key? = some other →
      op.onto key = if other = key then some op else none := by
    intro other hop
    cases op with
    | submit => simp [Operation.onto, hop]
    | openGroup => simp [Operation.onto, hop]
    | force => simp [Operation.onto, hop]
    | drain => cases hop
    | stop => cases hop
    | advance => cases hop
  cases op with
  | submit other m params =>
    rw [hkey rfl]
    by_cases ho : other = key
    · rw [if_pos ho]
    · rw [if_neg ho]
      exact (if_neg ho).symm
  | openGroup other params =>
    rw [hkey rfl]
    by_cases ho : other = key
    · rw [if_pos ho]
    · rw [if_neg ho]
      exact (if_neg ho).symm
  | force other =>
    rw [hkey rfl]
    by_cases ho : other = key
    · rw [if_pos ho]
    · rw [if_neg ho]
      exact (if_neg ho).symm
  | drain order =>
    have hreply : Sight.reply mine n = fun _ => [] := by
      funext a
      simp [Sight.reply, hmine (by simp [Operation.key?])]
    show (if key = key then s.force verdict (Sight.reply mine n) else s) =
      s.force verdict fun _ => []
    rw [if_pos rfl, hreply]
  | stop => rfl
  | advance ms => rfl

theorem Strand.foldl_restrict {ops : List (Operation × Nat)}
    (hmine : ∀ x ∈ ops, x.1.key? ≠ some key → mine x.2 = false) (s : Strand) :
    (restrict key ops).foldl (Strand.step verdict settings key mine) s =
      ops.foldl (Strand.step verdict settings key mine) s := by
  induction ops generalizing s with
  | nil => rfl
  | cons x rest ih =>
    obtain ⟨op, n⟩ := x
    have hrest := ih fun x hx => hmine x (List.mem_cons_of_mem _ hx)
    have hstep : _ = s.step verdict settings key mine (op, n) :=
      s.step_onto (hmine (op, n) (List.mem_cons_self ..))
    rw [List.foldl_cons, ← hstep]
    cases hop : op.onto key with
    | none =>
      rw [← hrest]
      simp only [restrict, List.filterMap_cons, hop, Option.map_none]
    | some op' =>
      rw [← hrest]
      simp only [restrict, List.filterMap_cons, hop, Option.map_some, List.foldl_cons]

/-- What is left is on the key, or as it was. -/
theorem mine_restrict {ops : List (Operation × Nat)}
    (hmine : ∀ x ∈ ops, x.1.key? ≠ some key → mine x.2 = false) :
    ∀ x ∈ restrict key ops, x.1.key? ≠ some key → mine x.2 = false := by
  intro x hx hne
  obtain ⟨⟨op, n⟩, hm, hop⟩ := List.mem_filterMap.1 hx
  obtain ⟨op', hop', rfl⟩ := Option.map_eq_some_iff.1 hop
  refine hmine (op, n) hm fun hkey => hne ?_
  cases op with
  | submit => simp_all [Operation.onto]
  | openGroup => simp_all [Operation.onto]
  | force => simp_all [Operation.onto]
  | drain => cases hkey
  | stop => cases hkey
  | advance => cases hkey

end Restrict

namespace Coordinator

/-- A group as seen from outside, its number apart. -/
def snapshot? (c : Coordinator) (key : String) : Option Snapshot :=
  (c.group? key).map fun g => {g.snapshot c.now with id := 0}

theorem snapshot?_eq (c : Coordinator) (key : String) (mine : Nat → Bool) :
    c.snapshot? key = (c.strand key mine).group.map fun g =>
      {g.snapshot (c.strand key mine).now with id := 0} := by
  simp only [snapshot?, strand, Option.map_map]
  rfl

/-- At every point of a run of a coordinator whose sink answers at once, and the same to the same
result, what is seen of a key is what is seen when every operation on another key is left out and
every drain forces the key: the group as it stands, and all answers to calls on the key, all
results that the sink is handed for it and all faults raised for it, in their order. -/
theorem keys_independent (settings : Settings) (metrics : Bool) (now : Instant) (verdict : Verdict)
    (ops : List Operation) (key : String) (i : Nat) :
    let mine := fun n => (ops[n]?.bind Operation.key?) == some key
    let full := execute verdict (start settings metrics now) (ops.zipIdx.take i)
    let alone := execute verdict (start settings metrics now) (restrict key (ops.zipIdx.take i))
    full.snapshot? key = alone.snapshot? key ∧
      full.history.filterMap (Event.seen? key mine) =
        alone.history.filterMap (Event.seen? key mine) := by
  intro mine full alone
  have hstart := ready_start settings metrics now
  have hmine : ∀ x ∈ ops.zipIdx.take i, x.1.key? ≠ some key → mine x.2 = false := by
    intro x hx hne
    have hop : ops[x.2]? = some x.1 := List.mem_zipIdx_iff_getElem?.1 (List.mem_of_mem_take hx)
    simp only [mine, hop, Option.bind_some]
    exact beq_eq_false_iff_ne.2 hne
  have hstrand : full.strand key mine = alone.strand key mine := by
    rw [strand_execute hstart hmine, strand_execute hstart (mine_restrict hmine),
      Strand.foldl_restrict hmine]
  refine ⟨?_, congrArg Strand.seen hstrand⟩
  rw [snapshot?_eq full key mine, hstrand, ← snapshot?_eq]

end Coordinator

end Aggregation
