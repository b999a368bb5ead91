import Aggregation.Proofs.Coordinator.Timers
import Aggregation.Proofs.Policy

/-! No completion is missed.

What is true of new groups and of those that take a message and go on is true of all live ones
(`Change.live`). So a live group is always short of what would complete it (`Attended`): it was when
it was created, and each message was weighed when it was taken. Its deadline is pending or fired, so
once what fired is handled, which takes as many steps as deadlines fired (`expired_handled`), the
deadline of every live group lies ahead and its policy has nothing to decide. -/
namespace Aggregation.Coordinator

/-! ### What is true of live groups -/

/-- Something is true of all live groups. -/
def Live (P : Group → Prop) (c : Coordinator) : Prop :=
  ∀ key g, c.group? key = some g → P g

namespace Live
variable {P : Group → Prop} {b c : Coordinator}

/-- Live groups may go. -/
theorem mono (h : Live P c) (hb : ∀ key g, b.group? key = some g → c.group? key = some g) :
    Live P b :=
  fun key g hg => h key g (hb key g hg)

theorem of_roster (h : Live P c) (hr : b.roster = c.roster) : Live P b :=
  h.mono fun key g hg => by rwa [group?, hr] at hg

theorem create (h : Live P c) (hs : Sound c) {key : String} {params : Params}
    (hk : c.group? key = none) (hnew : P (c.newGroup key params)) :
    Live P (c.create key params).2 := by
  intro other g hg
  rw [hs.group?_create params hk] at hg
  split at hg
  · exact Option.some.inj hg ▸ hnew
  · exact h other g hg

theorem setGroup (h : Live P c) (hs : Sound c) {key : String} {g x : Group}
    (hg : c.group? key = some g) (hid : x.id = g.id) (hx : P x) : Live P (c.setGroup x) := by
  intro other y hy
  rw [hs.group?_setGroup hg hid] at hy
  split at hy
  · exact Option.some.inj hy ▸ hx
  · exact h other y hy

theorem finalize (h : Live P c) (hs : Sound c) {key : String} {g x : Group}
    (hg : c.group? key = some g) (hid : x.id = g.id) (hk : x.key = g.key) (trigger : Trigger)
    (caller : Caller) : Live P (c.finalize x trigger caller) := by
  refine h.mono fun other y hy => ?_
  rw [hs.group?_finalize hg hid hk] at hy
  split at hy
  · cases hy
  · exact hy

/-- A group that is completed is not live. -/
theorem release (h : Live P c) (hs : Sound c) {f : Finalization} (hf : f ∈ c.inFlight)
    (refusal : Option String) : Live P ((c.land f.group).release f.group refusal) := by
  obtain ⟨g, hg, hgc⟩ := hs.group_landed hf
  refine h.mono fun key x hx => ?_
  rw [group?, release_roster hg refusal] at hx
  rw [← hx]
  exact (hs.tidy.registered?_update_completed (x := g.clear) (Roster.id_of_group? hg ▸ hg) hgc
    key).symm

end Live

/-- What is true of new groups and of those that take a message and go on is true of all live
ones. -/
theorem Change.live {P : Group → Prop} {a b : Coordinator} {l : List Message} (hs : Sound a)
    (hc : Change a l b) (hnew : ∀ key params, P (a.newGroup key params))
    (hkept : ∀ {g : Group} {m : Message}, g.hasCapacity = true →
      g.policy.evaluate (g.messages ++ [m]) a.now = .incomplete → P g → P (g.push m))
    (h : Live P a) : Live P b := by
  cases hc with
  | answered _ => exact h.of_roster rfl
  | opened params hk => exact h.create hs hk (hnew _ params)
  | @kept key g m hg hr he =>
    have hoffered : Live P (a.record (.offered g m a.now)) := h.of_roster rfl
    exact hoffered.setGroup (hs.record _) (x := g.push m) hg rfl (hkept hr he (h key g hg))
  | @filled key g m trigger caller hg _ _ _ =>
    have hoffered : Live P (a.record (.offered g m a.now)) := h.of_roster rfl
    exact hoffered.finalize (hs.record _) (x := g.push m) hg rfl rfl trigger caller
  | refused _ _ => exact h.of_roster rfl
  | @forced key g caller hg _ =>
    have hr : Live P (a.remark g (g.claimTrigger a.now)) := h.of_roster (remark_roster ..)
    exact hr.finalize (hs.remark g _) ((group?_remark ..).trans hg) rfl rfl _ caller
  | @expired d g _ hg _ =>
    have hr : Live P ((a.take d).remark g (g.claimTrigger a.now)) :=
      h.of_roster (remark_roster (a.take d) ..)
    exact hr.finalize ((hs.take d).remark g _) ((group?_remark ..).trans hg) rfl rfl _ .expiry
  | stale _ _ => exact h.of_roster rfl
  | advanced ms => exact h.of_roster (by rw [advance_eq hs.swept])
  | released hf refusal => exact h.release hs hf refusal

/-- Live groups are short of all thresholds. -/
def Attended (c : Coordinator) : Prop :=
  ∀ key g, c.group? key = some g → g.policy.Short g.messages

theorem attended_start (settings : Settings) (metrics : Bool) (now : Instant) :
    Attended (start settings metrics now) :=
  fun _ _ h => nomatch h

theorem Change.attended {a b : Coordinator} {l : List Message} (hs : Sound a)
    (hc : Change a l b) (h : Attended a) : Attended b :=
  hc.live (P := fun g => g.policy.Short g.messages) hs (fun _ _ => Policy.short_nil ..)
    (fun _ he _ => (Policy.evaluate_eq_incomplete.1 he).1) h

theorem attended_run {c : Coordinator} {moves : List Move}
    (hmoves : ∀ move ∈ moves, move.isStop = false ∧ move.isDirect = false) (hs : Sound c)
    (h : Attended c) : Attended (run c moves) := by
  refine run_keeps (fun move hm _ hs h => ?_) hs h
  obtain ⟨hstop, hdirect⟩ := hmoves move hm
  refine apply_keeps move Change.attended (fun hstopped => ?_) (fun hadded => ?_) hs h
  · rw [hstop] at hstopped
    cases hstopped
  · rw [hdirect] at hadded
    cases hadded

/-! ### Once what fired is handled -/

theorem expired_apply_expire {c : Coordinator} (hs : Sound c) (d : Deadline) :
    ((Move.expire d).apply c).expired = c.expired.erase d := by
  by_cases hd : d ∈ c.expired
  · simp only [Move.apply, hd, if_true]
    by_cases hlive : ∃ g, c.group? d.key = some g ∧ g.id = d.group
    · obtain ⟨g, hg, hid⟩ := hlive
      rw [expire_live (hs.take d) hg hid, finalize_expired, remark_expired]
      rfl
    · rw [expire_stale (c := c.take d) fun g hg hid => hlive ⟨g, hg, hid⟩]
      rfl
  · simp only [Move.apply, hd, if_false, List.erase_of_not_mem hd]

/-- Handling each deadline that fired leaves none. -/
theorem expired_handled {c : Coordinator} (hs : Sound c) :
    (run c (c.expired.map Move.expire)).expired = [] := by
  obtain ⟨ds, hds⟩ : ∃ ds, c.expired = ds := ⟨_, rfl⟩
  rw [hds]
  induction ds generalizing c with
  | nil => exact hds
  | cons d rest ih =>
    refine ih (hs.apply _) ?_
    rw [expired_apply_expire hs, hds, List.erase_cons_head]

/-- Unless the scheduler is stopped or groups are changed through handles, every live group collects
under its own key, short of all thresholds; and once what fired is handled, its deadline lies ahead
and its policy finds it incomplete. -/
theorem none_missed (settings : Settings) (metrics : Bool) (now : Instant) (moves : List Move)
    (hmoves : ∀ move ∈ moves, move.isStop = false ∧ move.isDirect = false) :
    let c := run (start settings metrics now) moves
    (run c (c.expired.map Move.expire)).expired = [] ∧
      ∀ key g, c.group? key = some g →
        g.completed = false ∧ g.key = key ∧
        (∀ total, g.policy.declared? g.messages = some total → g.messages.length < total) ∧
        (∀ n, g.policy.min = some n → g.messages.length < n) ∧
        (∀ n, g.policy.max = some n → g.messages.length < n) ∧
        (c.expired = [] →
          (∀ due, g.policy.expiry = some due → c.now < due) ∧
          g.policy.evaluate g.messages c.now = .incomplete) := by
  intro c
  have hstart := sound_start settings metrics now
  have hs : Sound c := run_sound hstart moves
  have ht : Timed c := timed_run (fun move hm => (hmoves move hm).1) hstart
    (timed_start settings metrics now)
  have h : Attended c := attended_run hmoves hstart (attended_start settings metrics now)
  refine ⟨expired_handled hs, fun key g hg => ?_⟩
  obtain ⟨-, hkey, hc⟩ := hs.of_group? hg
  obtain ⟨hdeclared, hmin, hmax⟩ := h key g hg
  refine ⟨hc, hkey, Policy.reached_eq_false.1 hdeclared, Policy.reached_eq_false.1 hmin,
    Policy.reached_eq_false.1 hmax, fun hnone => ?_⟩
  have hahead : ∀ due, g.policy.expiry = some due → c.now < due := fun _ hdue =>
    ht.lt_due hnone hg hdue
  refine ⟨hahead, Policy.evaluate_eq_incomplete.2 ⟨h key g hg, ?_⟩⟩
  exact Policy.isExpired_eq_false.2 hahead

/-- A group opened with a timeout, after half of it. -/
theorem none_missed_halfway :
    let moves : List Move := [.openGroup "k" ⟨1000, 0, 0⟩, .advance 500]
    let c := run (start ⟨"name", "sink", none, true⟩ false 0) moves
    (∀ move ∈ moves, move.isStop = false ∧ move.isDirect = false) ∧ c.expired = [] ∧
      ∃ g, c.group? "k" = some g ∧ g.policy.evaluate g.messages c.now = .incomplete := by
  intro moves c
  have hmoves : ∀ move ∈ moves, move.isStop = false ∧ move.isDirect = false := by decide
  obtain ⟨-, hlive⟩ := none_missed ⟨"name", "sink", none, true⟩ false 0 moves hmoves
  obtain ⟨-, -, -, -, -, hdue⟩ := hlive "k" _ rfl
  exact ⟨hmoves, rfl, _, rfl, (hdue rfl).2⟩

end Aggregation.Coordinator
