import Aggregation.Aggregator
import Aggregation.Proofs.Coordinator.Operations

/-! Coordinators whose sink answers at once.

A sink that neither suspends nor comes back to the coordinator is what it says to each result. With
such a sink everything that an operation leads to is carried through before the next: results in
flight are concluded, then deadlines that fired are handled one by one, until nothing is left
(`settle_keeps`). How much can happen is bounded by the work that is there, so settling may be read
one step at a time (`settle_inFlight`, `settle_expired`). An aggregator with a prompt sink that
admits nothing of its own settles in this way (`Aggregator.settle_eq`). -/
namespace Aggregation

/-- What a sink says to a result: why it refuses it, or nothing if it takes it. -/
abbrev Verdict := Result → Option String

namespace Coordinator

/-- A bound on how much can happen by itself. -/
def workload (c : Coordinator) : Nat :=
  Aggregator.owed c.inFlight + 3 * c.expired.length

/-- Conclude what is in flight and handle what fired, one by one. -/
def settleWith (verdict : Verdict) : (fuel : Nat) → Coordinator → Coordinator
  | 0, c => c
  | fuel + 1, c =>
    match c.inFlight with
    | f :: _ => settleWith verdict fuel (c.conclude f.group (verdict f.result))
    | [] =>
      match c.expired with
      | [] => c
      | _ :: _ => settleWith verdict fuel c.expireNext

/-- Carry everything through. -/
def settle (verdict : Verdict) (c : Coordinator) : Coordinator :=
  settleWith verdict c.workload c

/-! ### The work that is left -/

section Work
variable {c : Coordinator}

theorem forceEach_expired (call : Call) (done : Nat) (rest : List Nat) :
    (forceEach call done rest c).expired = c.expired := by
  rcases forceEach_eq c call done rest with ⟨-, hanswer⟩ | ⟨_, x, left, -, -, -, -, hclaim⟩
  · rw [hanswer]
    rfl
  · rw [hclaim, forced, finalize_expired, remark_expired]

/-- Each group that is to be forced may lead to one finalization. -/
theorem owed_forceEach (call : Call) (done : Nat) (rest : List Nat) :
    Aggregator.owed (forceEach call done rest c).inFlight ≤
      Aggregator.owed c.inFlight + 2 * rest.length := by
  rcases forceEach_eq c call done rest with ⟨-, hanswer⟩ | ⟨_, x, left, rfl, -, -, -, hclaim⟩
  · rw [hanswer]
    exact Nat.le_add_right ..
  · rw [hclaim, forced, finalize_inFlight, remark_inFlight, List.length_append, List.length_cons]
    show 2 * (left.length + 1) + Aggregator.owed c.inFlight ≤ _
    omega

/-- The first finalization in flight is the one that is concluded for its group. -/
theorem conclude_head {f : Finalization} {rest : List Finalization} (hf : c.inFlight = f :: rest)
    (refusal : Option String) : c.conclude f.group refusal =
      ({c with inFlight := rest}.release f.group refusal).resume f.result.trigger f.caller := by
  simp [conclude, hf]

theorem conclude_of_mem (h : Sound c) {f : Finalization} (hf : f ∈ c.inFlight)
    (refusal : Option String) : c.conclude f.group refusal =
      ((c.land f.group).release f.group refusal).resume f.result.trigger f.caller := by
  simp only [conclude, find?_group h.distinct hf]
  rfl

/-- What is owed to finalizations is owed to each of them. -/
theorem owed_eraseP {fs : List Finalization} {f : Finalization} (hf : f ∈ fs)
    (hd : (fs.map Finalization.group).Nodup) : Aggregator.owed fs =
      2 * (Aggregator.left f.caller + 1) +
        Aggregator.owed (fs.eraseP fun x => x.group == f.group) := by
  induction fs with
  | nil => cases hf
  | cons x rest ih =>
    obtain ⟨hx, hrest⟩ := List.nodup_cons.1 hd
    rcases List.mem_cons.1 hf with rfl | hf
    · rw [List.eraseP_cons_of_pos (by simp)]
      rfl
    · have hne : x.group ≠ f.group := fun e => hx (e ▸ List.mem_map_of_mem hf)
      rw [List.eraseP_cons_of_neg (by simpa using hne), Aggregator.owed, Aggregator.owed,
        ih hf hrest]
      omega

theorem resume_expired (trigger : Trigger) {caller : Caller} (hcaller : caller.isSingle = true) :
    (c.resume trigger caller).expired = c.expired := by
  cases caller with
  | siblings => cases hcaller
  | drain call done ids => exact forceEach_expired call (done + 1) ids
  | _ => rfl

/-- Whoever goes on is owed no more than what he had left to do. -/
theorem owed_resume (trigger : Trigger) {caller : Caller} (hcaller : caller.isSingle = true) :
    Aggregator.owed (c.resume trigger caller).inFlight ≤
      Aggregator.owed c.inFlight + 2 * Aggregator.left caller := by
  cases caller with
  | siblings => cases hcaller
  | drain call done ids => exact owed_forceEach call (done + 1) ids
  | _ => exact Nat.le_add_right ..

theorem expired_conclude (h : Sound c) {f : Finalization} (hf : f ∈ c.inFlight)
    (refusal : Option String) : (c.conclude f.group refusal).expired = c.expired := by
  obtain ⟨g, hg, -⟩ := h.group_landed hf
  rw [conclude_of_mem h hf, resume_expired _ (h.single f hf), release_expired hg]
  rfl

/-- A finalization that is concluded is owed nothing any more. -/
theorem owed_conclude (h : Sound c) {f : Finalization} (hf : f ∈ c.inFlight)
    (refusal : Option String) :
    Aggregator.owed (c.conclude f.group refusal).inFlight + 2 ≤ Aggregator.owed c.inFlight := by
  obtain ⟨g, hg, -⟩ := h.group_landed hf
  have hresume := owed_resume (c := (c.land f.group).release f.group refusal) f.result.trigger
    (h.single f hf)
  have howed : Aggregator.owed c.inFlight =
      2 * (Aggregator.left f.caller + 1) + Aggregator.owed (c.land f.group).inFlight :=
    owed_eraseP hf h.distinct
  rw [release_inFlight hg] at hresume
  rw [conclude_of_mem h hf]
  omega

theorem workload_conclude (h : Sound c) {f : Finalization} {rest : List Finalization}
    (hf : c.inFlight = f :: rest) (refusal : Option String) :
    (c.conclude f.group refusal).workload < c.workload := by
  have hm : f ∈ c.inFlight := hf ▸ List.mem_cons_self ..
  have howed := owed_conclude h hm refusal
  rw [workload, workload, expired_conclude h hm]
  omega

theorem expireNext_eq {d : Deadline} {rest : List Deadline} (hd : c.expired = d :: rest) :
    c.expireNext = (c.take d).expire d := by
  simp only [expireNext, take, hd, List.erase_cons_head]

theorem workload_expireNext (h : Sound c) {d : Deadline} {rest : List Deadline}
    (hd : c.expired = d :: rest) : c.expireNext.workload < c.workload := by
  have hexpired : (c.take d).expired = rest := by simp only [take, hd, List.erase_cons_head]
  rw [expireNext_eq hd, workload, workload, hd, List.length_cons]
  by_cases hlive : ∃ g, c.group? d.key = some g ∧ g.id = d.group
  · obtain ⟨g, hg, hid⟩ := hlive
    rw [expire_live (h.take d) hg hid, finalize_expired, finalize_inFlight, remark_expired,
      remark_inFlight, hexpired]
    show 2 * (0 + 1) + Aggregator.owed c.inFlight + _ < _
    omega
  · rw [expire_stale (c := c.take d) fun g hg hid => hlive ⟨g, hg, hid⟩]
    show Aggregator.owed c.inFlight + 3 * (c.take d).expired.length < _
    rw [hexpired]
    omega

theorem settled_of_workload (h : c.workload = 0) : c.inFlight = [] ∧ c.expired = [] := by
  unfold workload at h
  constructor
  · cases hf : c.inFlight with
    | nil => rfl
    | cons f rest =>
      rw [hf, Aggregator.owed] at h
      omega
  · exact List.length_eq_zero_iff.1 (by omega)

end Work

/-! ### Settling step by step -/

section Settle
variable {c : Coordinator} (verdict : Verdict)

theorem settleWith_settled (hf : c.inFlight = []) (hd : c.expired = []) (fuel : Nat) :
    settleWith verdict fuel c = c := by
  cases fuel with
  | zero => rfl
  | succ fuel => simp only [settleWith, hf, hd]

/-- Fuel beyond the work that is there changes nothing. -/
theorem settleWith_enough (h : Sound c) {n m : Nat} (hn : c.workload ≤ n) (hm : c.workload ≤ m) :
    settleWith verdict n c = settleWith verdict m c := by
  induction n generalizing c m with
  | zero =>
    obtain ⟨hf, hd⟩ := settled_of_workload (Nat.le_zero.1 hn)
    rw [settleWith_settled verdict hf hd, settleWith_settled verdict hf hd]
  | succ n ih =>
    cases m with
    | zero =>
      obtain ⟨hf, hd⟩ := settled_of_workload (Nat.le_zero.1 hm)
      rw [settleWith_settled verdict hf hd, settleWith_settled verdict hf hd]
    | succ m =>
      simp only [settleWith]
      cases hf : c.inFlight with
      | cons f rest =>
        have hless := workload_conclude h hf (verdict f.result)
        exact ih ((conclude_changes h f.group _).sound h) (by omega) (by omega)
      | nil =>
        cases hd : c.expired with
        | nil => rfl
        | cons d rest =>
          have hless := workload_expireNext h hd
          refine ih ?_ (by omega) (by omega)
          rw [expireNext_eq hd]
          exact (expire_changes h (hd ▸ List.mem_cons_self ..)).sound h

theorem settle_done (hf : c.inFlight = []) (hd : c.expired = []) : c.settle verdict = c :=
  settleWith_settled verdict hf hd _

theorem settle_record (hf : c.inFlight = []) (hd : c.expired = []) (e : Event) :
    (c.record e).settle verdict = c.record e :=
  settle_done (c := c.record e) verdict hf hd

theorem settle_inFlight (h : Sound c) {f : Finalization} {rest : List Finalization}
    (hf : c.inFlight = f :: rest) :
    c.settle verdict = (c.conclude f.group (verdict f.result)).settle verdict := by
  have hless := workload_conclude h hf (verdict f.result)
  obtain ⟨n, hn⟩ : ∃ n, c.workload = n + 1 := Nat.exists_eq_succ_of_ne_zero (by omega)
  rw [settle, hn, settleWith, hf, settle]
  have hsound := (conclude_changes h f.group (verdict f.result)).sound h
  exact settleWith_enough verdict hsound (by omega) (Nat.le_refl _)

theorem settle_expired (h : Sound c) (hf : c.inFlight = []) {d : Deadline} {rest : List Deadline}
    (hd : c.expired = d :: rest) : c.settle verdict = ((c.take d).expire d).settle verdict := by
  have hless := workload_expireNext h hd
  have hsound := (expire_changes h (d := d) (hd ▸ List.mem_cons_self ..)).sound h
  obtain ⟨n, hn⟩ : ∃ n, c.workload = n + 1 := Nat.exists_eq_succ_of_ne_zero (by omega)
  rw [settle, hn, settleWith, hf, hd, settle]
  rw [expireNext_eq hd] at hless ⊢
  exact settleWith_enough verdict hsound (by omega) (Nat.le_refl _)

/-- What every change keeps, settling keeps, and it leaves nothing to be done. -/
theorem settle_keeps {P : Coordinator → Prop}
    (hP : ∀ {a l b}, Sound a → Change a l b → P a → P b) (h : Sound c) (hc : P c) :
    P (c.settle verdict) ∧ Sound (c.settle verdict) ∧
      (c.settle verdict).inFlight = [] ∧ (c.settle verdict).expired = [] := by
  induction hn : c.workload using Nat.strongRecOn generalizing c with
  | ind n ih =>
    cases hf : c.inFlight with
    | cons f rest =>
      have hchanges := conclude_changes h f.group (verdict f.result)
      rw [settle_inFlight verdict h hf]
      exact ih _ (hn ▸ workload_conclude h hf _) (hchanges.sound h) (hchanges.keeps hP h hc) rfl
    | nil =>
      cases hd : c.expired with
      | nil =>
        rw [settle_done verdict hf hd]
        exact ⟨hc, h, hf, hd⟩
      | cons d rest =>
        have hchanges := expire_changes h (d := d) (hd ▸ List.mem_cons_self ..)
        rw [settle_expired verdict h hf hd]
        refine ih _ ?_ (hchanges.sound h) (hchanges.keeps hP h hc) rfl
        rw [← hn, ← expireNext_eq hd]
        exact workload_expireNext h hd

end Settle

/-! ### Prompt sinks -/

/-- All groups have a sink that takes note. -/
def Noted (c : Coordinator) : Prop :=
  ∀ g ∈ c.roster.groups, g.outlet.recorded = true

theorem Noted.update {b c : Coordinator} (h : Noted c) {g x : Group}
    (hg : g ∈ c.roster.groups) (hx : x.outlet = g.outlet) (hr : b.roster.groups =
      (c.roster.update x).groups) : Noted b := by
  intro y hy
  rw [hr] at hy
  rcases Roster.mem_update.1 hy with ⟨hy, -⟩ | ⟨rfl, -⟩
  · exact h y hy
  · rw [hx]
    exact h g hg

theorem Change.noted {a b : Coordinator} {l : List Message} (hs : Sound a) (hc : Change a l b)
    (h : Noted a) : Noted b := by
  cases hc with
  | answered _ => exact h
  | @opened key params hk =>
    intro g hg
    rw [create_roster] at hg
    rcases List.mem_append.1 hg with hg | hg
    · exact h g hg
    · rw [List.mem_singleton.1 hg]
      rfl
  | @kept key g m hg _ _ => exact h.update (x := g.push m) (hs.of_group? hg).1 rfl rfl
  | @filled key g m trigger caller hg _ _ _ =>
    exact h.update (x := (g.push m).sealed) (hs.of_group? hg).1 rfl rfl
  | refused _ _ => exact h
  | @forced key g caller hg _ =>
    refine h.update (x := g.sealed) (hs.of_group? hg).1 rfl ?_
    rw [finalize_roster, remark_roster]
    rfl
  | @expired d g _ hg _ =>
    refine h.update (x := g.sealed) (hs.of_group? hg).1 rfl ?_
    rw [finalize_roster, remark_roster]
    rfl
  | stale _ _ => exact h
  | advanced ms =>
    rw [advance_eq hs.swept]
    exact h
  | @released f hf refusal =>
    obtain ⟨g, hg, -⟩ := hs.group_landed hf
    refine h.update (x := g.clear) (Roster.mem_of_group? hg) rfl ?_
    rw [release_roster hg refusal]
    rfl

end Coordinator

/-- What a prompt sink says to a result. -/
def PromptSink.verdict (p : PromptSink) : Verdict := fun result =>
  if p.refusals.contains result.key then some p.cause else none

namespace Aggregator
variable {a : Aggregator} {p : PromptSink}

theorem run_eq_settleWith (hsink : a.sink = .prompt p) (hp : p.readmits = [])
    (h : a.core.Sound) (hn : a.core.Noted) (fuel : Nat) :
    a.run fuel = {a with core := a.core.settleWith p.verdict fuel} := by
  induction fuel generalizing a with
  | zero => rfl
  | succ fuel ih =>
    have hchanged : ∀ b : Coordinator, Coordinator.Changes a.core [] b →
        ({a with core := b} : Aggregator).run fuel =
          {a with core := b.settleWith p.verdict fuel} := fun b hb =>
      ih (a := {a with core := b}) hsink (hb.sound h) (hb.keeps Coordinator.Change.noted h hn)
    cases hf : a.core.inFlight with
    | cons f rest =>
      have hm : f ∈ a.core.inFlight := hf ▸ List.mem_cons_self ..
      obtain ⟨g, hg, -, houtlet, -⟩ := h.carried f hm
      have hrecorded : f.outlet.recorded = true := houtlet ▸ hn g (Roster.mem_of_group? hg)
      have hnext : a.next? =
          some {a with core := a.core.conclude f.group (p.verdict f.result)} := by
        simp only [next?, unasked?, ask, hsink, hf, List.head?_cons, hrecorded, Bool.not_true,
          Bool.false_eq_true, if_false, PromptSink.respond, PromptSink.readmitsKey, hp,
          List.any_nil, PromptSink.verdict]
      rw [run, hnext, Coordinator.settleWith, hf]
      exact hchanged _ (Coordinator.conclude_changes h f.group _)
    | nil =>
      cases hd : a.core.expired with
      | nil =>
        have hnext : a.next? = none := by
          simp only [next?, unasked?, release?, hsink, hf, List.head?_nil, hd]
        rw [run, hnext, Coordinator.settleWith, hf, hd]
      | cons d rest =>
        have hnext : a.next? = some {a with core := a.core.expireNext} := by
          simp only [next?, unasked?, release?, hsink, hf, List.head?_nil, hd]
        rw [run, hnext, Coordinator.settleWith, hf, hd]
        refine hchanged _ ?_
        rw [Coordinator.expireNext_eq hd]
        exact Coordinator.expire_changes h (hd ▸ List.mem_cons_self ..)

/-- An aggregator whose sink is prompt and admits nothing of its own settles its coordinator. -/
theorem settle_eq (hsink : a.sink = .prompt p) (hp : p.readmits = []) (h : a.core.Sound)
    (hn : a.core.Noted) : a.settle = {a with core := a.core.settle p.verdict} := by
  have hwork : a.workload = a.core.workload := by
    simp only [workload, Coordinator.workload, hsink, hp, List.length_nil]
    rfl
  rw [settle, hwork, run_eq_settleWith hsink hp h hn]
  rfl

end Aggregator

end Aggregation
