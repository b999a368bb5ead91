import Aggregation.Group
import Aggregation.Proofs.Policy
import Aggregation.Scheduler

/-! What becomes of a group that is offered a message, claimed or cleared.

A group that collects has three ways to take an offer: it is full, it takes the message and goes
on, or it takes it and is claimed. Each is one equation here, so that nobody else opens `offer`. -/
namespace Aggregation.Group

/-- The group with one more message. -/
def push (g : Group) (m : Message) : Group :=
  {g with messages := g.messages ++ [m]}

/-- The group completed; nothing goes in any more. -/
def sealed (g : Group) : Group :=
  {g with completed := true}

/-- What a claim that is not caused by an offer is put down to. -/
def claimTrigger (g : Group) (now : Instant) : Trigger :=
  if g.policy.isExpired now then .timeout else .forced

/-- What a full group answers. -/
def fullFault (g : Group) (m : Message) : Fault :=
  .groupFull g.key (g.policy.max.getD 0) m.id

section Fields
variable (g : Group) (m : Message)

@[simp] theorem push_messages : (g.push m).messages = g.messages ++ [m] := rfl
@[simp] theorem sealed_id : g.sealed.id = g.id := rfl
@[simp] theorem sealed_key : g.sealed.key = g.key := rfl
@[simp] theorem sealed_completed : g.sealed.completed = true := rfl

end Fields

section Calls
variable {g : Group} {m : Message} {now : Instant}

theorem add_of_room (hc : g.completed = false) (hr : g.hasCapacity = true) :
    g.add m = (true, g.push m) := by
  simp [add, hc, hr, push]

theorem add_of_no_room (h : (g.completed || !g.hasCapacity) = true) : g.add m = (false, g) := by
  simp only [add, h, if_true]

/-- There is room as long as the maximum, if there is one, is not reached. -/
theorem hasCapacity_iff : g.hasCapacity = true ↔ Policy.Under g.policy.max g.messages.length := by
  unfold hasCapacity
  cases g.policy.max with
  | none => simp [Policy.Under]
  | some max => simp [Policy.Under]

theorem offer_late (hc : g.completed = true) : g.offer m now = (.late m, g) := by
  simp only [offer, hc, if_true]

theorem offer_full (hc : g.completed = false) (hr : g.hasCapacity = false) :
    g.offer m now = (.rejected m (g.fullFault m), g) := by
  simp [offer, hc, hr, fullFault]

theorem offer_pending (hc : g.completed = false) (hr : g.hasCapacity = true)
    (he : g.policy.evaluate (g.messages ++ [m]) now = .incomplete) :
    g.offer m now = (.pending, g.push m) := by
  simp [offer, hc, hr, he, push]

theorem offer_claimed {trigger : Trigger} (hc : g.completed = false) (hr : g.hasCapacity = true)
    (he : g.policy.evaluate (g.messages ++ [m]) now = .complete trigger) :
    g.offer m now = (.claimed trigger, (g.push m).sealed) := by
  simp [offer, hc, hr, he, push, sealed]

theorem claim_collecting (hc : g.completed = false) :
    g.claim now = (some (g.claimTrigger now), g.sealed) := by
  simp only [claim, hc, Bool.false_eq_true, if_false]
  rfl

theorem claimTrigger_of_isExpired (h : g.policy.isExpired now = true) :
    g.claimTrigger now = .timeout :=
  if_pos h

theorem claim_completed (hc : g.completed = true) : g.claim now = (none, g) := by
  simp only [claim, hc, if_true]

theorem mark_collecting (hc : g.completed = false) : g.mark = (true, g.sealed) := by
  rw [mark, hc]
  rfl

theorem mark_completed (hc : g.completed = true) : g.mark = (false, g) := by
  obtain ⟨id, key, timeout, created, policy, outlet, completed, messages⟩ := g
  obtain rfl : completed = true := hc
  rfl

end Calls

/-! ### What a group is born with -/

/-- What a group was before it took anything; its id, key, policy and outlet never change. -/
def blank (g : Group) : Group :=
  {g with completed := false, messages := []}

/-- What a group asks its scheduler for. -/
def deadline? (g : Group) : Option Deadline :=
  g.policy.expiry.map fun due => ⟨g.key, g.id, due⟩

theorem deadline?_blank (g : Group) : g.blank.deadline? = g.deadline? := rfl

theorem deadline?_congr {g x : Group} (h : x.blank = g.blank) : x.deadline? = g.deadline? := by
  rw [← deadline?_blank x, h, deadline?_blank]

theorem of_deadline? {g : Group} {d : Deadline} (h : g.deadline? = some d) :
    d.key = g.key ∧ d.group = g.id ∧ g.policy.expiry = some d.due := by
  simp only [deadline?, Option.map_eq_some_iff] at h
  obtain ⟨due, hdue, rfl⟩ := h
  exact ⟨rfl, rfl, hdue⟩

/-- A group's deadline is its timeout, which is not zero, after its creation. -/
def Dated (g : Group) : Prop :=
  g.policy.expiry = (g.timeout.map fun (t : Nat) => g.created + t) ∧
    ∀ t, g.timeout = some t → 0 < t

/-! ### New groups -/

section New
variable (id : Nat) (key : String) (params : Params) (property : String) (outlet : Outlet)
  (now : Instant)

@[simp] theorem create_completed :
    (create id key params property outlet now).completed = false := rfl

theorem create_dated : (create id key params property outlet now).Dated := by
  refine ⟨rfl, fun t ht => ?_⟩
  by_cases h0 : params.timeout = 0
  · simp [create, h0] at ht
  · simp only [create, h0, if_false, Option.some.injEq] at ht
    omega

end New

end Aggregation.Group
