import Aggregation.Proofs.Calls
import Aggregation.Proofs.Offers

/-! Offers made call by call.

An offer does in one go what may also be asked of a group in separate calls: whether it is
completed, to add the message, to evaluate, and to be marked if it is complete. As long as nobody
else calls the group in between, that comes to the same. One offer is answered alike and leaves the
same group (`offerSeparately_eq`), and so is any list of offers, whatever the group was before the
first (`offers_eq_separately`). A group that is marked on the way was never completed before. -/
namespace Aggregation

/-- What marking answers where an offer is answered so: a claim marks the group, and is the first to
do it; otherwise the group is not marked. -/
def Offer.marking : Offer → Option Bool
  | .claimed _ => some true
  | _ => none

namespace Group

/-- Offer a message call by call; what is answered to it, and what marking answered if it came to
that. -/
def offerSeparately (g : Group) (m : Message) (now : Instant) : (Offer × Option Bool) × Group :=
  if g.completed then ((.late m, none), g)
  else
    match g.add m with
    | (false, g) => ((.rejected m (.groupFull g.key (g.policy.max.getD 0) m.id), none), g)
    | (true, g) =>
      match g.evaluate now with
      | .incomplete => ((.pending, none), g)
      | .complete trigger =>
        let (marked, g) := g.mark
        ((.claimed trigger, some marked), g)

/-- Offer messages one after the other, each call by call. -/
def offersSeparately (g : Group) : List (Message × Instant) → List (Offer × Option Bool) × Group
  | [] => ([], g)
  | (m, now) :: rest =>
    let (answer, g) := g.offerSeparately m now
    let (answers, g) := offersSeparately g rest
    (answer :: answers, g)

/-! ### One offer -/

section Offer
variable (g : Group) (m : Message) (now : Instant)

theorem evaluate_push {g : Group} (hc : g.completed = false) :
    (g.push m).evaluate now = g.policy.evaluate (g.messages ++ [m]) now := by
  have hpush : (g.push m).completed = false := hc
  rw [evaluate, hpush]
  rfl

theorem offerSeparately_eq :
    g.offerSeparately m now = (((g.offer m now).1, (g.offer m now).1.marking), (g.offer m now).2) := by
  cases hc : g.completed with
  | true =>
    rw [offer_late hc]
    simp only [offerSeparately, hc, if_true, Offer.marking]
  | false =>
    cases hr : g.hasCapacity with
    | false =>
      have hroom : (g.completed || !g.hasCapacity) = true := by simp [hr]
      rw [offer_full hc hr]
      simp only [offerSeparately, hc, Bool.false_eq_true, if_false, add_of_no_room hroom,
        Offer.marking, fullFault]
    | true =>
      have hadd := add_of_room (m := m) hc hr
      have hevaluate := evaluate_push m now hc
      cases he : g.policy.evaluate (g.messages ++ [m]) now with
      | incomplete =>
        rw [offer_pending hc hr he]
        simp only [offerSeparately, hc, Bool.false_eq_true, if_false, hadd, hevaluate, he,
          Offer.marking]
      | complete trigger =>
        -- The message did not complete the group by itself, so this call is the one that marks it.
        have hmark : (g.push m).mark = (true, (g.push m).sealed) := mark_collecting hc
        rw [offer_claimed hc hr he]
        simp only [offerSeparately, hc, Bool.false_eq_true, if_false, hadd, hevaluate, he, hmark,
          Offer.marking]

/-- An offer leaves a group's key and policy, and is rejected only because of a maximum. -/
theorem offer_rejected :
    (g.offer m now).2.key = g.key ∧ (g.offer m now).2.policy = g.policy ∧
      ∀ x fault, (g.offer m now).1 = .rejected x fault →
        ∃ max, g.policy.max = some max ∧ fault = .groupFull g.key max x.id := by
  rcases offer_cases g now m with ⟨-, ho⟩ | ⟨-, hr, ho⟩ | ⟨-, -, ho⟩ | ⟨trigger, -, -, ho⟩
  · rw [ho]
    exact ⟨rfl, rfl, fun x fault h => by cases h⟩
  · rw [ho]
    refine ⟨rfl, rfl, fun x fault h => ?_⟩
    cases h
    cases hmax : g.policy.max with
    | none => simp [hasCapacity, hmax] at hr
    | some max => exact ⟨max, rfl, by rw [fullFault, hmax, Option.getD_some]⟩
  · rw [ho]
    exact ⟨rfl, rfl, fun x fault h => by cases h⟩
  · rw [ho]
    exact ⟨rfl, rfl, fun x fault h => by cases h⟩

end Offer

/-! ### Offers in turn -/

theorem offersSeparately_eq (g : Group) (os : List (Message × Instant)) :
    g.offersSeparately os = ((g.offers os).1.map fun o => (o, o.marking), (g.offers os).2) := by
  induction os generalizing g with
  | nil => rfl
  | cons x rest ih =>
    obtain ⟨m, now⟩ := x
    simp only [offersSeparately, offers, offerSeparately_eq, ih, List.map_cons]

theorem offers_rejected (g : Group) (os : List (Message × Instant)) :
    ∀ x fault, Offer.rejected x fault ∈ (g.offers os).1 →
      ∃ max, g.policy.max = some max ∧ fault = .groupFull g.key max x.id := by
  induction os generalizing g with
  | nil => exact fun x fault h => absurd h List.not_mem_nil
  | cons o rest ih =>
    obtain ⟨m, now⟩ := o
    obtain ⟨hkey, hpolicy, hrejected⟩ := offer_rejected g m now
    intro x fault h
    rcases List.mem_cons.1 h with h | h
    · exact hrejected x fault h.symm
    · obtain ⟨max, hmax, hfault⟩ := ih (g.offer m now).2 x fault h
      exact ⟨max, hpolicy ▸ hmax, hkey ▸ hfault⟩

/-- From any group, messages that are offered call by call get the same answers as in one go each,
and leave the same group. Whenever it comes to marking the group, that answers that it was this very
call which completed it. What is rejected is so because of the group's maximum, and the fault tells
the group's key, that maximum and the message. -/
theorem offers_eq_separately (g : Group) (os : List (Message × Instant)) :
    (g.offersSeparately os).1.map Prod.fst = (g.offers os).1 ∧
      (g.offersSeparately os).2 = (g.offers os).2 ∧
      (∀ answer ∈ (g.offersSeparately os).1, answer.2 = answer.1.marking) ∧
      ∀ m fault, .rejected m fault ∈ (g.offers os).1 →
        ∃ max, g.policy.max = some max ∧ fault = .groupFull g.key max m.id := by
  rw [offersSeparately_eq]
  refine ⟨?_, rfl, fun answer hanswer => ?_, offers_rejected g os⟩
  · rw [List.map_map]
    exact List.map_id _
  · obtain ⟨o, -, rfl⟩ := List.mem_map.1 hanswer
    rfl

/-- The second of three offers fills the group, after its deadline. -/
example :
    let m := Message.ofAction "m" "op" (Timestamp.ofMillis 0)
    let g := create 1 "k" ⟨10, 0, 2⟩ "MESSAGE_SEQUENCE" ⟨"sink", true, true⟩ 0
    (g.offersSeparately [(m, 3), (m, 12), (m, 12)]).1 =
      [(.pending, none), (.claimed .maxCount, some true), (.late m, none)] := by
  rfl

end Group

end Aggregation
