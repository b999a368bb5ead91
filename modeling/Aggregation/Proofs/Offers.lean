import Aggregation.Proofs.Group
import Aggregation.Proofs.Precedence
import Mathlib.Data.Nat.Find
import Mathlib.Order.Bounds.Basic

/-! A group that is fed by offers.

Which offer completes a group can be told from the offers alone: it is the first one at which some
rule holds, and the rule that comes first in order of precedence is what completes it. Each offer
before it is pending and each one after it is late (`offers_closed_form`). Up to that offer the
group is short of its maximum, so that none is ever rejected. -/
namespace Aggregation

namespace Policy

/-! ### Rules -/

/-- Whether a rule holds of so many messages, the first of which is given, at a point of time. A
group is completed by force on request only. -/
def Holds (p : Policy) (first : Message) (count : Nat) (now : Instant) : Trigger → Prop
  | .declaredTotal => ∃ text position, first.property? p.property = some (.str text) ∧
      Position.parse? text = some position ∧ position.total ≤ count
  | .minCount => ∃ min, p.min = some min ∧ min ≤ count
  | .maxCount => ∃ max, p.max = some max ∧ max ≤ count
  | .timeout => ∃ due, p.expiry = some due ∧ due ≤ now
  | .forced => False

section Rules
variable {p : Policy} {first : Message} {messages : List Message} {now : Instant}

/-- What a message declares is the total of the position that it carries. -/
theorem declared?_eq_some (hfirst : messages.head? = some first) {total : Nat} :
    p.declared? messages = some total ↔ ∃ text position,
      first.property? p.property = some (.str text) ∧ Position.parse? text = some position ∧
        position.total = total := by
  obtain ⟨rest, rfl⟩ := List.head?_eq_some_iff.1 hfirst
  simp only [declared?, Message.position]
  cases first.property? p.property with
  | none => simp
  | some value =>
    cases value with
    | str text => cases hparse : Position.parse? text <;> simp [hparse]
    | _ => simp

/-- With a first message, a rule holds of messages if it does of their number. -/
theorem met_iff_holds (hfirst : messages.head? = some first) (rule : Trigger) :
    p.Met messages now rule ↔ p.Holds first messages.length now rule := by
  cases rule with
  | declaredTotal =>
    constructor
    · rintro ⟨total, hdeclared, hle⟩
      obtain ⟨text, position, htext, hparse, rfl⟩ := (declared?_eq_some hfirst).1 hdeclared
      exact ⟨text, position, htext, hparse, hle⟩
    · rintro ⟨text, position, htext, hparse, hle⟩
      exact ⟨_, (declared?_eq_some hfirst).2 ⟨text, position, htext, hparse, rfl⟩, hle⟩
  | _ => exact Iff.rfl

/-- Messages are incomplete as long as no rule holds. -/
theorem evaluate_incomplete_iff (hfirst : messages.head? = some first) :
    p.evaluate messages now = .incomplete ↔
      ∀ rule, ¬ p.Holds first messages.length now rule := by
  simp only [incomplete_iff, met_iff_holds hfirst]

/-- The rule that completes messages holds, and none holds that is checked before it. -/
theorem holds_of_evaluate (hfirst : messages.head? = some first) {trigger : Trigger}
    (h : p.evaluate messages now = .complete trigger) :
    p.Holds first messages.length now trigger ∧
      ∀ rule, p.Holds first messages.length now rule → trigger.rank ≤ rule.rank := by
  simpa only [complete_iff, met_iff_holds hfirst] using h

end Rules

/-- Whether a rule holds at one of some offers, told from the offers alone. Offers are counted from
zero, so there are `k + 1` messages when the `k`-th has been made. -/
def HoldsAt (p : Policy) (offers : List (Message × Instant)) (k : Nat) (rule : Trigger) : Prop :=
  ∃ first m now, (offers.map Prod.fst).head? = some first ∧ offers[k]? = some (m, now) ∧
    p.Holds first (k + 1) now rule

theorem holdsAt_iff {p : Policy} {offers : List (Message × Instant)} {k : Nat} {first m : Message}
    {now : Instant} (hfirst : (offers.map Prod.fst).head? = some first)
    (hk : offers[k]? = some (m, now)) (rule : Trigger) :
    p.HoldsAt offers k rule ↔ p.Holds first (k + 1) now rule := by
  constructor
  · rintro ⟨first', m', now', hfirst', hk', hrule⟩
    obtain rfl := Option.some.inj (hfirst.symm.trans hfirst')
    obtain ⟨rfl, rfl⟩ := Prod.mk.inj (Option.some.inj (hk.symm.trans hk'))
    exact hrule
  · exact fun hrule => ⟨first, m, now, hfirst, hk, hrule⟩

end Policy

namespace Group

/-! ### Offers in turn -/

/-- The answers to offers made one after the other, and the group after them. -/
def offers (g : Group) : List (Message × Instant) → List Offer × Group
  | [] => ([], g)
  | (m, now) :: rest =>
    let (answer, g) := g.offer m now
    let (answers, g) := offers g rest
    (answer :: answers, g)

theorem offers_append (g : Group) (before after : List (Message × Instant)) :
    g.offers (before ++ after) =
      ((g.offers before).1 ++ ((g.offers before).2.offers after).1,
        ((g.offers before).2.offers after).2) := by
  induction before generalizing g with
  | nil => rfl
  | cons x rest ih =>
    simp only [List.cons_append, offers]
    rw [ih]

/-- A group with more messages. -/
def pushAll (g : Group) (messages : List Message) : Group :=
  {g with messages := g.messages ++ messages}

/-- What is answered to offers the `k`-th of which claims the group. -/
def answersAt (offers : List (Message × Instant)) (k : Nat) (trigger : Trigger) : List Offer :=
  List.replicate k .pending ++ .claimed trigger :: (offers.drop (k + 1)).map fun o => .late o.1

/-- Whatever a completed group is offered is late. -/
theorem offers_completed {g : Group} (hc : g.completed = true) (os : List (Message × Instant)) :
    g.offers os = (os.map fun o => .late o.1, g) := by
  induction os with
  | nil => rfl
  | cons x rest ih => simp only [offers, offer_late hc, ih, List.map_cons]

section Collecting
variable {g : Group} {first : Message}

/-- As long as no rule holds, offers are pending and their messages are kept. The maximum is a rule,
so there is room for the next one. -/
theorem offers_pending (hc : g.completed = false)
    (hmax : Policy.Under g.policy.max g.messages.length) {os : List (Message × Instant)}
    (hfirst : ∀ m ∈ (g.messages ++ os.map Prod.fst).head?, m = first)
    (hnone : ∀ k m now rule, os[k]? = some (m, now) →
      ¬ g.policy.Holds first (g.messages.length + (k + 1)) now rule) :
    g.offers os = (List.replicate os.length .pending, g.pushAll (os.map Prod.fst)) ∧
      Policy.Under g.policy.max (g.messages.length + os.length) := by
  induction os generalizing g with
  | nil => exact ⟨by simp [offers, pushAll], hmax⟩
  | cons x rest ih =>
    obtain ⟨m, now⟩ := x
    have hassoc : g.messages ++ ((m, now) :: rest).map Prod.fst =
        (g.messages ++ [m]) ++ rest.map Prod.fst := by simp
    rw [hassoc] at hfirst
    have hhead : (g.messages ++ [m]).head? = some first := by
      obtain ⟨x, tail, hx⟩ := List.exists_cons_of_ne_nil
        (List.append_ne_nil_of_right_ne_nil g.messages (List.cons_ne_nil m []))
      rw [hx] at hfirst ⊢
      rw [hfirst x rfl]
      rfl
    have hlength : (g.messages ++ [m]).length = g.messages.length + 1 := by simp
    have hnow := hnone 0 m now
    have hincomplete : g.policy.evaluate (g.messages ++ [m]) now = .incomplete := by
      rw [Policy.evaluate_incomplete_iff hhead, hlength]
      exact fun rule => hnow rule rfl
    have hpush : Policy.Under (g.push m).policy.max (g.push m).messages.length := by
      intro max hm
      rw [push_messages, hlength]
      exact Nat.lt_of_not_le fun hle => hnow .maxCount rfl ⟨max, hm, hle⟩
    obtain ⟨hrest, hunder⟩ := ih (g := g.push m) hc hpush hfirst fun k m' now' rule hk => by
      have hlater := hnone (k + 1) m' now' rule hk
      rw [push_messages, hlength]
      rwa [Nat.add_right_comm, Nat.add_assoc]
    refine ⟨?_, ?_⟩
    · simp only [offers, offer_pending hc (hasCapacity_iff.2 hmax) hincomplete, hrest]
      simp [List.replicate_succ, pushAll, push]
    · rw [push_messages, hlength] at hunder
      rw [List.length_cons]
      rwa [Nat.add_right_comm, Nat.add_assoc] at hunder

/-- An offer at which some rule holds claims the group, by the rule that comes first. -/
theorem offers_claimed (hc : g.completed = false)
    (hmax : Policy.Under g.policy.max g.messages.length) {m : Message} {now : Instant}
    (hfirst : (g.messages ++ [m]).head? = some first) {rule : Trigger}
    (hrule : g.policy.Holds first (g.messages.length + 1) now rule)
    (rest : List (Message × Instant)) :
    ∃ trigger, g.policy.Holds first (g.messages.length + 1) now trigger ∧
      (∀ rule, g.policy.Holds first (g.messages.length + 1) now rule →
        trigger.rank ≤ rule.rank) ∧
      g.offers ((m, now) :: rest) =
        (.claimed trigger :: rest.map fun o => .late o.1, (g.push m).sealed) := by
  have hlength : (g.messages ++ [m]).length = g.messages.length + 1 := by simp
  rw [← hlength] at hrule ⊢
  cases he : g.policy.evaluate (g.messages ++ [m]) now with
  | incomplete => exact absurd hrule ((Policy.evaluate_incomplete_iff hfirst).1 he rule)
  | complete trigger =>
    obtain ⟨htrigger, hleast⟩ := Policy.holds_of_evaluate hfirst he
    refine ⟨trigger, htrigger, hleast, ?_⟩
    simp only [offers, offer_claimed hc (hasCapacity_iff.2 hmax) he,
      offers_completed (sealed_completed (g.push m))]

end Collecting

section Born
variable {id : Nat} {key : String} {params : Params} {property : String} {outlet : Outlet}
  {created : Instant} {offers : List (Message × Instant)} {k : Nat}

/-- Before the first offer at which a rule holds, a new group keeps what it is offered. -/
theorem offers_take
    (hnone : ∀ j < k, ∀ rule,
      ¬ (create id key params property outlet created).policy.HoldsAt offers j rule) :
    let g := create id key params property outlet created
    g.offers (offers.take k) = (List.replicate (offers.take k).length .pending,
        g.pushAll ((offers.take k).map Prod.fst)) ∧
      Policy.Under g.policy.max (offers.take k).length := by
  intro g
  have hmax : Policy.Under g.policy.max g.messages.length :=
    (Policy.short_nil property params.min params.max g.policy.expiry).under.2.2
  cases hhead : (offers.map Prod.fst).head? with
  | none =>
    obtain rfl : offers = [] := List.map_eq_nil_iff.1 (List.head?_eq_none_iff.1 hhead)
    rw [List.take_nil]
    exact ⟨rfl, hmax⟩
  | some first =>
    have hfirst : ∀ m ∈ (g.messages ++ (offers.take k).map Prod.fst).head?, m = first := by
      show ∀ m ∈ ((offers.take k).map Prod.fst).head?, m = first
      intro m hm
      rw [List.map_take, List.head?_take] at hm
      split at hm
      · cases hm
      · exact Option.some.inj (hm.symm.trans hhead)
    obtain ⟨hpending, hunder⟩ := offers_pending rfl hmax hfirst fun j m now rule hj => by
      rw [List.getElem?_take] at hj
      split at hj
      · next hlt =>
        have hzero : g.messages.length + (j + 1) = j + 1 := Nat.zero_add _
        rw [hzero, ← Policy.holdsAt_iff hhead hj]
        exact hnone j hlt rule
      · cases hj
    have hzero : g.messages.length + (offers.take k).length = (offers.take k).length :=
      Nat.zero_add _
    exact ⟨hpending, hzero ▸ hunder⟩

/-- The first offer at which a rule holds claims a new group. -/
theorem offers_least
    (hk : IsLeast {k | ∃ rule,
      (create id key params property outlet created).policy.HoldsAt offers k rule} k) :
    let g := create id key params property outlet created
    ∃ trigger, g.policy.HoldsAt offers k trigger ∧
      (∀ rule, g.policy.HoldsAt offers k rule → trigger.rank ≤ rule.rank) ∧
      g.offers offers = (answersAt offers k trigger,
        (g.pushAll ((offers.take (k + 1)).map Prod.fst)).sealed) := by
  intro g
  obtain ⟨⟨rule, first, m, now, hhead, hget, hrule⟩, hleast⟩ := hk
  have hnone : ∀ j < k, ∀ rule, ¬ g.policy.HoldsAt offers j rule := fun j hj rule hholds =>
    absurd (hleast ⟨rule, hholds⟩) (Nat.not_le.2 hj)
  obtain ⟨hbefore, hunder⟩ := offers_take hnone
  obtain ⟨hlt, hm⟩ := List.getElem?_eq_some_iff.1 hget
  have hlength : (offers.take k).length = k := List.length_take_of_le (Nat.le_of_lt hlt)
  have hsplit : offers = offers.take k ++ (m, now) :: offers.drop (k + 1) := by
    rw [← hm, ← List.drop_eq_getElem_cons hlt, List.take_append_drop]
  have hpush : (offers.take k).map Prod.fst ++ [m] = (offers.take (k + 1)).map Prod.fst := by
    rw [List.take_add_one, hget, List.map_append]
    rfl
  -- The group just before that offer.
  obtain ⟨b, hb⟩ : ∃ b, b = g.pushAll ((offers.take k).map Prod.fst) := ⟨_, rfl⟩
  have hmessages : b.messages = (offers.take k).map Prod.fst := hb ▸ rfl
  have hcount : b.messages.length = k := by rw [hmessages, List.length_map, hlength]
  have hpolicy : b.policy = g.policy := hb ▸ rfl
  have hfirst : (b.messages ++ [m]).head? = some first := by
    rw [hmessages, hpush, List.map_take, List.head?_take, if_neg (Nat.succ_ne_zero k), hhead]
  have hroom : Policy.Under b.policy.max b.messages.length := by
    rw [hpolicy, hcount, ← hlength]
    exact hunder
  have hholds : b.policy.Holds first (b.messages.length + 1) now rule := by
    rw [hpolicy, hcount]
    exact hrule
  obtain ⟨trigger, htrigger, hrank, hclaimed⟩ :=
    offers_claimed (hb ▸ rfl) hroom hfirst hholds (offers.drop (k + 1))
  rw [hpolicy, hcount] at htrigger hrank
  refine ⟨trigger, ⟨first, m, now, hhead, hget, htrigger⟩, fun r hr => ?_, ?_⟩
  · exact hrank r ((Policy.holdsAt_iff hhead hget r).1 hr)
  · have hfinal : (b.push m).sealed = (g.pushAll ((offers.take (k + 1)).map Prod.fst)).sealed := by
      rw [hb, ← hpush]
      rfl
    have happend := offers_append g (offers.take k) ((m, now) :: offers.drop (k + 1))
    rw [hbefore, ← hb, hclaimed, hlength, ← hsplit, hfinal] at happend
    exact happend

end Born

/-- The first offer to a new group at which some rule holds claims it, by the rule that comes first
in order of precedence. The offers before it are pending and those after it late, and the group ends
completed with the messages up to and including that one. If no rule ever holds, all offers are
pending and all their messages are in the group. None is rejected. -/
theorem offers_closed_form (id : Nat) (key : String) (params : Params) (property : String)
    (outlet : Outlet) (created : Instant) (offers : List (Message × Instant)) :
    let g := create id key params property outlet created
    let answers := (g.offers offers).1
    let after := (g.offers offers).2
    (∀ k, IsLeast {k | ∃ rule, g.policy.HoldsAt offers k rule} k →
      ∃ trigger, g.policy.HoldsAt offers k trigger ∧
        (∀ rule, g.policy.HoldsAt offers k rule → trigger.rank ≤ rule.rank) ∧
        answers = List.replicate k .pending ++
          .claimed trigger :: (offers.drop (k + 1)).map (fun o => .late o.1) ∧
        after = {g with
          messages := (offers.take (k + 1)).map Prod.fst
          completed := true}) ∧
    ((∀ k rule, ¬ g.policy.HoldsAt offers k rule) →
      answers = List.replicate offers.length .pending ∧
        after = {g with messages := offers.map Prod.fst}) ∧
    ∀ answer ∈ answers, ∀ m fault, answer ≠ .rejected m fault := by
  intro g answers after
  have hnone : (∀ k rule, ¬ g.policy.HoldsAt offers k rule) →
      g.offers offers =
        (List.replicate offers.length .pending, g.pushAll (offers.map Prod.fst)) := by
    intro h
    obtain ⟨hpending, -⟩ := offers_take fun j (_ : j < offers.length) => h j
    rwa [List.take_length] at hpending
  refine ⟨fun k hk => ?_, fun h => ?_, fun answer hanswer m fault => ?_⟩
  · obtain ⟨trigger, htrigger, hrank, heq⟩ := offers_least hk
    exact ⟨trigger, htrigger, hrank, congrArg Prod.fst heq, congrArg Prod.snd heq⟩
  · exact ⟨congrArg Prod.fst (hnone h), congrArg Prod.snd (hnone h)⟩
  · by_cases h : ∃ k rule, g.policy.HoldsAt offers k rule
    · classical
      obtain ⟨trigger, -, -, heq⟩ := offers_least
        ⟨Nat.find_spec h, fun _ hj => Nat.find_min' h hj⟩
      have hanswers : answers = answersAt offers (Nat.find h) trigger := congrArg Prod.fst heq
      have hm : answer ∈ answersAt offers (Nat.find h) trigger := hanswers ▸ hanswer
      rcases List.mem_append.1 hm with hm | hm
      · rw [List.eq_of_mem_replicate hm]
        exact Offer.noConfusion
      · rcases List.mem_cons.1 hm with rfl | hm
        · exact Offer.noConfusion
        · obtain ⟨o, -, rfl⟩ := List.mem_map.1 hm
          exact Offer.noConfusion
    · have hanswers : answers = List.replicate offers.length .pending :=
        congrArg Prod.fst (hnone fun k rule hrule => h ⟨k, rule, hrule⟩)
      have hm : answer ∈ List.replicate offers.length Offer.pending := hanswers ▸ hanswer
      rw [List.eq_of_mem_replicate hm]
      exact Offer.noConfusion

/-- The second of three offers comes after the deadline, and no other rule holds yet. That the third
one is said to be made at an earlier time makes no difference. -/
theorem offers_closed_form_overdue :
    let m := Message.ofAction "m" "op" (Timestamp.ofMillis 0)
    let g := create 1 "k" ⟨10, 3, 0⟩ "MESSAGE_SEQUENCE" ⟨"sink", true, true⟩ 0
    let offers := [(m, 3), (m, 12), (m, 1)]
    IsLeast {k | ∃ rule, g.policy.HoldsAt offers k rule} 1 ∧
      (g.offers offers).1 = [.pending, .claimed .timeout, .late m] ∧
      (g.offers offers).2 = {g with messages := [m, m], completed := true} := by
  intro m g offers
  have hfirst : (offers.map Prod.fst).head? = some m := rfl
  have hdue : g.policy.evaluate [m, m] 12 = .complete .timeout := by decide
  have hundue : g.policy.evaluate [m] 3 = .incomplete := by decide
  obtain ⟨hholds, hrank⟩ : g.policy.Holds m 2 12 .timeout ∧
      ∀ rule, g.policy.Holds m 2 12 rule → 3 ≤ rule.rank :=
    Policy.holds_of_evaluate rfl hdue
  have hearly : ∀ rule, ¬ g.policy.Holds m 1 3 rule :=
    (Policy.evaluate_incomplete_iff rfl).1 hundue
  have hleast : IsLeast {k | ∃ rule, g.policy.HoldsAt offers k rule} 1 := by
    refine ⟨⟨.timeout, (Policy.holdsAt_iff hfirst rfl _).2 hholds⟩, ?_⟩
    rintro k ⟨rule, hrule⟩
    refine Nat.pos_of_ne_zero fun hk => ?_
    rw [hk] at hrule
    exact hearly rule ((Policy.holdsAt_iff hfirst rfl rule).1 hrule)
  obtain ⟨hclaimed, -⟩ := offers_closed_form 1 "k" ⟨10, 3, 0⟩ "MESSAGE_SEQUENCE"
    ⟨"sink", true, true⟩ 0 offers
  obtain ⟨trigger, htrigger, hfirstRule, hanswers, hafter⟩ := hclaimed 1 hleast
  have hlow : trigger.rank ≤ 3 := hfirstRule .timeout ((Policy.holdsAt_iff hfirst rfl _).2 hholds)
  have hhigh : 3 ≤ trigger.rank :=
    hrank trigger ((Policy.holdsAt_iff hfirst rfl trigger).1 htrigger)
  obtain rfl : trigger = .timeout := by
    cases trigger with
    | timeout => rfl
    | forced => exact absurd hlow (by decide)
    | _ => exact absurd hhigh (by decide)
  exact ⟨hleast, hanswers, hafter⟩

end Group

end Aggregation
