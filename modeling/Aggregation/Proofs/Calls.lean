import Aggregation.Proofs.Group
import Mathlib.Data.List.DropRight

/-! Whatever is asked of a group.

Each call leaves the group as it is or does one of four things: it adds a message, adds one and
completes the group, completes the group, or clears it (`call_does`). What was asked and answered so
far therefore tells what a new group has become (`Recorded.calls`): it is completed if one of the
calls has claimed it, which only one can, and it holds what the calls since the last clearing
took. -/
namespace Aggregation.Group

/-! ### What a call comes to -/

def Call.isClear : Call → Bool
  | .clear => true
  | _ => false

/-- Whether a call claimed the group, told from what was answered. -/
def isClaim : Call × Answer → Bool
  | (.offer _, .offered (.claimed _)) => true
  | (.mark, .flag b) => b
  | (.claim, .claimed trigger) => trigger.isSome
  | _ => false

/-- The message that a call brought and the group took, told from what was answered. -/
def taken? : Call × Answer → Option Message
  | (.add m, .flag true) => some m
  | (.offer m, .offered .pending) => some m
  | (.offer m, .offered (.claimed _)) => some m
  | _ => none

/-- Whether a call brought a message that the group did not take. -/
def turnsAway : Call × Answer → Bool
  | (.add _, .flag b) => !b
  | (.offer _, .offered (.late _)) => true
  | (.offer _, .offered (.rejected _ _)) => true
  | _ => false

/-- What an answered call does to a group. -/
inductive Does (g : Group) (x : Call × Answer) : Group → Prop where
  | nothing (hclear : x.1.isClear = false) (hclaim : isClaim x = false) (htaken : taken? x = none) :
      Does g x g
  | takes (m : Message) (hc : g.completed = false) (hroom : g.hasCapacity = true)
      (hclear : x.1.isClear = false) (hclaim : isClaim x = false) (htaken : taken? x = some m) :
      Does g x (g.push m)
  | fills (m : Message) (hc : g.completed = false) (hroom : g.hasCapacity = true)
      (hclear : x.1.isClear = false) (hclaim : isClaim x = true) (htaken : taken? x = some m) :
      Does g x (g.push m).sealed
  | seals (hc : g.completed = false) (hclear : x.1.isClear = false) (hclaim : isClaim x = true)
      (htaken : taken? x = none) : Does g x g.sealed
  | clears (hclear : x.1.isClear = true) (hclaim : isClaim x = false) : Does g x g.clear

section Calls
variable (g : Group) (now : Instant)

theorem add_cases (m : Message) :
    g.add m = (false, g) ∨
      (g.completed = false ∧ g.hasCapacity = true ∧ g.add m = (true, g.push m)) := by
  cases h : g.completed || !g.hasCapacity with
  | true => exact .inl (add_of_no_room h)
  | false =>
    obtain ⟨hc, hroom⟩ := Bool.or_eq_false_iff.1 h
    rw [Bool.not_eq_false'] at hroom
    exact .inr ⟨hc, hroom, add_of_room hc hroom⟩

theorem offer_cases (m : Message) :
    (g.completed = true ∧ g.offer m now = (.late m, g)) ∨
      (g.completed = false ∧ g.hasCapacity = false ∧
        g.offer m now = (.rejected m (g.fullFault m), g)) ∨
      (g.completed = false ∧ g.hasCapacity = true ∧ g.offer m now = (.pending, g.push m)) ∨
      (∃ trigger, g.completed = false ∧ g.hasCapacity = true ∧
        g.offer m now = (.claimed trigger, (g.push m).sealed)) := by
  cases hc : g.completed with
  | true => exact .inl ⟨rfl, offer_late hc⟩
  | false =>
    cases hroom : g.hasCapacity with
    | false => exact .inr (.inl ⟨rfl, rfl, offer_full hc hroom⟩)
    | true =>
      cases he : g.policy.evaluate (g.messages ++ [m]) now with
      | incomplete => exact .inr (.inr (.inl ⟨rfl, rfl, offer_pending hc hroom he⟩))
      | complete trigger => exact .inr (.inr (.inr ⟨trigger, rfl, rfl, offer_claimed hc hroom he⟩))

theorem add_does (m : Message) : Does g (.add m, .flag (g.add m).1) (g.add m).2 := by
  rcases add_cases g m with h | ⟨hc, hroom, h⟩
  · rw [h]
    exact .nothing rfl rfl rfl
  · rw [h]
    exact .takes m hc hroom rfl rfl rfl

theorem offer_does (m : Message) :
    Does g (.offer m, .offered (g.offer m now).1) (g.offer m now).2 := by
  rcases offer_cases g now m with ⟨-, h⟩ | ⟨-, -, h⟩ | ⟨hc, hroom, h⟩ | ⟨trigger, hc, hroom, h⟩
  · rw [h]
    exact .nothing rfl rfl rfl
  · rw [h]
    exact .nothing rfl rfl rfl
  · rw [h]
    exact .takes m hc hroom rfl rfl rfl
  · rw [h]
    exact .fills m hc hroom rfl rfl rfl

theorem mark_does : Does g (.mark, .flag g.mark.1) g.mark.2 := by
  cases hc : g.completed with
  | true =>
    rw [mark_completed hc]
    exact .nothing rfl rfl rfl
  | false =>
    rw [mark_collecting hc]
    exact .seals hc rfl rfl rfl

theorem claim_does : Does g (.claim, .claimed (g.claim now).1) (g.claim now).2 := by
  cases hc : g.completed with
  | true =>
    rw [claim_completed hc]
    exact .nothing rfl rfl rfl
  | false =>
    rw [claim_collecting hc]
    exact .seals hc rfl rfl rfl

/-- What any call does. -/
theorem call_does (c : Call) : Does g (c, (g.call now c).1) (g.call now c).2 := by
  cases c with
  | add m => exact add_does g m
  | offer m => exact offer_does g now m
  | mark => exact mark_does g
  | claim => exact claim_does g now
  | clear => exact .clears rfl rfl
  | _ => exact .nothing rfl rfl rfl

end Calls

namespace Does
variable {g next : Group} {x : Call × Answer}

theorem blank (h : Does g x next) : next.blank = g.blank := by
  cases h <;> rfl

/-- Whoever does not claim a group leaves it collecting, if it was. -/
theorem completed_eq (h : Does g x next) (hx : isClaim x = false) :
    next.completed = g.completed := by
  cases h with
  | fills _ _ _ _ hclaim _ => exact absurd (hclaim.symm.trans hx) (by simp)
  | seals _ _ hclaim _ => exact absurd (hclaim.symm.trans hx) (by simp)
  | _ => rfl

/-- A group that is completed stays so. -/
theorem completed (h : Does g x next) (hc : g.completed = true) : next.completed = true := by
  cases h with
  | nothing => exact hc
  | takes => exact hc
  | fills => rfl
  | seals => rfl
  | clears => exact hc

/-- Nothing but clearing does anything to a completed group. -/
theorem eq_of_completed (h : Does g x next) (hc : g.completed = true) (hx : x.1.isClear = false) :
    next = g := by
  cases h with
  | nothing => rfl
  | takes m hopen => simp [hc] at hopen
  | fills m hopen => simp [hc] at hopen
  | seals hopen => simp [hc] at hopen
  | clears hclear => simp [hx] at hclear

end Does

/-! ### Calls in turn -/

/-- The calls made one after the other, each with its answer, and the group after them. -/
def calls (g : Group) : List (Call × Instant) → List (Call × Answer) × Group
  | [] => ([], g)
  | (c, now) :: rest =>
    let (answer, g) := g.call now c
    let (log, g) := calls g rest
    ((c, answer) :: log, g)

theorem calls_completed {g : Group} (hc : g.completed = true) (asked : List (Call × Instant)) :
    (g.calls asked).2.completed = true := by
  induction asked generalizing g with
  | nil => exact hc
  | cons x rest ih => exact ih ((call_does g x.2 x.1).completed hc)

theorem calls_eq_of_completed {g : Group} (hc : g.completed = true) {asked : List (Call × Instant)}
    (hasked : ∀ x ∈ asked, x.1.isClear = false) : (g.calls asked).2 = g := by
  induction asked with
  | nil => rfl
  | cons x rest ih =>
    have hsame : (g.call x.2 x.1).2 = g :=
      (call_does g x.2 x.1).eq_of_completed hc (hasked x List.mem_cons_self)
    show ((g.call x.2 x.1).2.calls rest).2 = g
    rw [hsame]
    exact ih fun y hy => hasked y (List.mem_cons_of_mem x hy)

/-- The calls since a group was last cleared. -/
def sinceClear (log : List (Call × Answer)) : List (Call × Answer) :=
  log.rtakeWhile fun x => !x.1.isClear

theorem sinceClear_concat (log : List (Call × Answer)) {x : Call × Answer}
    (hx : x.1.isClear = false) : sinceClear (log ++ [x]) = sinceClear log ++ [x] :=
  List.rtakeWhile_concat_pos _ _ _ (by rw [hx]; rfl)

theorem sinceClear_clear (log : List (Call × Answer)) {x : Call × Answer}
    (hx : x.1.isClear = true) : sinceClear (log ++ [x]) = [] :=
  List.rtakeWhile_concat_neg _ _ _ (by rw [hx]; decide)

/-- What the calls so far have made of a new group. -/
structure Recorded (fresh : Group) (log : List (Call × Answer)) (g : Group) : Prop where
  born : g.blank = fresh
  claims : log.countP isClaim = g.completed.toNat
  holds : g.messages = (sinceClear log).filterMap taken?
  within : ∀ max, g.policy.max = some max → g.messages.length ≤ max

namespace Recorded
variable {fresh g next : Group} {log : List (Call × Answer)} {x : Call × Answer}

theorem push_within (hroom : g.hasCapacity = true) (m : Message) :
    ∀ max, g.policy.max = some max → (g.push m).messages.length ≤ max := by
  intro max hmax
  rw [push_messages, List.length_append]
  exact hasCapacity_iff.1 hroom max hmax

/-- What one more call does is recorded. -/
theorem step (h : Recorded fresh log g) (hx : Does g x next) :
    Recorded fresh (log ++ [x]) next := by
  have hclaims : (log ++ [x]).countP isClaim = g.completed.toNat + if isClaim x then 1 else 0 := by
    rw [List.countP_append, h.claims, List.countP_singleton]
  have hholds : x.1.isClear = false →
      (sinceClear (log ++ [x])).filterMap taken? = g.messages ++ (taken? x).toList := by
    intro hclear
    rw [sinceClear_concat log hclear, List.filterMap_append, ← h.holds]
    cases ht : taken? x <;> simp [ht]
  cases hx with
  | nothing hclear hclaim htaken =>
    refine ⟨h.born, ?_, ?_, h.within⟩
    · simpa [hclaim] using hclaims
    · rw [hholds hclear, htaken, Option.toList_none, List.append_nil]
  | takes m hc hroom hclear hclaim htaken =>
    refine ⟨h.born, ?_, ?_, push_within hroom m⟩
    · simpa [hclaim, push] using hclaims
    · rw [hholds hclear, htaken]
      rfl
  | fills m hc hroom hclear hclaim htaken =>
    refine ⟨h.born, ?_, ?_, push_within hroom m⟩
    · simpa [hclaim, hc] using hclaims
    · rw [hholds hclear, htaken]
      rfl
  | seals hc hclear hclaim htaken =>
    refine ⟨h.born, ?_, ?_, h.within⟩
    · simpa [hclaim, hc] using hclaims
    · rw [hholds hclear, htaken, Option.toList_none, List.append_nil]
      rfl
  | clears hclear hclaim =>
    refine ⟨h.born, ?_, ?_, fun max _ => Nat.zero_le max⟩
    · simpa [hclaim, clear] using hclaims
    · rw [sinceClear_clear log hclear]
      rfl

theorem calls (h : Recorded fresh log g) (asked : List (Call × Instant)) :
    Recorded fresh (log ++ (g.calls asked).1) (g.calls asked).2 := by
  induction asked generalizing log g with
  | nil =>
    rw [show g.calls [] = ([], g) from rfl, List.append_nil]
    exact h
  | cons x rest ih =>
    have hrest := ih (h.step (call_does g x.2 x.1))
    rwa [List.append_assoc] at hrest

end Recorded

/-! ### Messages that are not taken -/

/-- A message that is not taken leaves the group as it is. -/
theorem eq_of_turnsAway {g : Group} {now : Instant} {c : Call}
    (h : turnsAway (c, (g.call now c).1) = true) : (g.call now c).2 = g := by
  cases c with
  | add m =>
    rcases add_cases g m with hadd | ⟨-, -, hadd⟩
    · exact congrArg Prod.snd hadd
    · simp [call, hadd, turnsAway] at h
  | offer m =>
    rcases offer_cases g now m with ⟨-, ho⟩ | ⟨-, -, ho⟩ | ⟨-, -, ho⟩ | ⟨trigger, -, -, ho⟩
    · exact congrArg Prod.snd ho
    · exact congrArg Prod.snd ho
    · simp [call, ho, turnsAway] at h
    · simp [call, ho, turnsAway] at h
  | _ => cases h

section Offers
variable {g : Group} (m : Message) (now : Instant)

theorem late_iff : (∃ m', (g.offer m now).1 = .late m') ↔ g.completed = true := by
  rcases offer_cases g now m with ⟨hc, h⟩ | ⟨hc, -, h⟩ | ⟨hc, -, h⟩ | ⟨trigger, hc, -, h⟩ <;>
    simp [hc, h]

theorem rejected_iff : (∃ m' fault, (g.offer m now).1 = .rejected m' fault) ↔
    g.completed = false ∧ g.hasCapacity = false := by
  rcases offer_cases g now m with ⟨hc, h⟩ | ⟨hc, hr, h⟩ | ⟨hc, hr, h⟩ | ⟨trigger, hc, hr, h⟩ <;>
    simp [*]

/-- A group that is never over its maximum is full when it holds as many messages as that. -/
theorem full_iff (hwithin : ∀ max, g.policy.max = some max → g.messages.length ≤ max) :
    g.hasCapacity = false ↔ g.policy.max = some g.messages.length := by
  rw [← Bool.not_eq_true, hasCapacity_iff]
  constructor
  · intro h
    obtain ⟨max, hmax, hle⟩ : ∃ max, g.policy.max = some max ∧ max ≤ g.messages.length := by
      simpa [Policy.Under] using h
    rw [hmax, Nat.le_antisymm (hwithin max hmax) hle]
  · exact fun hmax hunder => Nat.lt_irrefl _ (hunder _ hmax)

end Offers

/-- Whatever calls are made on a new group and with whatever times, it is claimed at most once: the
successful claims so far are one if it is completed and none otherwise. It never holds more than its
maximum, and what it holds is what the calls since the last clearing took, in their order. From then
on it stays completed once it is, and nothing but clearing changes it any more; a message that is
not taken changes nothing; and an offer is late to a completed group only, and rejected by one that
is not completed and holds its maximum. -/
theorem claimed_at_most_once (id : Nat) (key : String) (params : Params) (property : String)
    (outlet : Outlet) (created : Instant) (asked : List (Call × Instant)) :
    let fresh := create id key params property outlet created
    let log := (fresh.calls asked).1
    let g := (fresh.calls asked).2
    g.blank = fresh ∧
      log.countP isClaim = (if g.completed = true then 1 else 0) ∧
      (∀ max, fresh.policy.max = some max → g.messages.length ≤ max) ∧
      g.messages = (log.rtakeWhile fun x => !x.1.isClear).filterMap taken? ∧
      (g.completed = true → ∀ later, (g.calls later).2.completed = true ∧
        ((∀ x ∈ later, x.1.isClear = false) → (g.calls later).2 = g)) ∧
      (∀ call now, turnsAway (call, (g.call now call).1) = true → (g.call now call).2 = g) ∧
      ∀ m now,
        ((∃ m', (g.call now (.offer m)).1 = .offered (.late m')) ↔ g.completed = true) ∧
        ((∃ m' fault, (g.call now (.offer m)).1 = .offered (.rejected m' fault)) ↔
          g.completed = false ∧ fresh.policy.max = some g.messages.length) := by
  intro fresh log g
  have hborn : Recorded fresh [] fresh := ⟨rfl, rfl, rfl, fun max _ => Nat.zero_le max⟩
  obtain ⟨hblank, hclaims, hholds, hwithin⟩ : Recorded fresh log g := hborn.calls asked
  have hpolicy : g.policy = fresh.policy := (congrArg Group.policy hblank :)
  refine ⟨hblank, ?_, hpolicy ▸ hwithin, hholds, fun hc later => ?_,
    fun call now => eq_of_turnsAway, fun m now => ⟨?_, ?_⟩⟩
  · rw [hclaims]
    cases g.completed <;> rfl
  · exact ⟨calls_completed hc later, calls_eq_of_completed hc⟩
  · rw [← late_iff m now]
    simp [call]
  · rw [← hpolicy, ← full_iff hwithin, ← rejected_iff m now]
    simp [call]

end Aggregation.Group
