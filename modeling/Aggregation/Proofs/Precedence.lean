import Aggregation.Proofs.Policy

/-! Which rule decides.

Each rule either holds of messages at a point of time or does not, and none of them looks at the
others. Messages are complete if some rule holds of them, by the one that comes first in order of
precedence (`complete_iff`). A rule that holds goes on to hold as messages arrive and time passes
(`Met.mono`), so a decision is never taken back: it can only pass to a rule that comes before
(`completion_monotone`). -/
namespace Aggregation

/-- The order in which rules are checked. -/
def Trigger.rank : Trigger → Nat
  | .declaredTotal => 0
  | .minCount => 1
  | .maxCount => 2
  | .timeout => 3
  | .forced => 4

theorem Trigger.rank_injective : Function.Injective Trigger.rank := by
  intro s t
  cases s <;> cases t <;> decide

namespace Policy

/-! ### Rules -/

/-- Whether a rule holds of messages at a point of time. A group is completed by force on request
only. -/
def Met (p : Policy) (messages : List Message) (now : Instant) : Trigger → Prop
  | .declaredTotal => ∃ total, p.declared? messages = some total ∧ total ≤ messages.length
  | .minCount => ∃ min, p.min = some min ∧ min ≤ messages.length
  | .maxCount => ∃ max, p.max = some max ∧ max ≤ messages.length
  | .timeout => ∃ due, p.expiry = some due ∧ due ≤ now
  | .forced => False

section Rules
variable {p : Policy} {messages : List Message} {now : Instant} {trigger : Trigger}

theorem not_exists_of_reached {threshold : Option Nat} {count : Nat}
    (h : reached threshold count = false) : ¬ ∃ n, threshold = some n ∧ n ≤ count := by
  rw [← reached_eq_true, h]
  exact Bool.false_ne_true

/-- Messages are incomplete as long as no rule holds of them. -/
theorem incomplete_iff :
    p.evaluate messages now = .incomplete ↔ ∀ rule, ¬ p.Met messages now rule := by
  rw [evaluate_eq_incomplete, Short, ← Bool.not_eq_true, ← Bool.not_eq_true, ← Bool.not_eq_true,
    ← Bool.not_eq_true, reached_eq_true, reached_eq_true, reached_eq_true, isExpired_eq_true]
  constructor
  · rintro ⟨⟨htotal, hmin, hmax⟩, hexpired⟩ rule
    cases rule with
    | declaredTotal => exact htotal
    | minCount => exact hmin
    | maxCount => exact hmax
    | timeout => exact hexpired
    | forced => exact id
  · intro h
    exact ⟨⟨h .declaredTotal, h .minCount, h .maxCount⟩, h .timeout⟩

/-- The rule that completes messages holds, and none holds that is checked before it. -/
theorem met_of_evaluate (h : p.evaluate messages now = .complete trigger) :
    p.Met messages now trigger ∧
      ∀ rule, p.Met messages now rule → trigger.rank ≤ rule.rank := by
  rcases evaluate_cases h with ⟨rfl, htotal⟩ | ⟨rfl, htotal, hmin⟩ | ⟨rfl, htotal, hmin, hmax⟩ |
    ⟨rfl, ⟨htotal, hmin, hmax⟩, hexpired⟩
  · exact ⟨reached_eq_true.1 htotal, fun rule _ => Nat.zero_le _⟩
  · refine ⟨reached_eq_true.1 hmin, fun rule hrule => ?_⟩
    cases rule with
    | declaredTotal => exact absurd hrule (not_exists_of_reached htotal)
    | _ => decide
  · refine ⟨reached_eq_true.1 hmax, fun rule hrule => ?_⟩
    cases rule with
    | declaredTotal => exact absurd hrule (not_exists_of_reached htotal)
    | minCount => exact absurd hrule (not_exists_of_reached hmin)
    | _ => decide
  · refine ⟨isExpired_eq_true.1 hexpired, fun rule hrule => ?_⟩
    cases rule with
    | declaredTotal => exact absurd hrule (not_exists_of_reached htotal)
    | minCount => exact absurd hrule (not_exists_of_reached hmin)
    | maxCount => exact absurd hrule (not_exists_of_reached hmax)
    | _ => decide

/-- Messages are complete by the first rule that holds of them. -/
theorem complete_iff :
    p.evaluate messages now = .complete trigger ↔
      p.Met messages now trigger ∧
        ∀ rule, p.Met messages now rule → trigger.rank ≤ rule.rank := by
  refine ⟨met_of_evaluate, fun ⟨hmet, hfirst⟩ => ?_⟩
  cases he : p.evaluate messages now with
  | incomplete => exact absurd hmet (incomplete_iff.1 he trigger)
  | complete other =>
    obtain ⟨hother, hleast⟩ := met_of_evaluate he
    have hrank := Nat.le_antisymm (hleast trigger hmet) (hfirst other hother)
    rw [Trigger.rank_injective hrank]

/-- Before the deadline, the rules that hold are about counts. -/
theorem Met.isCount (h : p.Met messages now trigger)
    (hearly : ∀ due, p.expiry = some due → now < due) :
    trigger = .declaredTotal ∨ trigger = .minCount ∨ trigger = .maxCount := by
  cases trigger with
  | declaredTotal => exact .inl rfl
  | minCount => exact .inr (.inl rfl)
  | maxCount => exact .inr (.inr rfl)
  | timeout =>
    obtain ⟨due, hdue, hpassed⟩ := h
    exact absurd hpassed (Int.not_le.2 (hearly due hdue))
  | forced => exact h.elim

/-! ### More messages, later -/

/-- The total stays the one that the first message declares. -/
theorem declared?_append {total : Nat} (h : p.declared? messages = some total)
    (more : List Message) : p.declared? (messages ++ more) = some total := by
  cases messages with
  | nil => cases h
  | cons first rest => exact h

/-- A rule that holds goes on to hold. -/
theorem Met.mono {later : Instant} (h : p.Met messages now trigger) (hle : now ≤ later)
    (more : List Message) : p.Met (messages ++ more) later trigger := by
  have hlength : messages.length ≤ (messages ++ more).length := by
    rw [List.length_append]
    exact Nat.le_add_right ..
  cases trigger with
  | declaredTotal =>
    obtain ⟨total, htotal, hreached⟩ := h
    exact ⟨total, declared?_append htotal more, Nat.le_trans hreached hlength⟩
  | minCount =>
    obtain ⟨min, hmin, hreached⟩ := h
    exact ⟨min, hmin, Nat.le_trans hreached hlength⟩
  | maxCount =>
    obtain ⟨max, hmax, hreached⟩ := h
    exact ⟨max, hmax, Nat.le_trans hreached hlength⟩
  | timeout =>
    obtain ⟨due, hdue, hpassed⟩ := h
    exact ⟨due, hdue, Int.le_trans hpassed hle⟩
  | forced => exact h

/-- A decision stays, or passes to a rule that comes before. -/
theorem evaluate_mono {later : Instant} (h : p.evaluate messages now = .complete trigger)
    (hle : now ≤ later) (more : List Message) :
    ∃ next, p.evaluate (messages ++ more) later = .complete next ∧ next.rank ≤ trigger.rank := by
  have hmet := (complete_iff.1 h).1.mono hle more
  cases he : p.evaluate (messages ++ more) later with
  | incomplete => exact absurd hmet (incomplete_iff.1 he trigger)
  | complete next => exact ⟨next, rfl, (complete_iff.1 he).2 trigger hmet⟩

end Rules

/-! ### What a decision is about -/

/-- No message at all meets a threshold, unless that is zero. -/
theorem evaluate_nil (p : Policy) (now : Instant) :
    p.evaluate [] now = .incomplete ∨ p.evaluate [] now = .complete .timeout ∨
      p.min = some 0 ∨ p.max = some 0 := by
  cases he : p.evaluate [] now with
  | incomplete => exact .inl rfl
  | complete trigger =>
    have hmet := (complete_iff.1 he).1
    cases trigger with
    | declaredTotal =>
      obtain ⟨total, hdeclared, -⟩ := hmet
      cases hdeclared
    | minCount =>
      obtain ⟨min, hmin, hzero⟩ := hmet
      exact .inr (.inr (.inl (Nat.le_zero.1 hzero ▸ hmin)))
    | maxCount =>
      obtain ⟨max, hmax, hzero⟩ := hmet
      exact .inr (.inr (.inr (Nat.le_zero.1 hzero ▸ hmax)))
    | timeout => exact .inr (.inl rfl)
    | forced => exact hmet.elim

theorem threshold_ne_zero (n : Int) : threshold n ≠ some 0 := by
  intro h
  have hreached : reached (threshold n) 0 = true := by
    rw [h]
    rfl
  rw [reached_threshold_zero] at hreached
  cases hreached

/-- Of messages only the first one and their number matter. -/
theorem evaluate_congr (p : Policy) (now : Instant) {messages others : List Message}
    (hfirst : messages.head? = others.head?) (hlength : messages.length = others.length) :
    p.evaluate messages now = p.evaluate others now := by
  have hdeclared : p.declared? messages = p.declared? others := by
    cases messages with
    | nil =>
      cases others with
      | nil => rfl
      | cons first rest => cases hlength
    | cons first rest =>
      cases others with
      | nil => cases hlength
      | cons other rest' =>
        obtain rfl : first = other := Option.some.inj hfirst
        rfl
  simp only [evaluate, hdeclared, hlength]

/-- Once messages are complete, they are with more messages and at any later time, by the same rule
or by one that comes before it. Nothing completes messages by force. Without any message there is
nothing but the deadline to complete a group, whatever counts were asked for; only a threshold of
zero, which no count gives, would do so too. And what the messages after the first one carry does
not matter. -/
theorem completion_monotone :
    (∀ (p : Policy) (messages more : List Message) (now later : Instant) (trigger : Trigger),
      now ≤ later → p.evaluate messages now = .complete trigger →
        ∃ next, p.evaluate (messages ++ more) later = .complete next ∧
          (next = trigger ∨ next.rank < trigger.rank)) ∧
    (∀ (p : Policy) (messages : List Message) (now : Instant),
      p.evaluate messages now ≠ .complete .forced) ∧
    (∀ (p : Policy) (now : Instant),
      p.evaluate [] now = .incomplete ∨ p.evaluate [] now = .complete .timeout ∨
        p.min = some 0 ∨ p.max = some 0) ∧
    (∀ (property : String) (min max : Int) (expiry : Option Instant) (now : Instant),
      (ofCounts property min max expiry).evaluate [] now = .incomplete ∨
        (ofCounts property min max expiry).evaluate [] now = .complete .timeout) ∧
    ∀ (p : Policy) (first : Message) (rest others : List Message) (now : Instant),
      rest.length = others.length →
        p.evaluate (first :: rest) now = p.evaluate (first :: others) now := by
  refine ⟨fun p messages more now later trigger hle h => ?_, fun p messages now h => ?_,
    evaluate_nil, fun property min max expiry now => ?_, fun p first rest others now hlength => ?_⟩
  · obtain ⟨next, hnext, hrank⟩ := evaluate_mono h hle more
    refine ⟨next, hnext, ?_⟩
    rcases Nat.eq_or_lt_of_le hrank with hsame | hless
    · exact .inl (Trigger.rank_injective hsame)
    · exact .inr hless
  · exact (complete_iff.1 h).1
  · rcases evaluate_nil (ofCounts property min max expiry) now with h | h | hmin | hmax
    · exact .inl h
    · exact .inr h
    · exact absurd hmin (threshold_ne_zero min)
    · exact absurd hmax (threshold_ne_zero max)
  · exact evaluate_congr p now rfl (congrArg Nat.succ hlength)

/-- Messages that have timed out reach the minimum with one more, and the minimum comes before the
deadline. -/
theorem completion_monotone_overtaken :
    let m := Message.ofAction "m" "op" (Timestamp.ofMillis 0)
    let p := ofCounts "MESSAGE_SEQUENCE" 2 0 (some 10)
    10 ≤ 11 ∧ p.evaluate [m] 10 = .complete .timeout ∧
      ∃ next, p.evaluate ([m] ++ [m]) 11 = .complete next ∧ next.rank < Trigger.timeout.rank := by
  intro m p
  have hdue : p.evaluate [m] 10 = .complete .timeout := by decide
  have hlater : p.evaluate ([m] ++ [m]) 11 ≠ .complete .timeout := by decide
  obtain ⟨next, hnext, rfl | hless⟩ :=
    completion_monotone.1 p [m] [m] 10 11 .timeout (by decide) hdue
  · exact absurd hnext hlater
  · exact ⟨by decide, hdue, next, hnext, hless⟩

/-- A threshold of zero, which somebody would have to put there, is met without any message. -/
theorem evaluate_nil_of_zero :
    (⟨"MESSAGE_SEQUENCE", some 0, none, none⟩ : Policy).evaluate [] 0 = .complete .minCount := by
  decide

end Policy

end Aggregation
