import Aggregation.Policy

/-! What the decision of a policy means.

A policy leaves messages incomplete as long as their count is short of every threshold and the
deadline has not come (`evaluate_eq_incomplete`). A message that completes messages which were short
of every threshold meets the one that it completes them by exactly, and stays under those that come
before it (`justifies_of_evaluate`). -/
namespace Aggregation.Policy

/-- Whether messages are short of the total that the first of them declares, of the minimum and of
the maximum. -/
def Short (p : Policy) (messages : List Message) : Prop :=
  reached (p.declared? messages) messages.length = false ∧
    reached p.min messages.length = false ∧ reached p.max messages.length = false

theorem reached_eq_false {threshold : Option Nat} {count : Nat} :
    reached threshold count = false ↔ ∀ n, threshold = some n → count < n := by
  cases threshold with
  | none => simp [reached]
  | some n =>
    simp only [reached, Option.some.injEq, forall_eq']
    rw [← Bool.not_eq_true, Nat.ble_eq, Nat.not_le]

theorem isExpired_eq_false {p : Policy} {now : Instant} :
    p.isExpired now = false ↔ ∀ due, p.expiry = some due → now < due := by
  unfold isExpired
  cases p.expiry with
  | none => simp
  | some due => simp

theorem evaluate_eq_incomplete {p : Policy} {messages : List Message} {now : Instant} :
    p.evaluate messages now = .incomplete ↔ p.Short messages ∧ p.isExpired now = false := by
  constructor
  · intro h
    simp only [evaluate] at h
    cases hdeclared : reached (p.declared? messages) messages.length with
    | true => simp [hdeclared] at h
    | false =>
      cases hmin : reached p.min messages.length with
      | true => simp [hdeclared, hmin] at h
      | false =>
        cases hmax : reached p.max messages.length with
        | true => simp [hdeclared, hmin, hmax] at h
        | false =>
          cases hexpired : p.isExpired now with
          | true => simp [hdeclared, hmin, hmax, hexpired] at h
          | false => exact ⟨⟨hdeclared, hmin, hmax⟩, rfl⟩
  · rintro ⟨⟨hdeclared, hmin, hmax⟩, hexpired⟩
    simp only [evaluate, hdeclared, hmin, hmax, hexpired, Bool.false_eq_true, if_false]

/-- A threshold is never zero, so no message at all is short of it. -/
theorem reached_threshold_zero (n : Int) : reached (threshold n) 0 = false := by
  refine reached_eq_false.2 fun m hm => ?_
  unfold threshold at hm
  split at hm
  · next hn =>
    obtain rfl := Option.some.inj hm
    omega
  · cases hm

theorem short_nil (property : String) (min max : Int) (expiry : Option Instant) :
    (ofCounts property min max expiry).Short [] :=
  ⟨rfl, reached_threshold_zero min, reached_threshold_zero max⟩

/-! ### What a trigger stands for -/

theorem reached_eq_true {threshold : Option Nat} {count : Nat} :
    reached threshold count = true ↔ ∃ n, threshold = some n ∧ n ≤ count := by
  cases threshold with
  | none => simp [reached]
  | some n => simp [reached]

theorem isExpired_eq_true {p : Policy} {now : Instant} :
    p.isExpired now = true ↔ ∃ due, p.expiry = some due ∧ due ≤ now := by
  unfold isExpired
  cases p.expiry with
  | none => simp
  | some due => simp

/-- A count is under a threshold, if that is set. -/
def Under (threshold : Option Nat) (count : Nat) : Prop :=
  ∀ n, threshold = some n → count < n

/-- What a trigger stands for: how many messages there are that it completed at a point of time, and
which other rules did not hold. -/
def Justifies (p : Policy) (messages : List Message) (now : Instant) : Trigger → Prop
  | .declaredTotal => ∃ total, p.declared? messages = some total ∧ messages.length = Max.max 1 total
  | .minCount =>
    p.min = some messages.length ∧ Under (p.declared? messages) messages.length
  | .maxCount =>
    p.max = some messages.length ∧ Under p.min messages.length ∧
      Under (p.declared? messages) messages.length
  | .timeout =>
    (∃ due, p.expiry = some due ∧ due ≤ now) ∧ Under (p.declared? messages) messages.length ∧
      Under p.min messages.length ∧ Under p.max messages.length
  | .forced =>
    (∀ due, p.expiry = some due → now < due) ∧ Under (p.declared? messages) messages.length ∧
      Under p.min messages.length ∧ Under p.max messages.length

theorem Short.under {p : Policy} {messages : List Message} (h : p.Short messages) :
    Under (p.declared? messages) messages.length ∧ Under p.min messages.length ∧
      Under p.max messages.length :=
  ⟨reached_eq_false.1 h.1, reached_eq_false.1 h.2.1, reached_eq_false.1 h.2.2⟩

/-- The total is declared by the first message alone. -/
theorem declared?_concat (p : Policy) {messages : List Message} (h : messages ≠ []) (m : Message) :
    p.declared? (messages ++ [m]) = p.declared? messages := by
  cases messages with
  | nil => exact absurd rfl h
  | cons first rest => rfl

/-- A threshold that one message more reaches is met exactly. -/
theorem eq_of_reached {threshold : Option Nat} {count : Nat} (hbefore : Under threshold count)
    (h : reached threshold (count + 1) = true) : threshold = some (count + 1) := by
  obtain ⟨n, hn, hle⟩ := reached_eq_true.1 h
  have hlt := hbefore n hn
  rw [hn]
  congr 1
  omega

/-- Which rule decided, and that none before it holds. -/
theorem evaluate_cases {p : Policy} {messages : List Message} {now : Instant} {trigger : Trigger}
    (h : p.evaluate messages now = .complete trigger) :
    (trigger = .declaredTotal ∧ reached (p.declared? messages) messages.length = true) ∨
      (trigger = .minCount ∧ reached (p.declared? messages) messages.length = false ∧
        reached p.min messages.length = true) ∨
      (trigger = .maxCount ∧ reached (p.declared? messages) messages.length = false ∧
        reached p.min messages.length = false ∧ reached p.max messages.length = true) ∨
      (trigger = .timeout ∧ p.Short messages ∧ p.isExpired now = true) := by
  simp only [evaluate] at h
  split at h
  · next hdeclared => exact .inl ⟨(Completion.complete.inj h).symm, hdeclared⟩
  next hdeclared =>
  rw [Bool.not_eq_true] at hdeclared
  split at h
  · next hmin => exact .inr (.inl ⟨(Completion.complete.inj h).symm, hdeclared, hmin⟩)
  next hmin =>
  rw [Bool.not_eq_true] at hmin
  split at h
  · next hmax =>
    exact .inr (.inr (.inl ⟨(Completion.complete.inj h).symm, hdeclared, hmin, hmax⟩))
  next hmax =>
  rw [Bool.not_eq_true] at hmax
  split at h
  · next hexpired =>
    exact .inr (.inr (.inr ⟨(Completion.complete.inj h).symm, ⟨hdeclared, hmin, hmax⟩, hexpired⟩))
  · cases h

theorem evaluate_eq_timeout {p : Policy} {messages : List Message} {now : Instant} :
    p.evaluate messages now = .complete .timeout ↔ p.Short messages ∧ p.isExpired now = true := by
  constructor
  · intro h
    rcases evaluate_cases h with ⟨hother, -⟩ | ⟨hother, -⟩ | ⟨hother, -⟩ | ⟨-, hovertime⟩
    · cases hother
    · cases hother
    · cases hother
    · exact hovertime
  · rintro ⟨⟨hdeclared, hmin, hmax⟩, hexpired⟩
    simp only [evaluate, hdeclared, hmin, hmax, hexpired, Bool.false_eq_true, if_false, if_true]

theorem justifies_of_evaluate {p : Policy} {messages : List Message} {m : Message} {now : Instant}
    {trigger : Trigger} (hshort : p.Short messages)
    (h : p.evaluate (messages ++ [m]) now = .complete trigger) :
    p.Justifies (messages ++ [m]) now trigger := by
  obtain ⟨hdeclared, hmin, hmax⟩ := hshort.under
  have hlength : (messages ++ [m]).length = messages.length + 1 := List.length_append
  rcases evaluate_cases h with ⟨rfl, htotal⟩ | ⟨rfl, htotal, hreached⟩ |
    ⟨rfl, htotal, hlow, hreached⟩ | ⟨rfl, hunder, hexpired⟩
  · obtain ⟨total, hdeclares, hle⟩ := reached_eq_true.1 htotal
    refine ⟨total, hdeclares, ?_⟩
    -- The first message of all declares the total itself; a later one was under it before.
    by_cases hempty : messages = []
    · simp only [hempty, List.nil_append, List.length_singleton] at hle ⊢
      omega
    · rw [declared?_concat p hempty] at hdeclares
      have hlt := hdeclared total hdeclares
      omega
  · rw [hlength] at hreached
    exact ⟨hlength ▸ eq_of_reached hmin hreached, reached_eq_false.1 htotal⟩
  · rw [hlength] at hreached
    exact ⟨hlength ▸ eq_of_reached hmax hreached, reached_eq_false.1 hlow,
      reached_eq_false.1 htotal⟩
  · exact ⟨isExpired_eq_true.1 hexpired, hunder.under⟩

end Aggregation.Policy
