import Aggregation.Proofs.Coordinator.Independence
import Aggregation.Proofs.FanOut
import Mathlib.Algebra.GroupWithZero.Nat

/-! A fan-out is put together again.

The siblings of a message tell whose they are and how many, so each is admitted to the group of
their parent's id. As long as fewer are there than declared, no threshold and no deadline completes
that group, and what is seen of the key is a group that holds exactly the siblings admitted so far
(`Strand.submit_gathered_pending`); the last one completes it for its declared total
(`Strand.submit_gathered_last`). Moves on other keys leave all of this alone
(`strand_meanwhile`), so the siblings come together in any order and among any other traffic
(`fan_out_reassembled`). -/
namespace Aggregation

/-! ### Siblings in a group -/

/-- Every message says that there are so many. -/
def Declare (property : String) (n : Nat) (messages : List Message) : Prop :=
  ∀ m ∈ messages, ∃ index, m.position property = .ok (some ⟨index, n⟩)

/-- Thresholds that are unset, or not below a count. -/
structure Params.Allow (params : Params) (n : Nat) : Prop where
  min : params.min ≤ 0 ∨ (n : Int) ≤ params.min
  max : params.max ≤ 0 ∨ (n : Int) ≤ params.max

theorem Policy.le_of_threshold {k : Int} {n : Nat} (h : k ≤ 0 ∨ (n : Int) ≤ k) :
    ∀ j, threshold k = some j → n ≤ j := by
  intro j hj
  unfold threshold at hj
  split at hj
  · obtain rfl := Option.some.inj hj
    omega
  · cases hj

theorem Policy.declared?_of_declare {p : Policy} {n : Nat} {messages : List Message}
    (hne : messages ≠ []) (h : Declare p.property n messages) : p.declared? messages = some n := by
  cases messages with
  | nil => exact absurd rfl hne
  | cons first rest =>
    obtain ⟨index, hposition⟩ := h first (List.mem_cons_self ..)
    simp only [declared?, hposition]

/-- The group under a key that has collected some messages. -/
def Strand.gathered (settings : Settings) (key : String) (params : Params) (born : Instant)
    (messages : List Message) : Group :=
  {Group.create 0 key params (sequenceProperty settings.aggregator)
    ⟨settings.sink, true, settings.hasFaultSink⟩ born with messages}

section Gathered
variable {settings : Settings} {key : String} {params : Params} {born now : Instant} {n : Nat}
  {messages : List Message} {m : Message}

theorem gathered_hasCapacity (hallow : params.Allow n) (h : messages.length < n) :
    (Strand.gathered settings key params born messages).hasCapacity = true := by
  unfold Group.hasCapacity
  split
  · next max hmax =>
    have hle := Policy.le_of_threshold hallow.max max hmax
    rw [Nat.blt_eq]
    exact Nat.lt_of_lt_of_le h hle
  · rfl

/-- A deadline that is ahead has not come. -/
theorem gathered_isExpired (h : params.timeout = 0 ∨ now < born + params.timeout) :
    (Strand.gathered settings key params born messages).policy.isExpired now = false := by
  refine Policy.isExpired_eq_false.2 fun due hdue => ?_
  have hexpiry : (if params.timeout = 0 then none else some params.timeout).map
      (fun (t : Nat) => born + t) = some due := hdue
  by_cases hzero : params.timeout = 0
  · simp [hzero] at hexpiry
  · simp only [hzero, if_false, Option.map_some, Option.some.injEq] at hexpiry
    rw [← hexpiry]
    exact h.resolve_left hzero

variable (hallow : params.Allow n)
  (hdeclare : Declare (sequenceProperty settings.aggregator) n (messages ++ [m]))
include hallow hdeclare

/-- Fewer siblings than declared leave their group incomplete. -/
theorem gathered_incomplete (h : messages.length + 1 < n)
    (hdue : params.timeout = 0 ∨ now < born + params.timeout) :
    (Strand.gathered settings key params born messages).policy.evaluate (messages ++ [m]) now =
      .incomplete := by
  have hlength : (messages ++ [m]).length < n := by rwa [List.length_append]
  refine Policy.evaluate_eq_incomplete.2 ⟨⟨?_, ?_, ?_⟩, gathered_isExpired hdue⟩
  · refine Policy.reached_eq_false.2 fun total htotal => ?_
    rw [Policy.declared?_of_declare (List.append_ne_nil_of_right_ne_nil _ (List.cons_ne_nil _ _))
      hdeclare] at htotal
    exact Option.some.inj htotal ▸ hlength
  · exact Policy.reached_eq_false.2 fun k hk =>
      Nat.lt_of_lt_of_le hlength (Policy.le_of_threshold hallow.min k hk)
  · exact Policy.reached_eq_false.2 fun k hk =>
      Nat.lt_of_lt_of_le hlength (Policy.le_of_threshold hallow.max k hk)

omit hallow in
/-- The declared total comes before all other rules. -/
theorem gathered_complete (h : messages.length + 1 = n) :
    (Strand.gathered settings key params born messages).policy.evaluate (messages ++ [m]) now =
      .complete .declaredTotal := by
  have hlength : (messages ++ [m]).length = n := by rwa [List.length_append]
  have hdeclared : (Strand.gathered settings key params born messages).policy.declared?
      (messages ++ [m]) = some n :=
    Policy.declared?_of_declare (List.append_ne_nil_of_right_ne_nil _ (List.cons_ne_nil _ _))
      hdeclare
  have hreached : Policy.reached (some n) n = true :=
    Policy.reached_eq_true.2 ⟨n, rfl, Nat.le_refl n⟩
  simp only [Policy.evaluate, hdeclared, hlength, hreached, if_true]

/-! ### What admitting a sibling shows -/

namespace Strand
variable {s : Strand} {verdict : Verdict} {reply : Answer → List Sight}
  (hopened : s.opened settings key params = gathered settings key params born messages)
include hopened

/-- A sibling that is not the last is kept. -/
theorem submit_gathered_pending (h : messages.length + 1 < n)
    (hdue : params.timeout = 0 ∨ s.now < born + params.timeout) :
    s.submit verdict settings key m params reply =
      (s.hold (gathered settings key params born (messages ++ [m]))).emit
        (reply (.outcome .pending)) := by
  have hr : (gathered settings key params born messages).hasCapacity = true :=
    gathered_hasCapacity hallow (by omega)
  simp only [submit, hopened,
    Group.offer_pending rfl hr (gathered_incomplete hallow hdeclare h hdue)]
  rfl

/-- The last sibling completes the group. -/
theorem submit_gathered_last (h : messages.length + 1 = n) :
    s.submit verdict settings key m params reply =
      (s.finish verdict (gathered settings key params born (messages ++ [m]))
        .declaredTotal).emit (reply (.outcome (.completed .declaredTotal))) := by
  have hr : (gathered settings key params born messages).hasCapacity = true :=
    gathered_hasCapacity hallow (by omega)
  simp only [submit, hopened, Group.offer_claimed rfl hr (gathered_complete hdeclare h)]
  rfl

end Strand

end Gathered

/-! ### Moves on other keys -/

namespace Move

/-- How much time passes in a move. -/
def elapsed : Move → Nat
  | .advance ms => ms
  | _ => 0

/-- Whether a move is one of other callers, on another key than the one given; `mine` tells the
calls that are on that key. -/
def Elsewhere (c : Coordinator) (key : String) (mine : Nat → Bool) : Move → Prop
  | .submit (.outside n) other _ _ => other ≠ key ∧ mine n = false
  | .submitCorrelated (.outside n) m _ =>
    m.correlationKey? c.settings.aggregator ≠ some key ∧ mine n = false
  | .openGroup other _ => other ≠ key
  | .force (.outside n) other => other ≠ key ∧ mine n = false
  | .add id _ => ∀ g, c.roster.group? id = some g → g.key ≠ key
  | .advance _ | .stop => True
  | .submit (.fromSink _) .. | .submitCorrelated (.fromSink _) .. | .force (.fromSink _) _
  | .drain .. | .expire _ | .conclude .. => False

end Move

/-- All that changes for a strand is the time, and whether the scheduler is stopped. -/
structure Strand.Later (s t : Strand) (ms : Nat) : Prop where
  now : t.now = s.now + ms
  group : t.group = s.group
  seen : t.seen = s.seen

namespace Strand.Later
variable {s t u : Strand}

theorem refl (s : Strand) : Later s s 0 :=
  ⟨(Int.add_zero _).symm, rfl, rfl⟩

theorem trans {m n : Nat} (h : Later s t m) (h' : Later t u n) : Later s u (m + n) := by
  refine ⟨?_, h'.group.trans h.group, h'.seen.trans h.seen⟩
  rw [h'.now, h.now, Int.natCast_add, Int.add_assoc]

end Strand.Later

namespace Coordinator

/-- Moves elsewhere, made one after the other and carried through. -/
def Meanwhile (key : String) (mine : Nat → Bool) : Coordinator → List (Move × Verdict) → Prop
  | _, [] => True
  | c, x :: rest => x.1.Elsewhere c key mine ∧ Meanwhile key mine (c.carry x) rest

section Meanwhile
variable {verdict : Verdict} {settings : Settings} {c : Coordinator} {key : String}
  {mine : Nat → Bool}

theorem strand_advance_live (h : Ready settings c) (ms : Nat)
    (hlive : ∀ g, (c.strand key mine).group = some g → g.policy.isExpired (c.now + ms) = false) :
    (c.strand key mine).Later ((c.carry (.advance ms, verdict)).strand key mine) ms := by
  have hstrand : (c.carry (.advance ms, verdict)).strand key mine =
      {c.strand key mine with now := c.now + ms}.expire verdict := strand_advance (n := 0) h ms
  rw [hstrand, Strand.expire]
  cases hg : (c.strand key mine).group with
  | none => exact ⟨rfl, rfl, rfl⟩
  | some g =>
    simp only [hlive g hg, Bool.and_false, Bool.false_eq_true, if_false]
    exact ⟨rfl, rfl, rfl⟩

/-- A message that is correlated with another key, or with none, is not seen. -/
theorem strand_submitCorrelated_elsewhere (h : Ready settings c) {call : Nat}
    (hmine : mine call = false) {m : Message} (params : Params)
    (hkey : m.correlationKey? c.settings.aggregator ≠ some key) :
    (c.carry (.submitCorrelated (.outside call) m params, verdict)).strand key mine =
      c.strand key mine := by
  show ((c.submitCorrelated (.outside call) m params).settle verdict).strand key mine = _
  simp only [submitCorrelated, placeCorrelated]
  cases hother : m.correlationKey? c.settings.aggregator with
  | none =>
    show (((c.record (.uncorrelated m)).record _).settle verdict).strand key mine = _
    rw [settle_record (c := c.record (.uncorrelated m)) verdict h.inFlight h.expired,
      strand_answered, Sight.reply, hmine, strand_unseen rfl]
    exact Strand.emit_nil _
  | some other =>
    have hne : other ≠ key := fun e => hkey (hother.trans (congrArg some e))
    have hstrand :
        (c.carry (.submit (.outside call) other m params, verdict)).strand key mine = _ :=
      strand_submit h (fun _ => hmine) m params
    exact hstrand.trans (if_neg hne)

/-- A message that is added to a group of another key is not seen. -/
theorem strand_add_elsewhere (h : Ready settings c) {id : Nat} (m : Message)
    (hkey : ∀ g, c.roster.group? id = some g → g.key ≠ key) :
    (c.carry (.add id m, verdict)).strand key mine = c.strand key mine := by
  rcases add_cases h.sound id m with ⟨g, hg, hid, -, -, happly⟩ | ⟨-, happly⟩
  · rw [carry, happly, settle_done (c := c.setGroup (g.push m)) verdict h.inFlight h.expired]
    have hfound := h.sound.tidy.group?_of_mem (h.sound.of_group? hg).1
    have hne : g.key ≠ key := hkey g (hid ▸ hfound)
    exact (strand_setGroup h.sound (x := g.push m) hg rfl).trans (if_neg hne)
  · rw [carry, happly, settle_done verdict h.inFlight h.expired]

/-- A move on another key lets time pass at most. -/
theorem strand_elsewhere (h : Ready settings c) {move : Move}
    (hmove : move.Elsewhere c key mine)
    (hlive : ∀ g, (c.strand key mine).group = some g →
      g.policy.isExpired (c.now + move.elapsed) = false) :
    (c.strand key mine).Later ((c.carry (move, verdict)).strand key mine) move.elapsed := by
  have hsame : (c.carry (move, verdict)).strand key mine = c.strand key mine →
      (c.strand key mine).Later ((c.carry (move, verdict)).strand key mine) 0 := fun he =>
    he.symm ▸ .refl _
  cases move with
  | submit call other m params =>
    cases call with
    | fromSink _ => cases hmove
    | outside n =>
      have hstrand : (c.carry (.submit (.outside n) other m params, verdict)).strand key mine = _ :=
        strand_submit h (fun _ => hmove.2) m params
      exact hsame (hstrand.trans (if_neg hmove.1))
  | submitCorrelated call m params =>
    cases call with
    | fromSink _ => cases hmove
    | outside n => exact hsame (strand_submitCorrelated_elsewhere h hmove.2 params hmove.1)
  | openGroup other params =>
    have hstrand : (c.carry (.openGroup other params, verdict)).strand key mine = _ :=
      strand_openGroup (n := 0) h other params
    exact hsame (hstrand.trans (if_neg hmove))
  | force call other =>
    cases call with
    | fromSink _ => cases hmove
    | outside n =>
      have hstrand : (c.carry (.force (.outside n) other, verdict)).strand key mine = _ :=
        strand_force h (fun _ => hmove.2)
      exact hsame (hstrand.trans (if_neg hmove.1))
  | advance ms => exact strand_advance_live h ms hlive
  | stop =>
    show (c.strand key mine).Later ((c.stop.settle verdict).strand key mine) 0
    rw [settle_done (c := c.stop) verdict h.inFlight h.expired]
    exact ⟨(Int.add_zero _).symm, rfl, rfl⟩
  | add id m => exact hsame (strand_add_elsewhere h m hmove)
  | drain call order => cases hmove
  | expire d => cases hmove
  | conclude id refusal => cases hmove

/-- Moves elsewhere let time pass at most. -/
theorem strand_meanwhile (h : Ready settings c) {moves : List (Move × Verdict)}
    (hmoves : Meanwhile key mine c moves)
    (hlive : ∀ g, (c.strand key mine).group = some g →
      g.policy.isExpired (c.now + ((moves.map fun x => x.1.elapsed).sum : Nat)) = false) :
    (c.strand key mine).Later ((c.carried moves).strand key mine)
      (moves.map fun x => x.1.elapsed).sum := by
  induction moves generalizing c with
  | nil => exact .refl _
  | cons x rest ih =>
    obtain ⟨move, verdict⟩ := x
    obtain ⟨hmove, hrest⟩ := hmoves
    have hlater : (c.strand key mine).Later ((c.carry (move, verdict)).strand key mine)
        move.elapsed := by
      refine strand_elsewhere h hmove fun g hg => ?_
      refine Policy.isExpired_eq_false.2 fun due hdue => ?_
      have hlt := Policy.isExpired_eq_false.1 (hlive g hg) due hdue
      have hle : move.elapsed ≤ (((move, verdict) :: rest).map fun x => x.1.elapsed).sum :=
        Nat.le_add_right ..
      exact Int.lt_of_le_of_lt (Int.add_le_add_left (Int.ofNat_le.2 hle) _) hlt
    rw [List.map_cons, List.sum_cons]
    refine hlater.trans (ih (h.carry (move, verdict)) hrest fun g hg => ?_)
    rw [hlater.group] at hg
    have hnow : (c.carry (move, verdict)).now = c.now + move.elapsed := hlater.now
    rw [hnow, Int.add_assoc, ← Int.natCast_add]
    exact hlive g hg

end Meanwhile

end Coordinator

/-! ### Admitting siblings among other traffic -/

/-- A sibling that is admitted, and what is done elsewhere before the next one is. -/
structure Turn where
  call : Nat
  sibling : Message
  /-- What the sink says if the sibling is the last. -/
  verdict : Verdict
  meanwhile : List (Move × Verdict)

namespace Turn

def admission (params : Params) (t : Turn) : Move × Verdict :=
  (.submitCorrelated (.outside t.call) t.sibling params, t.verdict)

def moves (params : Params) (t : Turn) : List (Move × Verdict) :=
  t.admission params :: t.meanwhile

/-- How much time passes before the next turn. -/
def elapsed (t : Turn) : Nat :=
  (t.meanwhile.map fun x => x.1.elapsed).sum

/-- The answer to a sibling that is not the last. -/
def pending (t : Turn) : Sight :=
  .answer t.call (.outcome .pending)

end Turn

namespace Coordinator

/-- What is done between the siblings is done elsewhere. -/
def Apart (params : Params) (key : String) (mine : Nat → Bool) : Coordinator → List Turn → Prop
  | _, [] => True
  | c, t :: rest =>
    Meanwhile key mine (c.carry (t.admission params)) t.meanwhile ∧
      Apart params key mine (c.carried (t.moves params)) rest

section Gather
variable {settings : Settings} {c : Coordinator} {key : String}
  {mine : Nat → Bool} {params : Params}

/-- A sibling is admitted to the group of its key. -/
theorem strand_admission (h : Ready settings c) {t : Turn}
    (hkey : t.sibling.correlationKey? settings.aggregator = some key) :
    (c.carry (t.admission params)).strand key mine =
      (c.strand key mine).submit t.verdict settings key t.sibling params
        (Sight.reply mine t.call) := by
  have hplaced : (t.admission params).1.apply c =
      c.submit (.outside t.call) key t.sibling params := by
    simp only [Turn.admission, Move.apply, submitCorrelated, placeCorrelated, h.punctual.settings,
      hkey, submit]
  have hstrand : (c.perform t.verdict (.submit key t.sibling params, t.call)).strand key mine = _ :=
    strand_submit h (fun hne => absurd rfl hne) t.sibling params
  show (((t.admission params).1.apply c).settle t.verdict).strand key mine = _
  rw [hplaced]
  exact hstrand.trans (if_pos rfl)

section Turn
variable {n : Nat} {born : Instant} {messages : List Message} {t : Turn} (h : Ready settings c)
  (hallow : params.Allow n)
  (hopened : (c.strand key mine).opened settings key params =
    Strand.gathered settings key params born messages)
  (hdeclare : Declare (sequenceProperty settings.aggregator) n (messages ++ [t.sibling]))
  (hkey : t.sibling.correlationKey? settings.aggregator = some key) (hmine : mine t.call = true)
  (hmeanwhile : Meanwhile key mine (c.carry (t.admission params)) t.meanwhile)
include h hallow hopened hdeclare hkey hmine hmeanwhile

/-- A turn that is not the last leaves one sibling more in the group. -/
theorem strand_turn_pending (hcount : messages.length + 1 < n)
    (hdue : params.timeout = 0 ∨ c.now + t.elapsed < born + params.timeout) :
    (c.carried (t.moves params)).now = c.now + t.elapsed ∧
      ((c.carried (t.moves params)).strand key mine).group =
        some (Strand.gathered settings key params born (messages ++ [t.sibling])) ∧
      ((c.carried (t.moves params)).strand key mine).seen =
        (c.strand key mine).seen ++ [t.pending] := by
  have hnow : params.timeout = 0 ∨ (c.strand key mine).now < born + params.timeout :=
    hdue.imp_right fun hlt => Int.lt_of_le_of_lt
      (Int.le_add_of_nonneg_right (Int.natCast_nonneg t.elapsed)) hlt
  have hstrand : (c.carry (t.admission params)).strand key mine = _ :=
    strand_admission h hkey
  rw [Strand.submit_gathered_pending hallow hdeclare hopened hcount hnow] at hstrand
  have hkept : ((c.carry (t.admission params)).strand key mine).group =
      some (Strand.gathered settings key params born (messages ++ [t.sibling])) :=
    congrArg Strand.group hstrand
  have hsame : (c.carry (t.admission params)).now = c.now := congrArg Strand.now hstrand
  have hlater := strand_meanwhile (h.carry (t.admission params)) hmeanwhile fun g hg => by
    obtain rfl := Option.some.inj (hkept.symm.trans hg)
    rw [hsame]
    exact gathered_isExpired hdue
  refine ⟨hlater.now.trans (congrArg (· + _) hsame), hlater.group.trans hkept,
    hlater.seen.trans ?_⟩
  rw [hstrand, Sight.reply, hmine]
  rfl

/-- The last turn hands the group over and leaves nothing under its key. -/
theorem strand_turn_last (hcount : messages.length + 1 = n) :
    ((c.carried (t.moves params)).strand key mine).group = none ∧
      ((c.carried (t.moves params)).strand key mine).seen =
        (c.strand key mine).seen ++ (Strand.sights t.verdict
          (Strand.gathered settings key params born (messages ++ [t.sibling])) .declaredTotal ++
            [.answer t.call (.outcome (.completed .declaredTotal))]) := by
  have hstrand : (c.carry (t.admission params)).strand key mine = _ :=
    strand_admission h hkey
  rw [Strand.submit_gathered_last hallow hdeclare hopened hcount] at hstrand
  have hnone : ((c.carry (t.admission params)).strand key mine).group = none :=
    congrArg Strand.group hstrand
  have hlater := strand_meanwhile (h.carry (t.admission params)) hmeanwhile fun g hg => by
    rw [hnone] at hg
    cases hg
  refine ⟨hlater.group.trans hnone, hlater.seen.trans ?_⟩
  rw [hstrand, Sight.reply, hmine]
  exact List.append_assoc ..

end Turn

/-- From a group that has gathered some siblings on, the others are kept until the last completes
the group. -/
theorem strand_turns {n : Nat} {born : Instant} {messages : List Message} {earlier : List Turn}
    {last : Turn} (h : Ready settings c) (hallow : params.Allow n)
    (hopened : (c.strand key mine).opened settings key params =
      Strand.gathered settings key params born messages)
    (hdue : params.timeout = 0 ∨
      c.now + ((earlier.map Turn.elapsed).sum : Nat) < born + params.timeout)
    (hcount : messages.length + earlier.length + 1 = n)
    (hdeclare : Declare (sequenceProperty settings.aggregator) n
      (messages ++ (earlier ++ [last]).map Turn.sibling))
    (hkeys : ∀ t ∈ earlier ++ [last], t.sibling.correlationKey? settings.aggregator = some key)
    (hmine : ∀ t ∈ earlier ++ [last], mine t.call = true)
    (hapart : Apart params key mine c (earlier ++ [last])) :
    let final := c.carried ((earlier ++ [last]).flatMap (Turn.moves params))
    (final.strand key mine).group = none ∧
      (final.strand key mine).seen = (c.strand key mine).seen ++ (earlier.map Turn.pending ++
        (Strand.sights last.verdict (Strand.gathered settings key params born
            (messages ++ (earlier ++ [last]).map Turn.sibling)) .declaredTotal ++
          [.answer last.call (.outcome (.completed .declaredTotal))])) := by
  induction earlier generalizing c messages with
  | nil =>
    rw [List.nil_append, List.flatMap_singleton]
    have hlast := List.mem_singleton_self last
    exact strand_turn_last h hallow hopened hdeclare (hkeys last hlast) (hmine last hlast) hapart.1
      hcount
  | cons t rest ih =>
    have hfirst : t ∈ t :: rest ++ [last] := List.mem_cons_self ..
    have hsiblings : messages ++ (t :: rest ++ [last]).map Turn.sibling =
        messages ++ [t.sibling] ++ (rest ++ [last]).map Turn.sibling := by simp
    rw [hsiblings] at hdeclare ⊢
    have hdeclare' : Declare (sequenceProperty settings.aggregator) n (messages ++ [t.sibling]) :=
      fun m hm => hdeclare m (List.mem_append_left _ hm)
    rw [List.map_cons, List.sum_cons, Int.natCast_add, ← Int.add_assoc] at hdue
    rw [List.length_cons] at hcount
    have hdue' : params.timeout = 0 ∨ c.now + t.elapsed < born + params.timeout :=
      hdue.imp_right fun hlt => Int.lt_of_le_of_lt
        (Int.le_add_of_nonneg_right (Int.natCast_nonneg _)) hlt
    obtain ⟨hnow, hgroup, hseen⟩ := strand_turn_pending h hallow hopened hdeclare'
      (hkeys t hfirst) (hmine t hfirst) hapart.1 (by omega) hdue'
    have hopened' : ((c.carried (t.moves params)).strand key mine).opened settings key
        params = Strand.gathered settings key params born (messages ++ [t.sibling]) := by
      rw [Strand.opened, hgroup, Option.getD_some]
    obtain ⟨hnone, hlater⟩ := ih (h.carried (t.moves params)) hopened' (hnow ▸ hdue)
      (by rw [List.length_append, List.length_singleton]; omega) hdeclare
      (fun x hx => hkeys x (List.mem_cons_of_mem _ hx))
      (fun x hx => hmine x (List.mem_cons_of_mem _ hx)) hapart.2
    have hfinal : c.carried ((t :: rest ++ [last]).flatMap (Turn.moves params)) =
        (c.carried (t.moves params)).carried
          ((rest ++ [last]).flatMap (Turn.moves params)) := List.foldl_append ..
    rw [hfinal]
    refine ⟨hnone, hlater.trans ?_⟩
    rw [hseen, List.append_assoc]
    rfl

end Gather

/-- What is seen of siblings that are handed over, the last of them being known. -/
theorem sights_gathered (verdict : Verdict) (settings : Settings) (key : String) (params : Params)
    (born : Instant) (messages : List Message) (m : Message) (trigger : Trigger) :
    Strand.sights verdict (Strand.gathered settings key params born (messages ++ [m])) trigger =
      .result ⟨key, messages ++ [m], trigger⟩ ::
        ((verdict ⟨key, messages ++ [m], trigger⟩).map fun cause =>
          Sight.fault (some m) (.sinkFailed key settings.sink cause [])).toList := by
  have hlast : (messages ++ [m]).getLast? = some m := List.getLast?_concat
  simp only [Strand.sights, Strand.gathered, Group.create, hlast]
  cases verdict ⟨key, messages ++ [m], trigger⟩ <;> rfl

/-- The siblings of a message, admitted in any order among other traffic and before the deadline of
their group, come together again: all but the last are pending, the last completes the group for its
declared total, and the sink is handed all of them once, in the order in which they were admitted.
Nothing else is seen of the parent's key, the fault of a sink that refuses apart, and no group is
left under it. -/
theorem fan_out_reassembled (settings : Settings) (asked own : Option String) (metrics : Bool)
    (now : Instant) (before : List (Move × Verdict)) (template : Message) (n : Nat)
    (params : Params) (earlier : List Turn) (last : Turn) :
    let aggregator := effectiveId asked own
    let turns := earlier ++ [last]
    let mine := fun call => decide (call ∈ turns.map Turn.call)
    let c := (start {settings with aggregator} metrics now).carried before
    let final := c.carried (turns.flatMap (Turn.moves params))
    let result : Result := ⟨template.id, turns.map Turn.sibling, .declaredTotal⟩
    n < 2 ^ 32 →
    params.Allow n →
    c.group? template.id = none →
    (turns.map Turn.sibling).Perm (template.fanOut n aggregator) →
    Apart params template.id mine c turns →
    (params.timeout = 0 ∨ (earlier.map Turn.elapsed).sum < params.timeout) →
    final.group? template.id = none ∧
      final.history.filterMap (Event.seen? template.id mine) =
        c.history.filterMap (Event.seen? template.id mine) ++
          (earlier.map fun t => .answer t.call (.outcome .pending)) ++
          .result result :: ((last.verdict result).map fun cause =>
            Sight.fault (some last.sibling)
              (.sinkFailed template.id settings.sink cause [])).toList ++
          [.answer last.call (.outcome (.completed .declaredTotal))] := by
  intro aggregator turns mine c final result hn hallow hnone hperm hapart hdue
  have h : Ready {settings with aggregator} c := (ready_start ..).carried before
  have hlimit : n ≤ Position.limit := Nat.le_of_lt_succ hn
  have hcount : ([] : List Message).length + earlier.length + 1 = n := by
    have hlength := hperm.length_eq
    rw [Message.fanOut_length, List.length_map, List.length_append, List.length_singleton]
      at hlength
    rw [← hlength, List.length_nil, Nat.zero_add]
  have hsibling : ∀ m ∈ turns.map Turn.sibling, m.correlationKey? aggregator = some template.id ∧
      ∃ index, m.position (sequenceProperty aggregator) = .ok (some ⟨index, n⟩) := fun m hm =>
    template.of_mem_fanOut hlimit (hperm.mem_iff.1 hm)
  have hopened : (c.strand template.id mine).opened {settings with aggregator} template.id params =
      Strand.gathered {settings with aggregator} template.id params c.now [] := by
    simp only [Strand.opened, strand, hnone, Option.map_none, Option.getD_none]
    rfl
  obtain ⟨hgone, hseen⟩ := strand_turns h hallow hopened
    (hdue.imp_right fun hlt => Int.add_lt_add_left (Int.ofNat_lt.2 hlt) _) hcount
    (fun m hm => (hsibling m hm).2)
    (fun t ht => (hsibling _ (List.mem_map_of_mem ht)).1)
    (fun t ht => decide_eq_true (List.mem_map_of_mem ht)) hapart
  refine ⟨Option.map_eq_none_iff.1 hgone, ?_⟩
  rw [List.nil_append, List.map_append, List.map_singleton, sights_gathered] at hseen
  have hresult : result =
      ⟨template.id, earlier.map Turn.sibling ++ [last.sibling], .declaredTotal⟩ := by
    simp only [result, turns, List.map_append, List.map_singleton]
  rw [hresult, List.append_assoc, List.append_assoc]
  exact hseen

/-- Two siblings in reverse order, with half of the timeout and another key's message between
them. -/
theorem fan_out_reassembled_pair :
    let aggregator := effectiveId (some "") (some "id")
    let template := Message.ofAction "p" "op" (Timestamp.ofMillis 0)
    let params : Params := ⟨1000, 5, 0⟩
    let accept : Verdict := fun _ => none
    let other : Move := .submit (.outside 2) "q" template params
    let first : Turn :=
      ⟨0, template.sibling 2 aggregator 2, accept, [(.advance 500, accept), (other, accept)]⟩
    let last : Turn := ⟨1, template.sibling 2 aggregator 1, accept, []⟩
    let mine := fun call => decide (call ∈ ([first] ++ [last]).map Turn.call)
    let c := start ⟨"name", "sink", aggregator, true⟩ false 0
    let final := c.carried (([first] ++ [last]).flatMap (Turn.moves params))
    Apart params "p" mine c ([first] ++ [last]) ∧ final.group? "p" = none ∧
      final.history.filterMap (Event.seen? "p" mine) =
        [.answer 0 (.outcome .pending),
         .result ⟨"p", [template.sibling 2 aggregator 2, template.sibling 2 aggregator 1],
          .declaredTotal⟩,
         .answer 1 (.outcome (.completed .declaredTotal))] := by
  intro aggregator template params accept other first last mine c final
  have hapart : Apart params "p" mine c ([first] ++ [last]) := by
    refine ⟨⟨trivial, ⟨?_, ?_⟩, trivial⟩, trivial, trivial⟩
    · decide
    · decide
  have hsiblings : (([first] ++ [last]).map Turn.sibling).Perm (template.fanOut 2 aggregator) :=
    List.Perm.swap ..
  obtain ⟨hnone, hseen⟩ := fan_out_reassembled ⟨"name", "sink", none, true⟩ (some "") (some "id")
    false 0 [] template 2 params [first] last (by decide) ⟨.inr (by decide), .inl (by decide)⟩ rfl
    hsiblings hapart (.inr (by decide))
  exact ⟨hapart, hnone, hseen⟩

end Coordinator

end Aggregation
