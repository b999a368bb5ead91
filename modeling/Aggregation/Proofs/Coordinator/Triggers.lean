import Aggregation.Proofs.Coordinator.Completion
import Aggregation.Proofs.Coordinator.Execution
import Aggregation.Proofs.Coordinator.Stroke

/-! Results are truthful about their trigger.

A live group is short of its thresholds until the message that completes it, and what was short with
one message less meets the threshold that it reaches exactly; a group that is completed by force is
short still, and its deadline tells a timeout from a request. So each result that is handed over
says why it was (`Change.truthful`), of a group whose thresholds and deadline never change. What a
single change hands over, a whole run does, at the time of the move that completed the group
(`triggers_truthful`). -/
namespace Aggregation.Coordinator

/-! ### What groups are born as -/

/-- Every group as it was born, in the order of creation. -/
def blanks (c : Coordinator) : List Group :=
  c.roster.groups.map Group.blank

theorem blanks_update {b c : Coordinator} (h : Sound c) {g x : Group} (hg : g ∈ c.roster.groups)
    (hx : x.blank = g.blank) (hr : b.roster.groups = (c.roster.update x).groups) :
    b.blanks = c.blanks := by
  rw [blanks, hr]
  refine Roster.map_blank_update fun y hy hid => ?_
  have hgid : x.blank.id = g.blank.id := congrArg Group.id hx
  rw [h.tidy.eq_of_id hy hg (hid.trans hgid)]
  exact hx

/-- Groups stay what they were born as, and come from the settings when they are opened. -/
theorem Change.blanks {a b : Coordinator} {l : List Message} (hs : Sound a) (hc : Change a l b) :
    b.blanks = a.blanks ∨ ∃ key params, b.blanks = a.blanks ++ [a.newGroup key params] := by
  cases hc with
  | answered _ => exact .inl rfl
  | @opened key params hk =>
    refine .inr ⟨key, params, ?_⟩
    rw [Coordinator.blanks, create_roster]
    exact List.map_append
  | @kept key g m hg _ _ =>
    exact .inl (blanks_update hs (x := g.push m) (hs.of_group? hg).1 rfl rfl)
  | @filled key g m trigger caller hg _ _ _ =>
    exact .inl (blanks_update hs (x := (g.push m).sealed) (hs.of_group? hg).1 rfl rfl)
  | refused _ _ => exact .inl rfl
  | @forced key g caller hg _ =>
    refine .inl (blanks_update hs (x := g.sealed) (hs.of_group? hg).1 rfl ?_)
    rw [finalize_roster, remark_roster]
    rfl
  | @expired d g _ hg _ =>
    refine .inl (blanks_update hs (x := g.sealed) (hs.of_group? hg).1 rfl ?_)
    rw [finalize_roster, remark_roster]
    rfl
  | stale _ _ => exact .inl rfl
  | advanced ms =>
    rw [advance_eq hs.swept]
    exact .inl rfl
  | @released f hf refusal =>
    obtain ⟨g, hg, -⟩ := hs.group_landed hf
    refine .inl (blanks_update hs (x := g.clear) (Roster.mem_of_group? hg) rfl ?_)
    rw [release_roster hg refusal]
    rfl

/-- Every group reads its total where the settings say. -/
structure Founded (settings : Settings) (c : Coordinator) : Prop where
  property : ∀ g ∈ c.blanks, g.policy.property = sequenceProperty settings.aggregator
  settings : c.settings = settings

theorem founded_start (settings : Settings) (metrics : Bool) (now : Instant) :
    Founded settings (start settings metrics now) :=
  ⟨fun _ h => absurd h List.not_mem_nil, rfl⟩

theorem Change.founded {settings : Settings} {a b : Coordinator} {l : List Message} (hs : Sound a)
    (hc : Change a l b) (h : Founded settings a) : Founded settings b := by
  refine ⟨fun g hg => ?_, (hc.settings hs).trans h.settings⟩
  rcases hc.blanks hs with hsame | ⟨key, params, hopened⟩
  · exact h.property g (hsame ▸ hg)
  · rw [hopened] at hg
    rcases List.mem_append.1 hg with hg | hg
    · exact h.property g hg
    · rw [List.mem_singleton.1 hg, ← h.settings]
      rfl

/-! ### What is handed over -/

/-- A result says truly why the group with that number was completed at a point of time. -/
def Truthful (settings : Settings) (c : Coordinator) (now : Instant) (id : Nat) (result : Result) :
    Prop :=
  ∃ g ∈ c.blanks, g.id = id ∧ g.key = result.key ∧
    g.policy.property = sequenceProperty settings.aggregator ∧
    (∀ max, g.policy.max = some max → result.messages.length ≤ max) ∧
    g.policy.Justifies result.messages now result.trigger

section Handed
variable {settings : Settings} {a b : Coordinator} {l : List Message}

/-- Groups that are opened later change nothing. -/
theorem Truthful.mono {now : Instant} {id : Nat} {result : Result}
    (h : Truthful settings a now id result) (hb : a.blanks <+: b.blanks) :
    Truthful settings b now id result := by
  obtain ⟨g, hg, hrest⟩ := h
  exact ⟨g, hb.subset hg, hrest⟩

theorem Change.blanks_prefix (hs : Sound a) (hc : Change a l b) : a.blanks <+: b.blanks := by
  rcases hc.blanks hs with hsame | ⟨key, params, hopened⟩
  · exact hsame ▸ List.prefix_rfl
  · exact hopened ▸ List.prefix_append ..

theorem claimTrigger_justifies {g : Group} (h : g.policy.Short g.messages) (now : Instant) :
    g.policy.Justifies g.messages now (g.claimTrigger now) := by
  unfold Group.claimTrigger
  cases he : g.policy.isExpired now with
  | true => exact ⟨Policy.isExpired_eq_true.1 he, h.under⟩
  | false => exact ⟨Policy.isExpired_eq_false.1 he, h.under⟩

/-- A group that is short of its maximum does not exceed it. -/
theorem length_le_of_short {g : Group} (h : g.policy.Short g.messages) :
    ∀ max, g.policy.max = some max → g.messages.length ≤ max := fun max hmax =>
  Nat.le_of_lt (h.under.2.2 max hmax)

/-- A live group that is completed by force says why. -/
theorem truthful_forced (hs : Sound a) (hfounded : Founded settings a) (ha : Attended a)
    {key : String} {g : Group} (hg : a.group? key = some g) :
    Truthful settings a a.now g.id (resultOf g (g.claimTrigger a.now)) := by
  have hblank : g.blank ∈ a.blanks := List.mem_map_of_mem (hs.of_group? hg).1
  have hshort := ha key g hg
  exact ⟨g.blank, hblank, rfl, rfl, hfounded.property _ hblank, length_le_of_short hshort,
    claimTrigger_justifies hshort a.now⟩

/-- A live group that a message completes says why. -/
theorem truthful_filled (hs : Sound a) (hfounded : Founded settings a) (ha : Attended a)
    {key : String} {g : Group} {m : Message} {trigger : Trigger} (hg : a.group? key = some g)
    (he : g.policy.evaluate (g.messages ++ [m]) a.now = .complete trigger) :
    Truthful settings a a.now g.id (resultOf (g.push m) trigger) := by
  have hblank : g.blank ∈ a.blanks := List.mem_map_of_mem (hs.of_group? hg).1
  refine ⟨g.blank, hblank, rfl, rfl, hfounded.property _ hblank, fun max hmax => ?_,
    Policy.justifies_of_evaluate (ha key g hg) he⟩
  have hlt := (ha key g hg).under.2.2 max hmax
  show (g.messages ++ [m]).length ≤ max
  rw [List.length_append]
  exact hlt

/-- Whatever is handed over between two states is truthful at a point of time. -/
def Hands (settings : Settings) (now : Instant) (a b : Coordinator) : Prop :=
  ∃ handed, b.deliveries = a.deliveries ++ handed ∧
    ∀ d ∈ handed, Truthful settings b now d.1 d.2

namespace Hands
variable {c : Coordinator} {now : Instant}

theorem none (hd : b.deliveries = a.deliveries) : Hands settings now a b :=
  ⟨[], hd.trans (List.append_nil _).symm, fun _ h => absurd h List.not_mem_nil⟩

theorem one {d : Nat × Result} (hd : b.deliveries = a.deliveries ++ [d])
    (h : Truthful settings b now d.1 d.2) : Hands settings now a b :=
  ⟨[d], hd, fun _ hx => List.mem_singleton.1 hx ▸ h⟩

theorem trans (h : Hands settings now a b) (h' : Hands settings now b c)
    (hblanks : b.blanks <+: c.blanks) : Hands settings now a c := by
  obtain ⟨before, hbefore, htruthful⟩ := h
  obtain ⟨last, hlast, htruthful'⟩ := h'
  refine ⟨before ++ last, by rw [hlast, hbefore, List.append_assoc], fun d hd => ?_⟩
  rcases List.mem_append.1 hd with hd | hd
  · exact (htruthful d hd).mono hblanks
  · exact htruthful' d hd

end Hands

/-- A change hands over truthful results only. -/
theorem Change.truthful (hs : Sound a) (hfounded : Founded settings a) (ha : Attended a)
    (hc : Change a l b) : Hands settings a.now a b := by
  have hblanks := hc.blanks_prefix hs
  cases hc with
  | answered he => exact .none (deliveries_record_none _ (delivery?_of_isAnswer he))
  | opened params hk => exact .none (deliveries_create ..)
  | kept _ _ _ => exact .none (deliveries_record_none a rfl)
  | @filled key g m trigger caller hg _ he _ =>
    have hhanded : ((a.record (.offered g m a.now)).finalize (g.push m) trigger caller).deliveries =
        a.deliveries ++ [(g.id, resultOf (g.push m) trigger)] :=
      (deliveries_finalize ..).trans (congrArg (· ++ _) (deliveries_record_none a rfl))
    exact .one hhanded ((truthful_filled hs hfounded ha hg he).mono hblanks)
  | refused _ _ => exact .none (deliveries_refused ..)
  | @forced key g caller hg _ =>
    refine .one (d := (g.id, resultOf g (g.claimTrigger a.now))) ?_
      ((truthful_forced hs hfounded ha hg).mono hblanks)
    rw [deliveries_finalize, deliveries_remark]
  | @expired d g _ hg _ =>
    refine .one (d := (g.id, resultOf g (g.claimTrigger a.now))) ?_
      ((truthful_forced hs hfounded ha hg).mono hblanks)
    rw [deliveries_finalize, deliveries_remark (a.take d)]
    rfl
  | stale _ _ => exact .none (deliveries_record_none (a.take _) rfl)
  | advanced ms => exact .none (deliveries_advance hs.swept ms)
  | @released f hf refusal =>
    obtain ⟨g, hg, -⟩ := hs.group_landed hf
    exact .none (deliveries_release hg refusal)

/-- Time never goes back. -/
theorem Change.now_le (hs : Sound a) (hc : Change a l b) : a.now ≤ b.now := by
  have hsame : b.now = a.now → a.now ≤ b.now := fun h => Int.le_of_eq h.symm
  cases hc with
  | answered _ => exact hsame rfl
  | opened params hk => exact hsame (create_now ..)
  | kept _ _ _ => exact hsame rfl
  | filled _ _ _ _ => exact hsame rfl
  | refused _ _ => exact hsame rfl
  | forced _ _ => exact hsame ((finalize_now ..).trans (remark_now ..))
  | @expired d g _ _ _ => exact hsame ((finalize_now ..).trans (remark_now (a.take d) ..))
  | stale _ _ => exact hsame rfl
  | advanced ms =>
    rw [advance_eq hs.swept]
    exact Int.le_add_of_nonneg_right (Int.natCast_nonneg ms)
  | @released f hf refusal =>
    obtain ⟨g, hg, -⟩ := hs.group_landed hf
    exact hsame (release_now hg refusal)

end Handed

/-! ### What changes hand over -/

/-- What everybody relies on who says why a group was completed. -/
structure Sincere (settings : Settings) (c : Coordinator) : Prop where
  sound : Sound c
  founded : Founded settings c
  attended : Attended c

theorem sincere_start (settings : Settings) (metrics : Bool) (now : Instant) :
    Sincere settings (start settings metrics now) :=
  ⟨sound_start .., founded_start .., attended_start settings metrics now⟩

section Changes
variable {settings : Settings} {a b c : Coordinator} {l : List Message}

theorem Change.sincere (hc : Change a l b) (h : Sincere settings a) : Sincere settings b :=
  ⟨hc.sound h.sound, hc.founded h.sound h.founded, hc.attended h.sound h.attended⟩

/-- Changes that take no time hand over truthful results only. -/
theorem Changes.truthful (hc : Changes a l b) (h : Sincere settings a) :
    Sincere settings b ∧ a.blanks <+: b.blanks ∧ a.now ≤ b.now ∧
      (b.now = a.now → Hands settings a.now a b) := by
  induction hc with
  | refl => exact ⟨h, List.prefix_rfl, Int.le_refl _, fun _ => .none rfl⟩
  | @tail b _ _ _ _ hc ih =>
    obtain ⟨hb, hblanks, hle, hhanded⟩ := ih
    have hle' := hc.now_le hb.sound
    have hblanks' := hc.blanks_prefix hb.sound
    refine ⟨hc.sincere hb, hblanks.trans hblanks', Int.le_trans hle hle', fun hnow => ?_⟩
    have hstill : b.now = a.now := Int.le_antisymm (hnow ▸ hle') hle
    have hlast := hc.truthful hb.sound hb.founded hb.attended
    exact (hhanded hstill).trans (hstill ▸ hlast) hblanks'

end Changes

/-! ### What a run hands over -/

/-- What each move of a run hands over, and when it does. -/
def handovers (c : Coordinator) : List Move → List (Instant × Nat × Result)
  | [] => []
  | move :: rest =>
    ((move.apply c).deliveries.drop c.deliveries.length).map (fun d => (c.now, d)) ++
      handovers (move.apply c) rest

/-- What a move hands over is truthful at the time of the move. -/
theorem truthful_apply {settings : Settings} {c : Coordinator} (h : Sincere settings c)
    (move : Move) (hdirect : move.isDirect = false) :
    Sincere settings (move.apply c) ∧ c.blanks <+: (move.apply c).blanks ∧
      Hands settings c.now c (move.apply c) := by
  cases hstop : move.isStop with
  | true =>
    cases move with
    | stop =>
      exact ⟨⟨h.sound.stop, ⟨h.founded.property, h.founded.settings⟩, h.attended⟩,
        List.prefix_rfl, .none rfl⟩
    | _ => cases hstop
  | false =>
    obtain ⟨hb, hblanks, -, hhanded⟩ := (move.apply_changes h.sound hstop hdirect).truthful h
    refine ⟨hb, hblanks, ?_⟩
    cases hadvance : move.isAdvance with
    | true =>
      obtain ⟨ms, rfl⟩ := Move.eq_advance hadvance
      exact .none (deliveries_advance h.sound.swept ms)
    | false => exact hhanded (move.apply_now h.sound hadvance)

/-- What a run hands over is what its moves do, each at its time, and truthful. -/
theorem truthful_run {settings : Settings} {c : Coordinator} (h : Sincere settings c)
    {moves : List Move} (hmoves : ∀ move ∈ moves, move.isDirect = false) :
    c.blanks <+: (run c moves).blanks ∧
      (run c moves).deliveries = c.deliveries ++ (handovers c moves).map Prod.snd ∧
      ∀ d ∈ handovers c moves, Truthful settings (run c moves) d.1 d.2.1 d.2.2 := by
  induction moves generalizing c with
  | nil =>
    exact ⟨List.prefix_rfl, (List.append_nil _).symm, fun _ hd => absurd hd List.not_mem_nil⟩
  | cons move rest ih =>
    obtain ⟨hb, hblanks, handed, hdeliveries, htruthful⟩ :=
      truthful_apply h move (hmoves move (List.mem_cons_self ..))
    obtain ⟨hblanks', hlater, htruthful'⟩ :=
      ih hb fun other hm => hmoves other (List.mem_cons_of_mem _ hm)
    have hhanded : (move.apply c).deliveries.drop c.deliveries.length = handed := by
      rw [hdeliveries, List.drop_left]
    simp only [handovers, hhanded, run]
    refine ⟨hblanks.trans hblanks', ?_, fun d hd => ?_⟩
    · rw [hlater, hdeliveries, List.map_append, List.map_map, List.append_assoc]
      congr 2
      exact (List.map_id _).symm
    · rcases List.mem_append.1 hd with hd | hd
      · obtain ⟨x, hx, rfl⟩ := List.mem_map.1 hd
        exact (htruthful x hx).mono hblanks'
      · exact htruthful' d hd

/-- Unless groups are changed through handles, every result says truly, of a group on the roster and
of the time at which it was handed over, why the group was completed; and it holds no more messages
than the group may. -/
theorem triggers_truthful (settings : Settings) (metrics : Bool) (now : Instant)
    (moves : List Move) (hmoves : ∀ move ∈ moves, move.isDirect = false) :
    let first := start settings metrics now
    let c := run first moves
    c.deliveries = (handovers first moves).map Prod.snd ∧
      ∀ time id result, (time, id, result) ∈ handovers first moves →
        ∃ g ∈ c.roster.groups, g.id = id ∧ g.key = result.key ∧
          g.policy.property = sequenceProperty settings.aggregator ∧
          g.policy.Justifies result.messages time result.trigger ∧
          ∀ max, g.policy.max = some max → result.messages.length ≤ max := by
  intro first c
  obtain ⟨-, hdeliveries, htruthful⟩ := truthful_run (sincere_start settings metrics now) hmoves
  rw [show (start settings metrics now).deliveries = [] from rfl, List.nil_append] at hdeliveries
  refine ⟨hdeliveries, fun time id result hd => ?_⟩
  obtain ⟨x, hx, hid, hkey, hproperty, hmax, hjustified⟩ := htruthful _ hd
  obtain ⟨g, hg, rfl⟩ := List.mem_map.1 hx
  exact ⟨g, hg, hid, hkey, hproperty, hjustified, hmax⟩

/-- A group whose timeout has passed before it took anything. -/
theorem triggers_truthful_timeout :
    let moves : List Move :=
      [.openGroup "k" ⟨1000, 0, 0⟩, .advance 1000, .expire ⟨"k", 1, 1000⟩]
    let first := start ⟨"name", "sink", none, true⟩ false 0
    (∀ move ∈ moves, move.isDirect = false) ∧
      handovers first moves = [(1000, 1, ⟨"k", [], .timeout⟩)] ∧
      ∃ g ∈ (run first moves).roster.groups, g.id = 1 ∧
        ∃ due, g.policy.expiry = some due ∧ due ≤ 1000 := by
  intro moves first
  have hmoves : ∀ move ∈ moves, move.isDirect = false := by decide
  have hshape : ((handovers first moves).map fun d =>
      (d.1, d.2.1, d.2.2.key, d.2.2.messages.length, d.2.2.trigger)) =
        [(1000, 1, "k", 0, .timeout)] := by decide +kernel
  obtain ⟨⟨time, id, key, messages, trigger⟩, hhanded, hd⟩ := List.map_eq_singleton_iff.1 hshape
  simp only [Prod.mk.injEq, List.length_eq_zero_iff] at hd
  obtain ⟨rfl, rfl, rfl, rfl, rfl⟩ := hd
  obtain ⟨-, htruthful⟩ := triggers_truthful ⟨"name", "sink", none, true⟩ false 0 moves hmoves
  obtain ⟨g, hg, hid, -, -, ⟨hdue, -⟩, -⟩ :=
    htruthful 1000 1 ⟨"k", [], .timeout⟩ (hhanded ▸ List.mem_singleton_self _)
  exact ⟨hmoves, hhanded, g, hg, hid, hdue⟩

end Aggregation.Coordinator
