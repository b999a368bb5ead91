import Aggregation.Proofs.Coordinator.Callers

/-! What opening a group hands out.

Whatever was done to the groups of a coordinator behind its back, opening ends within two passes and
hands out a group that collects and is the one under its key (`open_collecting`). A group that
collects is handed out as it is. A completed one is evicted for good: it was not handed over and
never will be, and a deadline of it that fires finds its group gone (`Departed.expire`). Only where
a new group would have a deadline that the clock cannot name there is none to hand out
(`opening_panics`). -/
namespace Aggregation.Coordinator

open Custody

variable {kept : Nat → Prop} {c : Coordinator}

/-! ### The group that is created -/

section Create
variable (h : Intact kept c.custody) {key : String} (hk : c.roster.registry.get? key = none)
  (params : Params)
include h hk

theorem group?_created (other : String) : (c.create key params).2.group? other =
    if other = key then some (c.newGroup key params) else c.group? other := by
  have hnew := (create_deed h hk params).2
  have hget : (c.create key params).2.roster.registry.get? other =
      if other = key then some (c.newGroup key params).id else c.roster.registry.get? other := by
    rw [create_roster]
    exact Registry.get?_getOrCreate hk _ other
  rw [group?, Roster.registered?, hget]
  by_cases hother : other = key
  · rw [if_pos hother, if_pos hother]
    exact hnew
  · rw [if_neg hother, if_neg hother, group?, Roster.registered?]
    cases hr : c.roster.registry.get? other with
    | none => rfl
    | some id =>
      obtain ⟨x, hx, -⟩ := h.linked.registered other id hr
      change c.roster.group? id = some x at hx
      show (c.create key params).2.roster.group? id = c.roster.group? id
      rw [create_roster, Roster.group?_create, hx]
      rfl

end Create

/-! ### The group that is replaced -/

theorem group?_vacate {held : Group} (hk : c.roster.registry.get? held.key = some held.id)
    (other : String) :
    (c.vacate held).group? other = if other = held.key then none else c.group? other := by
  by_cases hother : other = held.key
  · rw [if_pos hother, hother, group?, Roster.registered?, registry_vacate hk]
    rfl
  · have hget : (c.vacate held).roster.registry.get? other = c.roster.registry.get? other :=
      (Registry.get?_remove ..).trans (if_neg fun e => hother e.1)
    rw [if_neg hother, group?, Roster.registered?, hget]
    rfl

/-- A group is completed and gone, and was not handed over. -/
structure Departed (held : Group) (c : Coordinator) : Prop where
  gone : Gone held.id c.custody
  spent : Spent held.id [] c.custody

namespace Departed
variable {held : Group}

/-- A deadline of such a group completes nothing. -/
theorem expire (h : Intact kept c.custody) (hheld : Departed held c) {d : Deadline}
    (hd : d.group = held.id) : (Move.expire d).apply c =
      if d ∈ c.expired then (c.take d).record (.stale d) else c := by
  simp only [Move.apply]
  congr 1
  refine expire_stale (c := c.take d) fun g hg hid => ?_
  rcases group?_cases h d.key with ⟨hnone, -⟩ | ⟨x, hx, hr, -, -⟩
  · rw [show (c.take d).group? d.key = none from hnone] at hg
    cases hg
  · obtain rfl := Option.some.inj (hx.symm.trans hg)
    exact hheld.gone.away d.key (hd ▸ hid ▸ hr)

theorem after (h : Intact (fun _ => False) c.custody) (hheld : Departed held c)
    (acts : List Act) : Departed held (after c acts) :=
  ⟨after_gone h hheld.gone acts, after_spent h hheld.spent acts⟩

end Departed

/-- One group takes the place of another, and nothing else changes about groups. -/
structure Replaces (c : Coordinator) (held g : Group) (b : Coordinator) : Prop where
  groups : b.roster.groups = c.roster.groups ++ [g]
  fresh : ∀ x ∈ c.roster.groups, x.id ≠ g.id
  empty : g.messages = []
  others : ∀ other, other ≠ held.key → b.group? other = c.group? other
  inFlight : b.inFlight = c.inFlight
  deliveries : b.deliveries = c.deliveries

section Replace
variable (h : Intact (fun _ => False) c.custody) {held : Group}
  (hk : c.roster.registry.get? held.key = some held.id) (params : Params)
include h hk

theorem replaces_vacated : Replaces c held (c.newGroup held.key params)
    ((c.vacate held).create held.key params).2 := by
  have hvacated : Intact (fun _ => False) (c.vacate held).custody :=
    (vacate_deed c held).edit.intact h
  refine ⟨?_, fun x hx hid => ?_, rfl, fun other hother => ?_, create_inFlight .., ?_⟩
  · rw [create_roster]
    rfl
  · exact absurd (h.linked.numbered.id_lt_nextId hx) (by rw [hid]; exact Nat.lt_irrefl _)
  · rw [group?_created hvacated (registry_vacate hk), if_neg hother, group?_vacate hk,
      if_neg hother]
  · rw [deliveries_create]
    exact deliveries_record_none c (e := .replaced held.key held.id) rfl

theorem departed_vacated (hheld : c.roster.group? held.id = some held)
    (hwithheld : Withheld c.custody) (hc : held.completed = true) :
    Departed held ((c.vacate held).create held.key params).2 := by
  have hvacated := (vacate_deed c held).edit
  have hcreated := (create_deed (hvacated.intact h) (registry_vacate hk) params).1.edit
  have hgone : Gone held.id (c.vacate held).custody :=
    ⟨h.linked.numbered.id_lt_nextId (Roster.mem_of_group? hheld), h.linked.away hheld⟩
  have hspent : Spent held.id [] c.custody := ⟨⟨held, hheld, hc⟩, hwithheld held.key held.id hk⟩
  exact ⟨hgone.edit hcreated, (hspent.edit hvacated).edit hcreated⟩

end Replace

/-! ### Opening -/

section Make
variable {key : String} {params : Params}

theorem make_of_fits (hfits : params.Fits c.now) :
    c.make key params = .handed (c.newGroup key params) (c.create key params).2 := by
  rw [make, if_pos hfits, create_fst]

theorem make_of_not_fits (hfits : ¬ params.Fits c.now) : c.make key params = .panicked c :=
  if_neg hfits

end Make

/-- A key is left without a group, and the other groups, the deadlines and what anybody was told stay
as they are. -/
structure Frees (c : Coordinator) (key : String) (b : Coordinator) : Prop where
  free : b.group? key = none
  others : ∀ other, other ≠ key → b.group? other = c.group? other
  groups : b.roster.groups = c.roster.groups
  scheduler : b.scheduler = c.scheduler
  inFlight : b.inFlight = c.inFlight
  deliveries : b.deliveries = c.deliveries
  answers : b.answers = c.answers

theorem Frees.refl {key : String} (hfree : c.group? key = none) : Frees c key c :=
  ⟨hfree, fun _ _ => rfl, rfl, rfl, rfl, rfl, rfl⟩

theorem frees_vacate {held : Group} (hk : c.roster.registry.get? held.key = some held.id) :
    Frees c held.key (c.vacate held) where
  free := (group?_vacate hk held.key).trans (if_pos rfl)
  others other hother := (group?_vacate hk other).trans (if_neg hother)
  groups := rfl
  scheduler := rfl
  inFlight := rfl
  deliveries := deliveries_record_none c (e := .replaced held.key held.id) rfl
  answers := (Quiet.record c (e := .replaced held.key held.id) rfl).answers

/-- In every state that any operations and any calls on groups lead to, opening ends within two
passes. It hands out a group that collects and is the one under the key, provided there is one that
does or the clock can name the deadline of a new one. A group that was collecting there is handed
out as it is, and nothing else changes. A completed one makes way for a new group with a number of
its own: it was not handed over and never will be, it stays unregistered, and handling any deadline
of it that fired, at any time, does no more than note that. Where the clock cannot name the deadline
of the group that is needed, the call panics, and the key has no group. Calls that panicked earlier
are covered: but for a note, what one leaves is what `Act.evict` leaves. And in no such state has any
call been answered that its message came late. -/
theorem open_collecting (settings : Settings) (metrics : Bool) (now : Instant) (acts : List Act)
    (key : String) (params : Params) :
    let c := after (start settings metrics now) acts
    (∀ x ∈ c.answers, x.2.isLate = false) ∧
    ((params.Fits c.now ∨ ∃ held, c.group? key = some held ∧ held.completed = false) →
      ∃ g b, (∀ passes, openWithin (passes + 2) key params c = some (.handed g b)) ∧
        c.openGroup key params = (g, b) ∧ g.completed = false ∧ b.group? key = some g ∧
        ∀ held, c.group? key = some held →
          (held.completed = false → g = held ∧ b = c) ∧
          (held.completed = true →
            Replaces c held g b ∧
            ∀ later,
              let s := after b later
              (∀ other, s.roster.registry.get? other ≠ some held.id) ∧
              s.deliveriesOf held.id = [] ∧
              ∀ d : Deadline, d.group = held.id → (Move.expire d).apply s =
                if d ∈ s.expired then (s.take d).record (.stale d) else s)) ∧
    (¬ params.Fits c.now → (∀ held, c.group? key = some held → held.completed = true) →
      ∃ b, (∀ passes, openWithin (passes + 2) key params c = some (.panicked b)) ∧
        Frees c key b ∧ (c.group? key = none → b = c)) := by
  intro c
  have hstart : Intact (fun _ => False) (start settings metrics now).custody :=
    intact_start _ settings metrics now
  have h : Intact (fun _ => False) c.custody :=
    after_intact hstart fun _ _ _ hk => hk.elim
  refine ⟨after_timely hstart (fun _ hx => absurd hx List.not_mem_nil) acts, ?_⟩
  rcases openWithin_cases h key params with ⟨hnone, hk, hopen⟩ |
    ⟨held, hheld, hk, hid, rfl, ⟨hc, hopen⟩ | ⟨hc, hopen⟩⟩
  · refine ⟨fun hcan => ?_, fun hfits _ => ⟨c, fun passes => ?_, .refl hnone, fun _ => rfl⟩⟩
    · have hfits : params.Fits c.now := hcan.resolve_right fun ⟨held, hheld, _⟩ => by
        rw [hnone] at hheld
        cases hheld
      simp only [make_of_fits hfits] at hopen
      refine ⟨_, _, hopen, openGroup_of_handed (hopen 0), rfl, ?_, fun held hheld => ?_⟩
      · rw [group?_created h hk, if_pos rfl]
      · rw [hnone] at hheld
        cases hheld
    · rw [hopen, make_of_not_fits hfits]
  · refine ⟨fun _ => ⟨held, c, hopen, openGroup_of_handed (hopen 0), hc, hheld, fun x hx => ?_⟩,
      fun _ hall => absurd (hc.symm.trans (hall held hheld)) (by simp)⟩
    obtain rfl := Option.some.inj (hheld.symm.trans hx)
    exact ⟨fun _ => ⟨rfl, rfl⟩, fun hcompleted => absurd (hc.symm.trans hcompleted) (by simp)⟩
  · refine ⟨fun hcan => ?_, fun hfits _ =>
      ⟨c.vacate held, fun passes => ?_, frees_vacate hk, fun hnone => ?_⟩⟩
    · have hfits : params.Fits (c.vacate held).now := hcan.resolve_right fun ⟨x, hx, hcollecting⟩ => by
        obtain rfl := Option.some.inj (hheld.symm.trans hx)
        exact absurd (hc.symm.trans hcollecting) (by simp)
      simp only [make_of_fits hfits] at hopen
      have hvacated := (vacate_deed c held).edit.intact h
      have hb := (create_deed hvacated (registry_vacate hk) params).1.edit.intact hvacated
      refine ⟨_, _, hopen, openGroup_of_handed (hopen 0), rfl, ?_, fun x hx => ?_⟩
      · exact (group?_created hvacated (registry_vacate hk) params held.key).trans (if_pos rfl)
      · obtain rfl := Option.some.inj (hheld.symm.trans hx)
        refine ⟨fun hcollecting => absurd (hc.symm.trans hcollecting) (by simp), fun _ =>
          ⟨replaces_vacated h hk params, fun later => ?_⟩⟩
        have hdeparted := departed_vacated h hk params hid
          (after_withheld hstart (withheld_start settings metrics now) acts) hc
        have hs := hdeparted.after hb later
        refine ⟨hs.gone.away, hs.spent.handed, fun d hd => ?_⟩
        exact hs.expire (after_intact hb fun _ _ _ hk => hk.elim) hd
    · rw [hopen]
      exact congrArg some (make_of_not_fits hfits)
    · rw [hheld] at hnone
      cases hnone

/-- A group is marked through a handle and never finalized; its deadline comes when another group
has taken its place. Asked for one with the longest timeout there is, the coordinator has none. -/
theorem open_collecting_marked :
    let c := after (start ⟨"name", "sink", none, true⟩ true 0)
      [.move (.openGroup "k" ⟨1000, 0, 0⟩), .call 1 0 .mark]
    let b := (c.openGroup "k" .none).2
    let s := after b [.move (.advance 1000)]
    let d : Deadline := ⟨"k", 1, 1000⟩
    Params.none.Fits c.now ∧ (∃ held, c.group? "k" = some held ∧ held.completed = true) ∧
      (∃ g, b.group? "k" = some g ∧ g.id = 2 ∧ g.completed = false) ∧
      (Move.expire d).apply s = (s.take d).record (.stale d) ∧
      ∃ e, openWithin 2 "k" ⟨18446744073709551615999, 0, 0⟩ c = some (.panicked e) ∧
        e.group? "k" = none := by
  intro c b s d
  have hfits : Params.none.Fits c.now := .inl rfl
  obtain ⟨-, -, hpanics⟩ := open_collecting ⟨"name", "sink", none, true⟩ true 0
    [.move (.openGroup "k" ⟨1000, 0, 0⟩), .call 1 0 .mark] "k" ⟨18446744073709551615999, 0, 0⟩
  obtain ⟨e, hpanicked, hfrees, -⟩ := hpanics (by decide) fun held hheld => by
    rw [← Option.some.inj hheld]
    rfl
  obtain ⟨-, hopens, -⟩ := open_collecting ⟨"name", "sink", none, true⟩
    true 0 [.move (.openGroup "k" ⟨1000, 0, 0⟩), .call 1 0 .mark] "k" .none
  obtain ⟨g, b', -, hopen, hg, hfound, hheld⟩ := hopens (.inl hfits)
  obtain rfl : b = b' := congrArg Prod.snd hopen
  obtain rfl : (c.openGroup "k" .none).1 = g := congrArg Prod.fst hopen
  obtain ⟨-, hreplaced⟩ := hheld _ rfl
  obtain ⟨-, -, hexpire⟩ := (hreplaced rfl).2 [.move (.advance 1000)]
  exact ⟨hfits, ⟨_, rfl, rfl⟩, ⟨_, hfound, rfl, hg⟩, hexpire d rfl, e, hpanicked 0, hfrees.free⟩

/-- The longest timeout there is: nothing is registered, and the call panics on its first pass, so
opening hands out no group however often it looks. -/
theorem opening_panics :
    let c := start ⟨"name", "sink", none, true⟩ true 0
    let params : Params := ⟨18446744073709551615999, 0, 0⟩
    c.group? "k" = none ∧ openWithin 1 "k" params c = some (.panicked c) ∧
      ∀ passes g b, openWithin passes "k" params c ≠ some (.handed g b) := by
  intro c params
  have hopen : ∀ passes, openWithin (passes + 1) "k" params c = some (.panicked c) := fun _ =>
    congrArg some (make_of_not_fits (by decide))
  refine ⟨rfl, hopen 0, fun passes g b => ?_⟩
  cases passes with
  | zero => exact fun h => (nomatch h)
  | succ passes =>
    rw [hopen passes]
    exact fun h => (nomatch h)

end Aggregation.Coordinator
