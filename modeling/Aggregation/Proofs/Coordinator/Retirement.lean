import Aggregation.Proofs.Coordinator.Handles

/-! What becomes of groups.

A group that is evicted stays out of the registry (`Gone`), one that is registered was not handed
over (`Withheld`), and one that is completed stays so (`Lasts`) and is handed over no more
(`Spent`), whatever anybody does: each edit keeps that, each answer of a sink and each clearing,
hence every run (`after_gone`, `after_withheld`, `after_lasts`, `after_spent`). As long as nobody
claims a group through a handle, each group that is completed was handed over once and is not
registered (`Upright`), for operations complete no group but to finalize it (`after_upright`). -/
namespace Aggregation

namespace Custody

/-! ### Evicted groups -/

/-- There is such a group, and it is not registered. -/
structure Gone (id : Nat) (d : Custody) : Prop where
  known : id < d.roster.nextId
  away : ∀ key, d.roster.registry.get? key ≠ some id

theorem nextId_update (r : Roster) (x : Group) : (r.update x).nextId = r.nextId := by
  simp only [Roster.nextId, Roster.update, List.length_map]

namespace Gone
variable {id : Nat} {d e : Custody} {g : Group}

theorem update (h : Gone id d) (x : Group) : Gone id (d.update x) :=
  ⟨(nextId_update d.roster x).symm ▸ h.known, h.away⟩

theorem remove (h : Gone id d) (key : String) (other : Nat) :
    Gone id {d with roster := (d.roster.remove key other).2} := by
  refine ⟨h.known, fun held hr => ?_⟩
  change (d.roster.registry.remove key other).2.get? held = some id at hr
  rw [Registry.get?_remove] at hr
  split at hr
  · cases hr
  · exact h.away held hr

/-- A group that is gone does not come back. -/
theorem edit (h : Gone id d) (he : Edit d e) : Gone id e := by
  cases he with
  | @opened g hk hid _ _ =>
    refine ⟨?_, fun held hr => ?_⟩
    · have hnext : (d.roster.create g.key g).nextId = d.roster.nextId + 1 := by
        simp [Roster.nextId, Roster.create]
      show id < (d.roster.create g.key g).nextId
      have hknown := h.known
      omega
    · change (d.roster.registry.getOrCreate g.key g.id).2.get? held = some id at hr
      rw [Registry.get?_getOrCreate hk] at hr
      split at hr
      · have hknown := h.known
        rw [← Option.some.inj hr, hid] at hknown
        exact absurd hknown (Nat.lt_irrefl _)
      · exact h.away held hr
  | changed _ _ _ => exact h.update _
  | evicted key other => exact h.remove key other
  | @claimed _ x _ _ _ _ _ _ _ =>
    have hretired := (h.update x).remove x.key x.id
    exact ⟨hretired.known, hretired.away⟩

theorem release (h : Gone id d) (g : Group) (refusal : Option String) :
    Gone id (d.release g refusal) :=
  ⟨(h.update g.clear).known, h.away⟩

end Gone

/-! ### Registered groups -/

/-- What is registered was not handed over. -/
def Withheld (d : Custody) : Prop :=
  ∀ key id, d.roster.registry.get? key = some id → d.deliveriesOf id = []

namespace Withheld
variable {d e : Custody}

theorem remove (h : Withheld d) (key : String) (id : Nat) :
    Withheld {d with roster := (d.roster.remove key id).2} := by
  intro held other hr
  change (d.roster.registry.remove key id).2.get? held = some other at hr
  rw [Registry.get?_remove] at hr
  split at hr
  · cases hr
  · exact h held other hr

theorem edit (h : Withheld d) (hd : Linked d) (ht : Tallied d) (he : Edit d e) : Withheld e := by
  cases he with
  | @opened g hk hid _ _ =>
    intro held other hr
    change (d.roster.registry.getOrCreate g.key g.id).2.get? held = some other at hr
    rw [Registry.get?_getOrCreate hk] at hr
    split at hr
    · refine ht.unclaimed other fun x hx => ?_
      rw [← Option.some.inj hr, hid, hd.numbered.group?_nextId] at hx
      cases hx
    · exact h held other hr
  | changed _ _ _ => exact h
  | evicted key id => exact h.remove key id
  | @claimed g x hg hx hopen hc trigger caller _ =>
    intro held other hr
    have hgx : (d.roster.update x).group? x.id = some x := by
      rw [Roster.group?_changed hg (id_of_blank hx), if_pos (id_of_blank hx)]
    have hne : ¬ x.id = other := by
      rintro rfl
      exact (hd.update hg hx).away hgx held hr
    rw [deliveriesOf_claim, if_neg hne, List.append_nil]
    exact (h.remove x.key x.id) held other hr

end Withheld

/-! ### Completed groups -/

/-- A group that there was is still there, with its key, and completed if it was. -/
def Lasts (g : Group) (d : Custody) : Prop :=
  ∃ x, d.roster.group? g.id = some x ∧ x.key = g.key ∧ (g.completed = true → x.completed = true)

namespace Lasts
variable {d e : Custody} {y g x : Group}

theorem update (h : Lasts y d) (hg : d.roster.group? g.id = some g) (hx : x.blank = g.blank)
    (hc : g.completed = true → x.completed = true) : Lasts y (d.update x) := by
  obtain ⟨z, hz, hzk, hzc⟩ := h
  show ∃ z, (d.roster.update x).group? y.id = some z ∧ _
  rw [Roster.group?_changed hg (id_of_blank hx)]
  by_cases hsame : y.id = g.id
  · obtain rfl := Option.some.inj ((hsame ▸ hz).symm.trans hg)
    exact ⟨x, if_pos hsame, (key_of_blank hx).trans hzk, fun hy => hc (hzc hy)⟩
  · exact ⟨z, (if_neg hsame).trans hz, hzk, hzc⟩

theorem edit (h : Lasts y d) (he : Edit d e) : Lasts y e := by
  cases he with
  | opened _ _ _ _ =>
    obtain ⟨z, hz, hrest⟩ := h
    exact ⟨z, by rw [Roster.group?_create, hz]; rfl, hrest⟩
  | changed hg hx hc => exact h.update hg hx fun hgc => hc hgc ▸ hgc
  | evicted key other => exact h
  | claimed hg hx _ hc _ _ => exact h.update hg hx fun _ => hc

theorem release (h : Lasts y d) (hg : d.roster.group? g.id = some g) (refusal : Option String) :
    Lasts y (d.release g refusal) :=
  h.update (x := g.clear) hg rfl fun hc => hc

end Lasts

def Finished (id : Nat) (d : Custody) : Prop :=
  ∃ g, d.roster.group? id = some g ∧ g.completed = true

/-- A completed group that lasts stays completed. -/
theorem Finished.of_lasts {id : Nat} {d e : Custody} (h : Finished id d)
    (he : ∀ {g}, Lasts g d → Lasts g e) : Finished id e := by
  obtain ⟨g, hg, hc⟩ := h
  obtain rfl : g.id = id := Roster.id_of_group? hg
  obtain ⟨x, hx, -, hxc⟩ := he ⟨g, hg, rfl, id⟩
  exact ⟨x, hx, hxc hc⟩

/-- A group is completed, and was handed over as often as it will be. -/
structure Spent (id : Nat) (handed : List Result) (d : Custody) : Prop where
  finished : Finished id d
  handed : d.deliveriesOf id = handed

namespace Spent
variable {id : Nat} {handed : List Result} {d e : Custody} {g x : Group}

theorem update (h : Spent id handed d) (hg : d.roster.group? g.id = some g) (hx : x.blank = g.blank)
    (hc : g.completed = true → x.completed = true) : Spent id handed (d.update x) :=
  ⟨h.finished.of_lasts fun hl => hl.update hg hx hc, h.handed⟩

theorem edit (h : Spent id handed d) (he : Edit d e) : Spent id handed e := by
  refine ⟨h.finished.of_lasts fun hl => hl.edit he, ?_⟩
  cases he with
  | opened _ _ _ _ => exact h.handed
  | changed _ _ _ => exact h.handed
  | evicted key other => exact h.handed
  | @claimed g x hg hx hopen _ trigger caller _ =>
    obtain ⟨y, hy, hyc⟩ := h.finished
    have hne : ¬ x.id = id := fun e => by
      rw [← e, id_of_blank hx, hg] at hy
      rw [Option.some.inj hy, hyc] at hopen
      cases hopen
    rw [deliveriesOf_claim, if_neg hne, List.append_nil]
    exact h.handed

theorem release (h : Spent id handed d) (hg : d.roster.group? g.id = some g)
    (refusal : Option String) : Spent id handed (d.release g refusal) :=
  ⟨h.finished.of_lasts fun hl => hl.release hg refusal, h.handed⟩

end Spent

/-! ### Groups that nobody claims by himself -/

/-- Groups that are completed were handed over once, under their own keys, and are not
registered. -/
def Upright (d : Custody) : Prop :=
  ∀ id g, d.roster.group? id = some g → g.completed = true →
    (∃ result, d.deliveriesOf id = [result] ∧ result.key = g.key) ∧
      ∀ key, d.roster.registry.get? key ≠ some id

namespace Upright
variable {d e : Custody} {g x : Group}

/-- A group that is registered collects. -/
theorem collecting (h : Upright d) {key : String} (hr : d.roster.registry.get? key = some g.id)
    (hg : d.roster.group? g.id = some g) : g.completed = false := by
  cases hc : g.completed with
  | false => rfl
  | true => exact absurd hr ((h g.id g hg hc).2 key)

theorem update (h : Upright d) (hg : d.roster.group? g.id = some g) (hx : x.blank = g.blank)
    (hc : x.completed = g.completed) : Upright (d.update x) := by
  intro id y hy hyc
  change (d.roster.update x).group? id = some y at hy
  rw [Roster.group?_changed hg (id_of_blank hx)] at hy
  split at hy
  · next hid =>
    obtain rfl := Option.some.inj hy
    rw [hid, key_of_blank hx]
    exact h g.id g hg (hc ▸ hyc)
  · exact h id y hy hyc

/-- Whatever an operation completes, it hands over. -/
theorem deed (h : Upright d) (hd : Linked d) (ht : Tallied d) (he : Deed d e) : Upright e := by
  cases he with
  | @opened g hk hid _ hc =>
    intro id y hy hyc
    have hold : d.roster.group? id = some y := by
      change (d.roster.create g.key g).group? id = some y at hy
      rw [Roster.group?_create, Option.or_eq_some_iff] at hy
      rcases hy with hy | ⟨-, hy⟩
      · exact hy
      · split at hy
        · rw [← Option.some.inj hy, hc] at hyc
          cases hyc
        · cases hy
    obtain ⟨hhanded, haway⟩ := h id y hold hyc
    have hknown : id < d.roster.nextId :=
      Roster.id_of_group? hold ▸ hd.numbered.id_lt_nextId (Roster.mem_of_group? hold)
    exact ⟨hhanded, (Gone.edit ⟨hknown, haway⟩ (.opened (d := d) hk hid ‹_› hc)).away⟩
  | taken hg hx hopen _ => exact h.update hg hx hopen
  | evicted key other =>
    intro id y hy hyc
    obtain ⟨hhanded, haway⟩ := h id y hy hyc
    exact ⟨hhanded, (Gone.remove (d := d) ⟨Roster.id_of_group? hy ▸
      hd.numbered.id_lt_nextId (Roster.mem_of_group? hy), haway⟩ key other).away⟩
  | @claimed g x hg hx hopen hc trigger caller _ =>
    have hid := id_of_blank hx
    intro id y hy hyc
    change (d.roster.update x).group? id = some y at hy
    rw [Roster.group?_changed hg hid] at hy
    split at hy
    · next hsame =>
      obtain rfl := Option.some.inj hy
      obtain rfl : id = x.id := hsame.trans hid.symm
      have hnone : d.deliveriesOf x.id = [] := ht.unclaimed x.id fun z hz => by
        rw [hid, hg] at hz
        exact Option.some.inj hz ▸ hopen
      refine ⟨⟨Coordinator.resultOf x trigger, ?_, rfl⟩, ?_⟩
      · rw [deliveriesOf_claim, hnone, if_pos rfl]
        rfl
      · have hgx : (d.roster.update x).group? x.id = some x := by
          rw [Roster.group?_changed hg hid, if_pos hid]
        exact (hd.update hg hx).away hgx
    · next hother =>
      obtain ⟨⟨result, hhanded, hkey⟩, haway⟩ := h id y hy hyc
      have hknown : id < d.roster.nextId :=
        Roster.id_of_group? hy ▸ hd.numbered.id_lt_nextId (Roster.mem_of_group? hy)
      refine ⟨⟨result, ?_, hkey⟩, ?_⟩
      · rw [deliveriesOf_claim, if_neg fun e => hother (e.symm.trans hid), List.append_nil]
        exact hhanded
      · have hretired := ((Gone.mk hknown haway).update x).remove x.key x.id
        exact hretired.away

theorem release (h : Upright d) (hg : d.roster.group? g.id = some g) (refusal : Option String) :
    Upright (d.release g refusal) :=
  fun id y hy hyc => (h.update hg (x := g.clear) rfl rfl) id y hy hyc

end Upright

end Custody

open Custody

namespace Act
variable {c : Coordinator} (h : Intact (fun _ => False) c.custody)
include h

theorem gone_apply {id : Nat} (hid : Gone id c.custody) (act : Act) :
    Gone id (act.apply c).custody :=
  (act.apply_custody h).keeps h (fun he => he) (fun _ he hid => hid.edit he)
    (fun refusal _ _ hid => hid.release _ refusal) (fun _ hid => hid.update _) hid

theorem withheld_apply (hd : Withheld c.custody) (act : Act) : Withheld (act.apply c).custody :=
  (act.apply_custody h).keeps h (fun he => he) (fun hd he h => h.edit hd.linked hd.tallied he)
    (fun _ _ _ h => h) (fun _ h => h) hd

theorem lasts_apply {g : Group} (hg : Lasts g c.custody) (act : Act) :
    Lasts g (act.apply c).custody :=
  (act.apply_custody h).keeps h (fun he => he) (fun _ he hl => hl.edit he)
    (fun refusal _ hx hl => hl.release hx refusal) (fun hx hl => hl.update hx rfl fun hc => hc) hg

theorem spent_apply {id : Nat} {handed : List Result} (hid : Spent id handed c.custody)
    (act : Act) : Spent id handed (act.apply c).custody :=
  (act.apply_custody h).keeps h (fun he => he) (fun _ he hid => hid.edit he)
    (fun refusal _ hx hid => hid.release hx refusal)
    (fun hx hid => hid.update hx rfl fun hc => hc) hid

theorem upright_apply (hu : Upright c.custody) {act : Act} (hclaims : act.claims c = false) :
    Upright (act.apply c).custody :=
  (comes_deeds h hclaims).keeps h Deed.edit (fun hd he hu => hu.deed hd.linked hd.tallied he)
    (fun refusal _ hg hu => hu.release hg refusal) (fun hg hu => hu.update hg rfl rfl) hu

end Act

namespace Coordinator
variable {c : Coordinator}

theorem after_gone (h : Intact (fun _ => False) c.custody) {id : Nat} (hid : Gone id c.custody)
    (acts : List Act) : Gone id (after c acts).custody :=
  after_keeps (P := fun c => Gone id c.custody) (fun act h hid => Act.gone_apply h hid act) h hid
    acts

theorem after_lasts (h : Intact (fun _ => False) c.custody) {g : Group} (hg : Lasts g c.custody)
    (acts : List Act) : Lasts g (after c acts).custody :=
  after_keeps (P := fun c => Lasts g c.custody) (fun act h hg => Act.lasts_apply h hg act) h hg acts

theorem withheld_start (settings : Settings) (metrics : Bool) (now : Instant) :
    Withheld (start settings metrics now).custody :=
  fun _ _ _ => rfl

theorem after_withheld (h : Intact (fun _ => False) c.custody) (hd : Withheld c.custody)
    (acts : List Act) : Withheld (after c acts).custody :=
  after_keeps (P := fun c => Withheld c.custody) (fun act h hd => Act.withheld_apply h hd act) h hd
    acts

theorem after_spent (h : Intact (fun _ => False) c.custody) {id : Nat} {handed : List Result}
    (hid : Spent id handed c.custody) (acts : List Act) :
    Spent id handed (after c acts).custody :=
  after_keeps (P := fun c => Spent id handed c.custody) (fun act h hid => Act.spent_apply h hid act)
    h hid acts

/-- Nobody claims a group through a handle. -/
def Unclaimed (c : Coordinator) : List Act → Prop
  | [] => True
  | act :: rest => act.claims c = false ∧ Unclaimed (act.apply c) rest

theorem after_upright (h : Intact (fun _ => False) c.custody) (hu : Upright c.custody)
    {acts : List Act} (hacts : Unclaimed c acts) : Upright (after c acts).custody := by
  induction acts generalizing c with
  | nil => exact hu
  | cons act rest ih =>
    exact ih (Act.intact h fun _ hk => hk.elim) (Act.upright_apply h hu hacts.1) hacts.2

theorem upright_start (settings : Settings) (metrics : Bool) (now : Instant) :
    Upright (start settings metrics now).custody :=
  fun _ _ hg => nomatch hg

end Coordinator

end Aggregation
