import Aggregation.Coordinator.Delivery

/-! Completing groups whatever they have collected: on request, all at once, or because their
deadline has come. -/
namespace Aggregation.Coordinator

/-- Claim a group of the roster, unless it is completed. -/
def claim (c : Coordinator) (g : Group) : Option (Group × Trigger) × Coordinator :=
  match g.claim c.now with
  | (none, _) => (none, c)
  | (some trigger, after) =>
    let c := c.setGroup after
    (some (after, trigger), if trigger = .timeout then c.record (.timedOut g.key) else c)

/-- Complete the group under a key. -/
def force (c : Coordinator) (call : Call) (key : String) : Coordinator :=
  match c.group? key with
  | none => (c.record (.missing key)).record (.answered call (.flag false))
  | some g =>
    match c.claim g with
    | (some (g, trigger), c) => c.deliver g trigger (.force call)
    | (none, c) => c.record (.answered call (.flag false))

/-- Complete groups in turn, `done` of the earlier ones having been claimed. -/
def forceEach (call : Call) : (done : Nat) → (rest : List Nat) → Coordinator → Coordinator
  | done, [], c => c.record (.answered call (.count done))
  | done, id :: rest, c =>
    match c.roster.group? id with
    | none => forceEach call done rest c
    | some g =>
      match c.claim g with
      | (some (g, trigger), c) => c.deliver g trigger (.drain call done rest)
      | (none, c) => forceEach call done rest c

/-- An order in which the groups of a registry are visited. -/
structure Visiting where
  arrange : List Nat → List Nat
  perm : ∀ ids, (arrange ids).Perm ids

/-- The order of registration. -/
def Visiting.registration : Visiting :=
  ⟨id, List.Perm.refl⟩

/-- Complete every group that is live now, in an order that nothing determines. -/
def drainIn (c : Coordinator) (call : Call) (order : Visiting) : Coordinator :=
  forceEach call 0 (order.arrange c.roster.registry.ids) c

/-- Complete every group that is live now, in the order of registration. -/
def drain (c : Coordinator) (call : Call) : Coordinator :=
  c.drainIn call .registration

/-! ### Deadlines -/

/-- Handle a deadline that fired: the group it was scheduled for is completed if it is still the
one under its key. -/
def expire (c : Coordinator) (d : Deadline) : Coordinator :=
  match c.group? d.key with
  | none => c.record (.stale d)
  | some g =>
    if g.id = d.group then
      match c.claim g with
      | (some (g, trigger), c) => c.deliver g trigger .expiry
      | (none, c) => c
    else c.record (.stale d)

/-- Handle the deadline that fired first among those not handled. -/
def expireNext (c : Coordinator) : Coordinator :=
  match c.expired with
  | [] => c
  | d :: rest => {c with expired := rest}.expire d

/-- Fire what is left of the sweep. -/
def fireAll (c : Coordinator) : Coordinator :=
  let (fired, scheduler) := c.scheduler.finish (fun _ => []) c.scheduler.sweep.length
  { c with
    scheduler
    expired := c.expired ++ fired
    history := c.history ++ fired.map .fired }

/-- Let time pass; everything due then fires, all that was sent having been received. What fired may
be handled in any order. -/
def advance (c : Coordinator) (ms : Nat) : Coordinator :=
  let now := c.now + ms
  {c with now, scheduler := c.scheduler.receiveAll.begin now}.fireAll

/-- Stop the scheduler: groups complete by count only from here on. -/
def stop (c : Coordinator) : Coordinator :=
  {c with scheduler := c.scheduler.stop}

end Aggregation.Coordinator
