import Aggregation.Coordinator.Delivery

/-! Admitting messages.

A message goes to the group under its key, which is created if there is none and replaced if it is
completed. A group that the message completes is delivered, and the call is answered when the
sink has answered; every other call is answered at once. -/
namespace Aggregation.Coordinator

/-! ### Opening groups -/

/-- Create the group for a key and ask for its deadline. -/
def create (c : Coordinator) (key : String) (params : Params) : Group × Coordinator :=
  let g := Group.create c.roster.nextId key params (sequenceProperty c.settings.aggregator)
    c.outlet c.now
  let c := ({c with roster := c.roster.create key g}.count Metrics.recordCreated).record (.opened g)
  match g.policy.expiry with
  | some due => (g, c.schedule ⟨key, g.id, due⟩)
  | none => (g, c)

/-- What comes of asking for a group. -/
inductive Opening where
  | handed (g : Group) (c : Coordinator)
  /-- A new group would have a deadline that the clock cannot name; the call panics before there is
  such a group. -/
  | panicked (c : Coordinator)

/-- Hand out a new group for a key. -/
def make (c : Coordinator) (key : String) (params : Params) : Opening :=
  if params.Fits c.now then .handed (c.create key params).1 (c.create key params).2
  else .panicked c

/-- The collecting group under a key: the one that is there, or a new one. A completed group is
evicted on one pass and replaced on the next; `none` if there are no passes left. -/
def openWithin : (passes : Nat) → (key : String) → (params : Params) → Coordinator →
    Option Opening
  | 0, _, _, _ => none
  | passes + 1, key, params, c =>
    match c.group? key with
    | none => some (c.make key params)
    | some g =>
      if g.completed then
        openWithin passes key params ((c.record (.replaced key g.id)).evict key g.id)
      else some (.handed g c)

/-- Two passes suffice. A call that panics comes to nothing; what is said here of a group whose
deadline the clock cannot name is what a clock without end would make of it. -/
def openGroup (c : Coordinator) (key : String) (params : Params) : Group × Coordinator :=
  match openWithin 2 key params c with
  | some (.handed g c) => (g, c)
  | some (.panicked c) => c.create key params
  | none => c.create key params

/-! ### Messages -/

/-- What comes of placing a message: an outcome, or a group that was claimed and is to be
finalized. -/
inductive Placement where
  | settled (outcome : Outcome)
  | claimed (g : Group) (trigger : Trigger)

/-- Offer a message to the group under a key. -/
def place (c : Coordinator) (key : String) (m : Message) (params : Params) :
    Placement × Coordinator :=
  let (g, c) := c.openGroup key params
  let (offer, after) := g.offer m c.now
  let c := (c.record (.offered g m c.now)).setGroup after
  match offer with
  | .pending => (.settled .pending, c)
  | .claimed trigger => (.claimed after trigger, c)
  | .rejected m fault =>
    (.settled .rejected, (c.record (.rejected key fault)).fault after.outlet m fault)
  | .late m =>
    (.settled (.late m), (c.record (.late key m)).count Metrics.recordLate)

/-- Offer a message to the group under the key that it carries. -/
def placeCorrelated (c : Coordinator) (m : Message) (params : Params) : Placement × Coordinator :=
  match m.correlationKey? c.settings.aggregator with
  | some key => c.place key m params
  | none => (.settled (.uncorrelated m), c.record (.uncorrelated m))

/-- Finish a call that admits one message. -/
def settleAdmission (call : Call) : Placement × Coordinator → Coordinator
  | (.settled outcome, c) => c.record (.answered call (.outcome outcome))
  | (.claimed g trigger, c) => c.deliver g trigger (.admission call)

def submit (c : Coordinator) (call : Call) (key : String) (m : Message) (params : Params) :
    Coordinator :=
  settleAdmission call (c.place key m params)

def submitCorrelated (c : Coordinator) (call : Call) (m : Message) (params : Params) : Coordinator :=
  settleAdmission call (c.placeCorrelated m params)

/-- Admit messages in turn, each under the key that it carries, the outcomes of earlier ones
being known. -/
def submitEach (call : Call) (params : Params) : (done : List Outcome) → (rest : List Message) →
    Coordinator → Coordinator
  | done, [], c => c.record (.answered call (.outcomes done))
  | done, m :: rest, c =>
    match c.placeCorrelated m params with
    | (.settled outcome, c) => submitEach call params (done ++ [outcome]) rest c
    | (.claimed g trigger, c) => c.deliver g trigger (.siblings call params done rest)

end Aggregation.Coordinator
