import Aggregation.Policy

/-! Groups: the messages collected under one correlation key.

A group takes messages until it is completed or holds as many as it may. It is completed once: by
an offer that satisfies the policy, by force, or by being marked; whoever completes it has claimed
it and is to finalize it. Clearing releases the messages and nothing else. -/
namespace Aggregation

/-- What a group is created with. A timeout of zero is none. -/
structure Params where
  timeout : Nat
  min : Int
  max : Int

def Params.none : Params := ⟨0, 0, 0⟩

/-- Whether the clock can name the deadline of a group that is created now. -/
def Params.Fits (p : Params) (now : Instant) : Prop :=
  p.timeout = 0 ∨ now + (p.timeout : Nat) ≤ Instant.last

instance (p : Params) (now : Instant) : Decidable (p.Fits now) :=
  inferInstanceAs (Decidable (_ ∨ _))

/-- Where a group's messages go when it is finalized. -/
structure Outlet where
  /-- The name of the completion sink. -/
  sink : String
  /-- Whether the sink takes note of what it is handed. -/
  recorded : Bool
  /-- Whether failures have a fault sink to go to. -/
  hasFaultSink : Bool

structure Group where
  id : Nat
  key : String
  /-- Milliseconds from creation to the deadline. -/
  timeout : Option Nat
  created : Instant
  policy : Policy
  outlet : Outlet
  completed : Bool
  messages : List Message

/-- What became of an offered message. -/
inductive Offer where
  | pending
  | claimed (trigger : Trigger)
  | rejected (message : Message) (fault : Fault)
  | late (message : Message)

/-- A group as seen from outside at a point of time. -/
structure Snapshot where
  key : String
  id : Nat
  messages : Nat
  min : Option Nat
  max : Option Nat
  /-- Milliseconds left before the deadline, zero once it has passed. -/
  expiresIn : Option Nat
  completed : Bool

namespace Group

/-- A group that has collected nothing; its deadline is fixed here. The clock is taken to go that
far (`Params.Fits`). -/
def create (id : Nat) (key : String) (params : Params) (property : String) (outlet : Outlet)
    (now : Instant) : Group :=
  let timeout := if params.timeout = 0 then none else some params.timeout
  { id, key, timeout, created := now
    policy := Policy.ofCounts property params.min params.max (timeout.map fun (t : Nat) => now + t)
    outlet, completed := false, messages := [] }

/-- Whether another message fits. -/
def hasCapacity (g : Group) : Bool :=
  match g.policy.max with
  | some max => Nat.blt g.messages.length max
  | none => true

/-- Append a message, unless the group is completed or full. -/
def add (g : Group) (m : Message) : Bool × Group :=
  if g.completed || !g.hasCapacity then (false, g)
  else (true, {g with messages := g.messages ++ [m]})

/-- The policy's decision; nothing is left to be decided about a completed group. -/
def evaluate (g : Group) (now : Instant) : Completion :=
  if g.completed then .incomplete else g.policy.evaluate g.messages now

/-- Complete the group; whether this call did it. -/
def mark (g : Group) : Bool × Group :=
  (!g.completed, {g with completed := true})

/-- Append a message and claim the group if the policy is now satisfied. -/
def offer (g : Group) (m : Message) (now : Instant) : Offer × Group :=
  if g.completed then (.late m, g)
  else if !g.hasCapacity then
    (.rejected m (.groupFull g.key (g.policy.max.getD 0) m.id), g)
  else
    let g := {g with messages := g.messages ++ [m]}
    match g.policy.evaluate g.messages now with
    | .complete trigger => (.claimed trigger, {g with completed := true})
    | .incomplete => (.pending, g)

/-- Claim the group whatever it holds, unless it is completed. -/
def claim (g : Group) (now : Instant) : Option Trigger × Group :=
  if g.completed then (none, g)
  else (some (if g.policy.isExpired now then .timeout else .forced), {g with completed := true})

/-- The message that came last. -/
def last (g : Group) : Except Fault Message :=
  match g.messages.getLast? with
  | some m => .ok m
  | none => .error (.emptyGroup g.key)

def clear (g : Group) : Group :=
  {g with messages := []}

def snapshot (g : Group) (now : Instant) : Snapshot :=
  { key := g.key, id := g.id, messages := g.messages.length
    min := g.policy.min, max := g.policy.max
    expiresIn := g.policy.expiry.map fun deadline => (deadline - now).toNat
    completed := g.completed }

/-! ### Calls on a group -/

/-- What can be asked of a group that is handed out. -/
inductive Call where
  | add (m : Message)
  | offer (m : Message)
  | evaluate
  | mark
  | claim
  | last
  | messages
  | clear
  | snapshot
  | info

inductive Answer where
  | done
  | flag (b : Bool)
  | offered (offer : Offer)
  | completion (c : Completion)
  | claimed (trigger : Option Trigger)
  | last (m : Except Fault Message)
  | messages (ms : List Message)
  | snapshot (s : Snapshot)
  | info (g : Group)

def call (g : Group) (now : Instant) : Call → Answer × Group
  | .add m => let (b, g) := g.add m; (.flag b, g)
  | .offer m => let (o, g) := g.offer m now; (.offered o, g)
  | .evaluate => (.completion (g.evaluate now), g)
  | .mark => let (b, g) := g.mark; (.flag b, g)
  | .claim => let (t, g) := g.claim now; (.claimed t, g)
  | .last => (.last g.last, g)
  | .messages => (.messages g.messages, g)
  | .clear => (.done, g.clear)
  | .snapshot => (.snapshot (g.snapshot now), g)
  | .info => (.info g, g)

/-! ### What is said about a call -/

def keyNote (g : Group) (message : String) : Log.Record :=
  ⟨.debug, "conflux_runtime::group", message, [("key", .plain g.key)]⟩

/-- What an offer says. -/
def offerNotes (g : Group) (m : Message) (now : Instant) : List Log.Record :=
  if g.completed then
    [g.keyNote "Aggregation already completed - message will not be aggregated"]
  else if !g.hasCapacity then []
  else g.policy.notes (g.messages ++ [m]) now

def notes (g : Group) (now : Instant) : Call → List Log.Record
  | .offer m => g.offerNotes m now
  | .evaluate =>
    if g.completed then [g.keyNote "Aggregation already completed"]
    else g.policy.notes g.messages now
  | _ => []

end Group

end Aggregation
