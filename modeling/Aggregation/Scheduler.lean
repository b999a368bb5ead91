import Aggregation.Log.Record
import Aggregation.Policy

/-! The scheduler: one dispatcher for the deadlines of all groups.

Whoever schedules a deadline sends it to the dispatcher over a channel. The dispatcher takes one turn
after the other: it receives the oldest deadline of the channel into its heap, or it sweeps the heap
and fires what is due there, in order of deadline, equal deadlines in the order in which they were
sent. Where both are possible nothing determines which one it does. A sweep takes what is in the
heap when it begins; what is still in the channel, or is sent meanwhile, waits for a later sweep,
however early its deadline. Stopping discards everything for good. -/
namespace Aggregation

/-- A deadline of a group. -/
structure Deadline where
  key : String
  group : Nat
  due : Instant
  deriving DecidableEq

structure Scheduler where
  name : String
  /-- What was sent and is not received, the oldest first. -/
  channel : List Deadline
  /-- What was received and is in no sweep, in the order in which it is to fire. -/
  heap : List Deadline
  /-- What is left of the sweep under way. -/
  sweep : List Deadline
  pending : Nat
  fired : Nat
  stopped : Bool

namespace Scheduler

def start (name : String) : Scheduler :=
  ⟨name, [], [], [], 0, 0, false⟩

/-- Arrange for a deadline to fire; a scheduler that is stopped drops it. -/
def schedule (s : Scheduler) (d : Deadline) : Scheduler :=
  if s.stopped then s else {s with channel := s.channel ++ [d], pending := s.pending + 1}

def stop (s : Scheduler) : Scheduler :=
  {s with channel := [], heap := [], sweep := [], pending := 0, stopped := true}

/-! ### The dispatcher -/

/-- Put a deadline behind all that are not later. -/
def enqueue (d : Deadline) : List Deadline → List Deadline
  | [] => [d]
  | e :: rest => if e.due ≤ d.due then e :: enqueue d rest else d :: e :: rest

/-- Receive the oldest deadline of the channel, unless a sweep is under way. -/
def receive (s : Scheduler) : Scheduler :=
  match s.sweep, s.channel with
  | [], d :: rest => {s with channel := rest, heap := enqueue d s.heap}
  | _, _ => s

/-- What waits outside the sweep, as it will stand in the heap when all of it is received. -/
def queue (s : Scheduler) : List Deadline :=
  s.channel.foldl (fun heap d => enqueue d heap) s.heap

/-- Receive all that was sent, unless a sweep is under way. -/
def receiveAll (s : Scheduler) : Scheduler :=
  match s.sweep with
  | [] => {s with channel := [], heap := s.queue}
  | _ => s

/-- Begin a sweep with everything in the heap that is due, unless one is under way. -/
def begin (s : Scheduler) (now : Instant) : Scheduler :=
  match s.sweep with
  | [] => {s with
      sweep := s.heap.takeWhile fun d => decide (d.due ≤ now)
      heap := s.heap.dropWhile fun d => decide (d.due ≤ now)}
  | _ => s

/-- Fire the next deadline of the sweep, if any is left. -/
def fire? (s : Scheduler) : Option (Deadline × Scheduler) :=
  match s.sweep with
  | [] => none
  | d :: rest => some (d, {s with sweep := rest, pending := s.pending - 1, fired := s.fired + 1})

/-! ### Callbacks -/

/-- What a callback asks of the scheduler that called it. -/
inductive Request where
  | schedule (d : Deadline)
  | stop

def request (s : Scheduler) : Request → Scheduler
  | .schedule d => s.schedule d
  | .stop => s.stop

/-- Finish the sweep: fire what is left of it and do what the callback asks each time. The fuel
bounds the firings. -/
def finish (s : Scheduler) (callback : Deadline → List Request) : (fuel : Nat) →
    List Deadline × Scheduler
  | 0 => ([], s)
  | fuel + 1 =>
    match s.fire? with
    | none => ([], s)
    | some (d, s) =>
      let (fired, s) := finish ((callback d).foldl request s) callback fuel
      (d :: fired, s)

/-- Go on until nothing is left to do, receiving all that was sent before each sweep. The fuel bounds
the sweeps. -/
def settle (s : Scheduler) (callback : Deadline → List Request) (now : Instant) : (fuel : Nat) →
    List Deadline × Scheduler
  | 0 => ([], s)
  | fuel + 1 =>
    let s := s.receiveAll.begin now
    match s.sweep with
    | [] => ([], s)
    | batch =>
      let (fired, s) := s.finish callback batch.length
      let (more, s) := s.settle callback now fuel
      (fired ++ more, s)

/-! ### What is said -/

def note (level : Log.Level) (message : String) (details : List (String × Log.Detail)) : Log.Record :=
  ⟨level, "conflux_runtime::scheduler", message, details⟩

def startedNote (name : String) : Log.Record :=
  note .info ("Expiry scheduler '" ++ name ++ "' started") []

def firedNote (d : Deadline) : Log.Record :=
  note .debug "Aggregation deadline elapsed" [("key", .plain d.key), ("group_id", .number d.group)]

def droppedNote (name : String) : Log.Record :=
  note .debug ("Expiry scheduler '" ++ name ++ "' is stopped, deadline dropped") []

end Scheduler

end Aggregation
