import WebMigration.Progress.Event
import WebMigration.Failure.Run
import WebMigration.Spec.Basic

/-!
# Delivering progress events

The latest events of each job are kept, and handed to everyone who subscribes later; every event goes
to all subscribers of its job.  A subscriber that fails keeps no other one from getting an event.
-/

namespace WebMigration.Progress

/-- Someone who gets the events of a job. -/
structure Subscriber (σ : Type) where
  id : Nat
  receive : Message → Run σ Unit

/-- The largest number of events that a buffer can be made for. -/
def largestCapacity : Int := 9223372036854775807

/-- What is wrong with the number of events that a buffer is to keep. -/
def capacityFault? (capacity : Int) : Option Fault :=
  if capacity < -largestCapacity - 1 || largestCapacity < capacity then some (.of .overflow "")
  else if capacity < 0 then some (.value "maxlen must be non-negative")
  else none

/-- The events kept and the subscribers, job by job. -/
structure Sink (σ : Type) where
  /-- The number of events kept for each job. -/
  capacity : Int := 100
  buffers : Table (List Message) := []
  subscribers : Table (List (Subscriber σ)) := []

namespace Sink

variable {σ : Type}

/-- The events kept for a job, oldest first. -/
def events (s : Sink σ) (jobId : String) : List Message := (s.buffers.get? jobId).getD []

/-- The subscribers of a job, in the order in which they came. -/
def subscribersOf (s : Sink σ) (jobId : String) : List (Subscriber σ) :=
  (s.subscribers.get? jobId).getD []

/-- The last items of a list, at most as many as there is room for. -/
def latest {α : Type} (capacity : Nat) (items : List α) : List α := items.drop (items.length - capacity)

/-- The sink that has kept an event of a job. -/
def keep (s : Sink σ) (jobId : String) (m : Message) : Sink σ :=
  { s with buffers := s.buffers.put jobId (latest s.capacity.toNat (s.events jobId ++ [m])) }

/-- Hands an event to subscribers one after the other. -/
def deliver (m : Message) : List (Subscriber σ) → Run σ Unit
  | [] => pure ()
  | s :: rest => do
      let _ ← Run.attempt (s.receive m)
      deliver m rest

/-- Keeps an event of a job and hands it to the subscribers.  Where no buffer can be made for the job,
no one gets the event. -/
def emit (s : Sink σ) (jobId : String) (m : Message) : Run σ (Sink σ) :=
  match capacityFault? s.capacity with
  | some fault => Run.raise fault
  | none => do
      deliver m (s.subscribersOf jobId)
      return s.keep jobId m

/-- The sink with one more subscriber of a job, and the events that the subscriber has to get. -/
def subscribe (s : Sink σ) (jobId : String) (who : Subscriber σ) : Sink σ × List Message :=
  ({ s with subscribers := s.subscribers.put jobId (s.subscribersOf jobId ++ [who]) }, s.events jobId)

/-- Hands the kept events to a new subscriber; a failure of the subscriber ends this. -/
def replay (who : Subscriber σ) : List Message → Run σ Unit
  | [] => pure ()
  | m :: rest => do
      who.receive m
      replay who rest

/-- The list without the first subscription of someone. -/
def withoutFirst (id : Nat) : List (Subscriber σ) → List (Subscriber σ)
  | [] => []
  | s :: rest => if s.id == id then rest else s :: withoutFirst id rest

/-- The sink without a subscription. -/
def unsubscribe (s : Sink σ) (jobId : String) (id : Nat) : Sink σ :=
  { s with subscribers := s.subscribers.put jobId (withoutFirst id (s.subscribersOf jobId)) }

/-- The sink without the events and the subscribers of a job. -/
def clear (s : Sink σ) (jobId : String) : Sink σ :=
  { s with buffers := s.buffers.erase jobId, subscribers := s.subscribers.erase jobId }

end Sink

end WebMigration.Progress
