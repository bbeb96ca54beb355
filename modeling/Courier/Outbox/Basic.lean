import Courier.Outbox.Message
import Courier.Slots

/-! The outbox: messages that wait for their turn, messages in flight by the
transport's number, and finished messages that somebody waits for, by sequence
number. Each place a message is kept in is one owner of its slot, and so is
everybody who holds on to it outside. -/
namespace Courier

structure Outbox where
  slots : Slots Progress
  /-- A session with the broker is up. -/
  connected : Bool := false
  /-- As long as fewer messages are in flight the next one may be sent. -/
  inFlightLimit : Nat
  /-- Waiting messages, the next one to be sent first. -/
  queue : List Message := []
  inFlight : Table PacketId Message := ∅
  finished : Table Nat Message := ∅

namespace Outbox

def hasRoom (o : Outbox) (p : Priority) : Bool := p.mayEnter o.slots.capacity o.slots.inUse

def isFlightFull (o : Outbox) : Bool := o.inFlightLimit ≤ o.inFlight.size

def progress (o : Outbox) (m : Message) : Progress := (o.slots.value? m.slot).getD {}

/-- One more owner of a message. -/
def share (o : Outbox) (m : Message) : Outbox := { o with slots := o.slots.share m.slot }

/-- One owner of a message less. -/
def release (o : Outbox) (m : Message) : Outbox := { o with slots := o.slots.release m.slot }

def releaseEach (o : Outbox) (ms : List Message) : Outbox := ms.foldl release o

def number (o : Outbox) (m : Message) (id : PacketId) : Outbox :=
  { o with slots := o.slots.update m.slot (·.number id) }

def conclude (o : Outbox) (m : Message) (outcome : Outcome) : Outbox :=
  { o with slots := o.slots.update m.slot (·.conclude outcome) }

/-- Behind the last element that satisfies the test, or in front of all. -/
def insertBehind {α : Type} (p : α → Bool) (x : α) : List α → List α
  | [] => [x]
  | y :: ys => if p y || ys.any p then y :: insertBehind p x ys else x :: y :: ys

/-- Hands a message over to the queue, behind those of its class and above. -/
def enqueue (o : Outbox) (m : Message) : Outbox :=
  { o with queue := insertBehind (fun queued => decide (m.priority ≤ queued.priority)) m o.queue }

/-- Hands a message that has ended over: to whoever waits for it, or to nobody. A
finished message of the same sequence number gives way. -/
def finish (o : Outbox) (m : Message) (outcome : Outcome) : Outbox :=
  if m.sync then
    let concluded := o.conclude m outcome
    let older := o.finished.get? m.seq
    { concluded with finished := o.finished.insert m.seq m }.releaseEach older.toList
  else o.release m

def finishEach (o : Outbox) (ms : List Message) (outcome : Outcome) : Outbox :=
  ms.foldl (·.finish · outcome) o

/-- Hands a finished message over to the caller. -/
def collect? (o : Outbox) (seq : Nat) : Option (Message × Outbox) :=
  (o.finished.get? seq).map fun m => (m, { o with finished := o.finished.erase seq })

/-- Takes out the first element that satisfies the test. -/
def removeFirst {α : Type} (p : α → Bool) : List α → Option (α × List α)
  | [] => none
  | x :: xs => if p x then some (x, xs) else (removeFirst p xs).map fun (y, ys) => (y, x :: ys)

/-- The number under which a message itself is in flight. -/
def flight? (o : Outbox) (m : Message) : Option PacketId :=
  (o.progress m).id.filter fun id => (o.inFlight.get? id).any fun held => held.slot = m.slot

/-- Gives a message up, wherever it is: finished, in flight under its own number,
or waiting. -/
def withdraw (o : Outbox) (m : Message) : Outbox :=
  match o.finished.get? m.seq with
  | some ended => { o with finished := o.finished.erase m.seq }.release ended
  | none =>
    match o.flight? m with
    | some id => { o with inFlight := o.inFlight.erase id }.release m
    | none =>
      match removeFirst (fun queued => decide (queued.slot = m.slot)) o.queue with
      | some (queued, rest) => { o with queue := rest }.release queued
      | none => o

/-- Ends what does not outlive a session; the others keep their places and numbers. -/
def purge (o : Outbox) : Outbox :=
  let lost := o.inFlight.values.filter (!·.qos.outlivesSession)
  let unsent := o.queue.filter (!·.qos.outlivesSession)
  { o with
    inFlight := o.inFlight.retain fun _ m => m.qos.outlivesSession
    queue := o.queue.filter (·.qos.outlivesSession) }.finishEach
    (lost ++ unsent) .connectionLost

/-- Empties all three places. -/
def clear (o : Outbox) : Outbox :=
  { o with queue := [], inFlight := ∅, finished := ∅ }.releaseEach
    (o.queue ++ o.inFlight.values ++ o.finished.values)

end Outbox

end Courier
