import Courier.Outbox.Sending
import Courier.Retry
import Courier.Subscriptions

/-! The state of a client: what its callers and its network thread share under
one lock, where the network thread is, where each blocked publisher is, and how
far a shutdown has come. -/
namespace Courier

inductive Connection where
  | disconnected
  | connecting
  | connected
  | shutdown
  deriving DecidableEq

/-- What the lock protects. -/
structure Shared where
  outbox : Outbox
  connection : Connection := .disconnected
  /-- A connection has been accepted since the last round began. -/
  accepted : Bool := false
  subscriptions : Subscriptions := ∅
  brokers : Table BrokerId Broker := ∅
  /-- The registration of the last broker that was reached. -/
  lastReached : Option BrokerId := none

structure Stats where
  capacity : Nat
  inUse : Nat
  queued : Nat
  inFlight : Nat
  finished : Nat
  subscriptions : Nat
  brokers : Nat
  deriving DecidableEq

def Shared.stats (s : Shared) : Stats where
  capacity := s.outbox.slots.capacity
  inUse := s.outbox.slots.inUse
  queued := s.outbox.queue.length
  inFlight := s.outbox.inFlight.size
  finished := s.outbox.finished.size
  subscriptions := s.subscriptions.size
  brokers := s.brokers.size

/-- Where the network thread is. -/
inductive Network where
  /-- About to look whether a round may begin, with a pause still to be made. -/
  | resting (pause : Option Duration)
  /-- Waits to be woken, or for the time limit. -/
  | asleep (limit : Option Duration)
  /-- A round has begun. -/
  | choosing
  /-- About to dial the broker in use. -/
  | reconnecting
  /-- About to list the candidates. -/
  | listing
  /-- About to dial the first of these candidates. -/
  | dialling (rest : List (BrokerId × Broker)) (last : TransportFault)
  /-- A candidate was reached; it is not yet noted as the one in use. -/
  | reached (id : BrokerId)
  /-- No candidate was reached. -/
  | unreached (last : TransportFault)
  /-- A broker was reached. -/
  | opened
  /-- About to enter the transport's loop. -/
  | entering
  /-- Inside the transport's loop. -/
  | running
  /-- The transport's loop is over. -/
  | ended
  /-- The loop is over and the disconnection is still to be handled. -/
  | lost (accepted : Bool)
  /-- The round is over. -/
  | settling (accepted : Bool)
  /-- The pause is known, the state not yet put right. -/
  | settled (pause : Option Duration)
  | stopped

/-- Where the caller of a synchronous publish is. -/
inductive Publisher where
  | awaitingRoom (p : Publication)
  | awaitingOutcome (m : Message)
  | finished (result : Except ClientFault Unit)

/-- How far a shutdown has come. -/
inductive Closing where
  | alive
  | hangingUp
  | joining
  | hangingUpAgain
  | clearing
  | closed
  deriving DecidableEq

/-- What the registered callbacks have been told. -/
inductive Notice where
  /-- Accepted, with the connected flag and the number of subscriptions seen then. -/
  | connected (isConnected : Bool) (subscriptions : Nat)
  | message (p : Publication)
  deriving DecidableEq

structure Client (σ : Type) where
  terms : SessionTerms
  onMessage : Bool
  onConnected : Bool
  shared : Shared
  wire : Wire σ
  /-- The number of the next publication. It is kept in 64 bits, which fewer than 2^64
  publications are assumed to leave large enough. -/
  nextSeq : Nat := 0
  isRunning : Bool := true
  network : Network := .resting none
  retry : Retry
  publishers : Table Nat Publisher := ∅
  closing : Closing := .alive
  notices : List Notice := []

namespace Publisher

def isBlocked : Publisher → Bool
  | awaitingRoom _ | awaitingOutcome _ => true
  | finished _ => false

end Publisher

namespace Client

variable {σ : Type}

/-- The terms every session is opened with. -/
def sessionTerms (o : Options) : SessionTerms where
  clientId := o.clientId
  keepAlive := o.keepAlive
  sessionExpiry := o.sessionExpiry
  will := o.lastWill
  tcpNodelay := true

/-- A new client on an idle wire; its network thread is about to start. -/
def create (o : Options) (wire : Wire σ) : Except ClientFault (Client σ) := do
  o.check.mapError OptionsFault.clientFault
  match Slots.ofCapacity? o.capacity with
  | none => .error (.invalidOptions "message capacity is zero")
  | some slots =>
    .ok {
      terms := sessionTerms o
      onMessage := o.onMessage
      onConnected := o.onConnected
      shared := { outbox := { slots, inFlightLimit := o.inFlightLimit } }
      wire
      retry := { step := o.reconnectStep, longest := o.reconnectMax } }

end Client

end Courier
