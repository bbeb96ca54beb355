import Courier.Client.Events

/-! The network thread: it looks for a broker that can be reached, runs the
transport's loop while the connection lasts, and pauses after every round in
which no connection was accepted. Each step is one stretch under the lock or one
transport call, so that anything may happen between two of them. -/
namespace Courier.Client

variable {σ : Type}

/-- Begins a round, or falls asleep: without a candidate, or for a pause. -/
def beginRound (c : Client σ) (pause : Option Duration) : Client σ :=
  if !c.isRunning then { c with network := .stopped }
  else if c.shared.brokers.isEmpty || pause.isSome then { c with network := .asleep pause }
  else
    { c with
      network := .choosing
      shared := { c.shared with connection := .connecting, accepted := false } }

/-- The broker in use is dialled first, if it is still registered. -/
def chooseBroker (c : Client σ) : Client σ :=
  if c.shared.lastReached.any c.shared.brokers.contains then { c with network := .reconnecting }
  else { c with network := .listing }

def dialAgain (c : Client σ) : Client σ :=
  match c.wire.reconnect with
  | (.ok (), wire) => { c with wire, network := .opened }
  | (.error _, wire) => { c with wire, network := .listing }

/-- Dials the next candidate; without one the round has failed. -/
def dial (c : Client σ) (last : TransportFault) : List (BrokerId × Broker) → Client σ
  | [] => { c with network := .unreached last }
  | (id, broker) :: rest =>
    match c.wire.connect broker c.terms with
    | (.ok (), wire) => { c with wire, network := .reached id }
    | (.error fault, wire) => { c with wire, network := .dialling rest fault }

/-- After a round: the count of failed attempts starts again, or one more is
counted and its pause is due. -/
def settleRound (c : Client σ) (accepted : Bool) : Client σ :=
  if !c.isRunning then { c with network := .stopped }
  else if accepted then { c with retry := c.retry.succeed, network := .settled none }
  else { c with retry := c.retry.fail, network := .settled (some c.retry.fail.pause) }

/-- One step of the network thread. Asleep, inside the transport's loop and once
stopped it takes none by itself. -/
def advance (c : Client σ) : Client σ :=
  match c.network with
  | .resting pause => c.beginRound pause
  | .asleep _ => c
  | .choosing => c.chooseBroker
  | .reconnecting => c.dialAgain
  | .listing => { c with network := .dialling c.shared.brokers.entries .notConnected }
  | .dialling rest last => c.dial last rest
  | .reached id =>
    { c with network := .opened, shared := { c.shared with lastReached := some id } }
  | .unreached _ => { c with network := .settling false }
  | .opened => { c with network := if c.isRunning then .entering else .stopped }
  | .entering =>
    if c.isRunning then { c with wire := c.wire.run c.terms.keepAlive, network := .running }
    else { c with network := .ended }
  | .running => c
  | .ended =>
    { c with
      network :=
        if c.shared.outbox.connected then .lost c.shared.accepted
        else .settling c.shared.accepted }
  | .lost accepted => { c with shared := c.shared.endSession, network := .settling accepted }
  | .settling accepted => c.settleRound accepted
  | .settled pause =>
    let connection :=
      if c.shared.connection = .connecting then .disconnected else c.shared.connection
    { c with shared := { c.shared with connection }, network := .resting pause }
  | .stopped => c

/-- The sleeping network thread is woken, or its time is up. -/
def wake (c : Client σ) : Client σ :=
  match c.network with
  | .asleep _ => { c with network := .resting none }
  | _ => c

/-- The transport's loop returns; unless it failed it is entered again. -/
def leaveLoop (c : Client σ) (failed : Bool) : Client σ :=
  match c.network with
  | .running => { c with network := if failed then .ended else .entering }
  | _ => c

def hangUp (c : Client σ) : Client σ :=
  { c with wire := (c.wire.disconnect .disconnectWithWillMessage (some .zero)).2 }

/-- One step of a shutdown. It waits for the network thread to stop, and leaves
nothing behind. -/
def shutDown (c : Client σ) : Client σ :=
  match c.closing with
  | .alive => { c with isRunning := false, closing := .hangingUp }
  | .hangingUp => { c.hangUp with closing := .joining }
  | .joining =>
    match c.network with
    | .stopped => { c with closing := .hangingUpAgain }
    | _ => c
  | .hangingUpAgain => { c.hangUp with closing := .clearing }
  | .clearing =>
    { c with
      closing := .closed
      shared := { c.shared with
        connection := .shutdown
        outbox := { c.shared.outbox with connected := false }.clear } }
  | .closed => c

end Courier.Client
