import Courier.Client.State

/-! What the transport reports while its loop runs, and how the client answers. -/
namespace Courier

inductive DisconnectCause where
  | clientInitiated
  | serverInitiated (reason : Reason)
  | connectionLost
  deriving DecidableEq

inductive Event where
  /-- The broker answered a dial: it accepted, or refused. -/
  | connected (result : Except Reason Unit)
  | disconnected (cause : DisconnectCause)
  | message (p : Publication)
  | acknowledged (id : PacketId) (reason : Reason)

namespace Shared

variable {σ : Type}

/-- The end of a connection: what does not survive it is dropped. -/
def endSession (s : Shared) : Shared :=
  { s with
    outbox := { s.outbox with connected := false }.purge
    connection := if s.connection = .shutdown then .shutdown else .disconnected }

/-- Repeats one record to a fresh session; a failure is passed over. -/
def renew (w : Wire σ) : Renewal → Wire σ
  | .subscribe filter qos => (w.subscribe filter qos true).2
  | .unsubscribe filter => (w.unsubscribe filter).2

/-- An accepted connection: the subscriptions are repeated, then the queue is
sent as far as room in flight allows. -/
def beginSession (s : Shared) (w : Wire σ) : Shared × Wire σ :=
  let renewed := s.subscriptions.renewals.foldl renew w
  let (outbox, w) := { s.outbox with connected := true }.pump renewed
  ({ s with
      outbox
      connection := .connected
      accepted := true
      subscriptions := s.subscriptions.renewed }, w)

end Shared

namespace Client

variable {σ : Type}

def notify (c : Client σ) (n : Notice) : Client σ := { c with notices := c.notices ++ [n] }

/-- Answers one report of the transport. -/
def hear (c : Client σ) : Event → Client σ
  | .connected (.error _) => c
  | .connected (.ok ()) =>
    let (shared, wire) := c.shared.beginSession c.wire
    let c := { c with shared, wire }
    if c.onConnected then
      c.notify (.connected shared.outbox.connected shared.subscriptions.size)
    else c
  | .disconnected _ => { c with shared := c.shared.endSession }
  | .message p => if c.onMessage then c.notify (.message p) else c
  | .acknowledged id reason =>
    let (outbox, wire) := c.shared.outbox.acknowledge c.wire id reason
    { c with shared := { c.shared with outbox }, wire }

end Client

end Courier
