import Courier.Broker
import Courier.Options.Basic

/-! The transport underneath the client: the calls it takes, with results that
depend on a state of its own in any way, and the log of all calls made. -/
namespace Courier

/-- The number the transport gives to a message in flight. -/
abbrev PacketId := UInt32

structure SessionTerms where
  clientId : String
  keepAlive : Duration
  sessionExpiry : Duration
  will : Option Will
  tcpNodelay : Bool
  deriving DecidableEq

/-- A transport with states in `σ`. -/
structure Transport (σ : Type) where
  connect : Broker → SessionTerms → σ → Except TransportFault Unit × σ
  /-- Dials the broker of the last successful `connect`. -/
  reconnect : σ → Except TransportFault Unit × σ
  publish : Publication → σ → Except TransportFault PacketId × σ
  subscribe (filter : String) (qos : QoS) (noLocal : Bool) : σ → Except TransportFault Unit × σ
  unsubscribe (filter : String) : σ → Except TransportFault Unit × σ
  disconnect : Reason → Option Duration → σ → Except TransportFault Unit × σ

/-- One call with its result. -/
inductive Call where
  | connect (broker : Broker) (terms : SessionTerms) (result : Except TransportFault Unit)
  | reconnect (result : Except TransportFault Unit)
  | run (timeout : Duration)
  | publish (publication : Publication) (result : Except TransportFault PacketId)
  | subscribe (filter : String) (qos : QoS) (noLocal : Bool) (result : Except TransportFault Unit)
  | unsubscribe (filter : String) (result : Except TransportFault Unit)
  | disconnect (reason : Reason) (expiry : Option Duration) (result : Except TransportFault Unit)

/-- A transport in its present state, with the calls made so far, oldest first. -/
structure Wire (σ : Type) where
  transport : Transport σ
  state : σ
  calls : List Call := []

namespace Wire

variable {σ : Type}

/-- The wire after a call that left the transport in state `s`. -/
def after (w : Wire σ) (s : σ) (call : Call) : Wire σ :=
  { w with state := s, calls := w.calls ++ [call] }

def connect (w : Wire σ) (broker : Broker) (terms : SessionTerms) :
    Except TransportFault Unit × Wire σ :=
  let (result, s) := w.transport.connect broker terms w.state
  (result, w.after s (.connect broker terms result))

def reconnect (w : Wire σ) : Except TransportFault Unit × Wire σ :=
  let (result, s) := w.transport.reconnect w.state
  (result, w.after s (.reconnect result))

/-- Enters the transport's loop, which reads packets until it returns. -/
def run (w : Wire σ) (timeout : Duration) : Wire σ := w.after w.state (.run timeout)

def publish (w : Wire σ) (publication : Publication) : Except TransportFault PacketId × Wire σ :=
  let (result, s) := w.transport.publish publication w.state
  (result, w.after s (.publish publication result))

def subscribe (w : Wire σ) (filter : String) (qos : QoS) (noLocal : Bool) :
    Except TransportFault Unit × Wire σ :=
  let (result, s) := w.transport.subscribe filter qos noLocal w.state
  (result, w.after s (.subscribe filter qos noLocal result))

def unsubscribe (w : Wire σ) (filter : String) : Except TransportFault Unit × Wire σ :=
  let (result, s) := w.transport.unsubscribe filter w.state
  (result, w.after s (.unsubscribe filter result))

def disconnect (w : Wire σ) (reason : Reason) (expiry : Option Duration) :
    Except TransportFault Unit × Wire σ :=
  let (result, s) := w.transport.disconnect reason expiry w.state
  (result, w.after s (.disconnect reason expiry result))

end Wire

end Courier
