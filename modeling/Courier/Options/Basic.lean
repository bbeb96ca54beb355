import Courier.Duration.Text
import Courier.Fault
import Courier.Publication

/-! The client's settings, the bounds they have to meet, and the last will that
a session is opened with. -/
namespace Courier

/-- What the broker publishes for a client that went away for good. -/
structure Will where
  topic : String
  payload : Bytes := []
  qos : QoS := .atLeastOnce
  retain : Bool := false
  properties : Option Properties := none
  delay : Duration := .zero
  deriving DecidableEq

structure Options where
  clientId : String
  capacity : Nat := 256
  inFlightLimit : Nat := 20
  sessionExpiry : Duration := .ofSecs 600
  keepAlive : Duration := .ofSecs 60
  reconnectStep : Duration := .ofSecs 1
  reconnectMax : Duration := .ofSecs 30
  will : Option Will := none
  /-- Whether a callback for received messages is registered. -/
  onMessage : Bool := false
  /-- Whether a callback for accepted connections is registered. -/
  onConnected : Bool := false
  deriving DecidableEq

inductive OptionsFault where
  | emptyClientId
  | capacity (n : Nat)
  | inFlightLimit (n : Nat)
  | sessionExpiry (secs : Nat)
  | keepAlive (secs : Nat)
  | reconnectDelay (step max : Duration)
  | willTopic (fault : TopicFault)
  deriving DecidableEq

namespace Options

def capacityLimit : Nat := 2048

/-- The longest session expiry in seconds: doubled it still fits in 32 bits. -/
def maxExpirySecs : Nat := 2147483647

def maxKeepAliveSecs : Nat := 65535

/-- The client id made up from a random token when none is given. -/
def generatedId (token : Bytes) : String := "herald-" ++ Text.hexBytes token

/-- The defaults, with a generated client id. -/
def standard (token : Bytes) : Options := { clientId := generatedId token }

/-- Reports the first fault, in the order of the fields. -/
def check (o : Options) : Except OptionsFault Unit :=
  if o.clientId.isEmpty then .error .emptyClientId
  else if o.capacity < 1 ∨ capacityLimit < o.capacity then
    .error (.capacity o.capacity)
  else if o.inFlightLimit < 1 ∨ capacityLimit < o.inFlightLimit then
    .error (.inFlightLimit o.inFlightLimit)
  else if o.sessionExpiry.secs < 1 ∨ maxExpirySecs < o.sessionExpiry.secs then
    .error (.sessionExpiry o.sessionExpiry.secs)
  else if o.keepAlive.secs < 1 ∨ maxKeepAliveSecs < o.keepAlive.secs then
    .error (.keepAlive o.keepAlive.secs)
  else if o.reconnectStep = .zero ∨ ¬o.reconnectStep ≤ o.reconnectMax then
    .error (.reconnectDelay o.reconnectStep o.reconnectMax)
  else match o.will with
    | none => .ok ()
    | some will => (Topic.checkPublish will.topic).mapError .willTopic

/-- The will of a session: no payload, delivered at least once, not retained, and
held back for twice the session expiry. None also when that time overflows. -/
def lastWill (o : Options) : Option Will := do
  let will ← o.will
  let delay ← o.sessionExpiry.times? 2
  return { will with payload := [], qos := .atLeastOnce, retain := false, delay }

end Options

namespace OptionsFault

def message : OptionsFault → String
  | emptyClientId => "client id is empty"
  | capacity n => s!"message capacity {n} not in 1..={Options.capacityLimit}"
  | inFlightLimit n => s!"parallel publish capacity {n} not in 1..={Options.capacityLimit}"
  | sessionExpiry secs =>
    s!"session expiry interval {secs}s not in 1..={Options.maxExpirySecs}"
  | keepAlive secs => s!"keep alive {secs}s not in 1..={Options.maxKeepAliveSecs}"
  | reconnectDelay step max =>
    "reconnect delay step " ++ step.text ++ " must be non-zero and at most " ++ max.text
  | willTopic fault => fault.message

/-- A bad will topic is a topic fault, everything else a fault of the options. -/
def clientFault : OptionsFault → ClientFault
  | willTopic fault => .invalidTopic fault
  | fault => .invalidOptions fault.message

end OptionsFault

end Courier
