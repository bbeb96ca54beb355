import Courier.Fault
import Courier.Priority
import Courier.Publication
import Courier.Wire

/-! Outbound messages. A message is known by the slot it occupies; what it says
never changes, and how far it has come is kept with its slot. -/
namespace Courier

structure Message where
  slot : Nat
  seq : Nat
  topic : String
  qos : QoS
  priority : Priority
  /-- Somebody waits for the outcome. -/
  sync : Bool
  /-- The message's own copy, kept only while it may have to wait. -/
  payload : Option Bytes
  properties : Option Properties
  deriving DecidableEq

/-- How a message ended. -/
inductive Outcome where
  | delivered
  | rejected (reason : Reason)
  | sendFailed
  | connectionLost
  deriving DecidableEq

/-- How far a message has come. Each of the two is settled once and then stays. -/
structure Progress where
  id : Option PacketId := none
  outcome : Option Outcome := none
  deriving DecidableEq

namespace Message

/-- A message that is sent at once and keeps no copy of its content. -/
def bare (slot seq : Nat) (p : Publication) (priority : Priority) (sync : Bool) : Message :=
  { slot, seq, topic := p.topic, qos := p.qos, priority, sync, payload := none, properties := none }

/-- A message that waits with a copy of its content; an empty payload needs none. -/
def parked (slot seq : Nat) (p : Publication) (priority : Priority) (sync : Bool) : Message :=
  { slot, seq, topic := p.topic, qos := p.qos, priority, sync
    payload := if p.payload.isEmpty then none else some p.payload
    properties := p.properties }

/-- What a waiting message hands to the transport. -/
def publication (m : Message) : Publication :=
  ⟨m.topic, m.payload.getD [], m.qos, m.properties⟩

theorem publication_parked (slot seq : Nat) (p : Publication) (priority : Priority) (sync : Bool) :
    (parked slot seq p priority sync).publication = p := by
  obtain ⟨topic, payload, qos, properties⟩ := p
  cases payload <;> rfl

end Message

namespace Outcome

def result : Outcome → Except ClientFault Unit
  | delivered => .ok ()
  | rejected reason => .error (.rejected reason)
  | sendFailed => .error .sendFailed
  | connectionLost => .error .connectionLost

/-- What an acknowledgement says about a message. -/
def ofReason (reason : Reason) : Outcome :=
  if reason.isDelivered then delivered else rejected reason

end Outcome

namespace Progress

/-- Notes the transport's number, unless one is noted already. -/
def number (p : Progress) (id : PacketId) : Progress := { p with id := p.id.or (some id) }

/-- Notes the outcome, unless one is noted already. -/
def conclude (p : Progress) (outcome : Outcome) : Progress :=
  { p with outcome := p.outcome.or (some outcome) }

end Progress

end Courier
