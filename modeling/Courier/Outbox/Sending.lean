import Courier.Outbox.Basic

/-! Sending. A message goes out at once while there is room in flight, and waits
with a copy of its content otherwise; room that comes free is filled from the
queue. -/
namespace Courier.Outbox

variable {σ : Type}

/-- Puts a message in flight under the transport's number, with its place as one
more owner. A message that is still in flight under that number gives way. -/
def launch (o : Outbox) (m : Message) (id : PacketId) : Outbox :=
  let older := o.inFlight.get? id
  let numbered := (o.number m id).share m
  { numbered with inFlight := o.inFlight.insert id m }.releaseEach older.toList

/-- Hands a message to the transport. -/
def send (o : Outbox) (w : Wire σ) (m : Message) (p : Publication) :
    Except TransportFault Unit × Outbox × Wire σ :=
  match w.publish p with
  | (.ok id, w) => (.ok (), o.launch m id, w)
  | (.error fault, w) => (.error fault, o, w)

/-- Takes a publication in. The caller becomes one owner of the message. -/
def accept (o : Outbox) (w : Wire σ) (seq : Nat) (p : Publication) (priority : Priority)
    (sync : Bool) : Except ClientFault Message × Outbox × Wire σ :=
  match o.slots.take? {} with
  | none => (.error .tooManyPending, o, w)
  | some (slot, slots) =>
    let o := { o with slots }
    if o.connected && !o.isFlightFull then
      let m := Message.bare slot seq p priority sync
      match o.send w m p with
      | (.ok (), o, w) => (.ok m, o, w)
      | (.error fault, o, w) => (.error (.transport fault), o.release m, w)
    else
      let m := Message.parked slot seq p priority sync
      (.ok m, (o.share m).enqueue m, w)

/-- Sends from the front of a queue until it is empty or no more may be in
flight; what is left becomes the waiting queue. -/
def sendQueue : List Message → Outbox → Wire σ → Outbox × Wire σ
  | [], o, w => ({ o with queue := [] }, w)
  | m :: rest, o, w =>
    if o.isFlightFull then ({ o with queue := m :: rest }, w)
    else
      match o.send w m m.publication with
      | (.ok (), o, w) => sendQueue rest (o.release m) w
      | (.error _, o, w) => sendQueue rest (o.finish m .sendFailed) w

/-- Sends what may be sent. -/
def pump (o : Outbox) (w : Wire σ) : Outbox × Wire σ :=
  if o.connected then sendQueue o.queue o w else (o, w)

/-- The transport has heard about a message in flight; the room it leaves is
filled. An unknown number only fills room. -/
def acknowledge (o : Outbox) (w : Wire σ) (id : PacketId) (reason : Reason) :
    Outbox × Wire σ :=
  match o.inFlight.get? id with
  | some m =>
    ({ o with inFlight := o.inFlight.erase id }.finish m (.ofReason reason)).pump w
  | none => o.pump w

end Courier.Outbox
