import Courier.Wire

/-! A transport for rehearsals. It reaches the addresses it is told, numbers
messages in turn, and fails the calls it is told to fail. -/
namespace Courier.Rehearsal

/-- A failure that is in force: for all topics or filters, or for those listed. -/
structure Trouble where
  fault : TransportFault
  only : Option (List String)

/-- The calls that can be made to fail. -/
inductive Target where
  | publish
  | subscribe
  | unsubscribe
  | disconnect
  deriving DecidableEq

structure Line where
  nextId : PacketId := 1
  trouble : Target → Option Trouble := fun _ => none
  reachable : List String := []
  /-- The address of the last successful connect. -/
  dialled : Option String := none
  isUp : Bool := false

namespace Line

def setTrouble (l : Line) (target : Target) (t : Option Trouble) : Line :=
  { l with trouble := fun other => if other = target then t else l.trouble other }

def setReachable (l : Line) (address : String) (up : Bool) : Line :=
  let others := l.reachable.filter (· ≠ address)
  { l with reachable := if up then address :: others else others }

/-- The failure in force for a call about a topic or filter, if it is about one. -/
def fault? (l : Line) (target : Target) (about : Option String) : Option TransportFault := do
  let t ← l.trouble target
  match t.only with
  | none => some t.fault
  | some listed => if about.any listed.contains then some t.fault else none

def answer {α : Type} (value : α) : Option TransportFault → Except TransportFault α
  | none => .ok value
  | some fault => .error fault

def dial (l : Line) (address : String) : Except TransportFault Unit × Line :=
  if l.reachable.contains address then
    (.ok (), { l with dialled := some address, isUp := true })
  else (.error (.io "unreachable"), l)

/-- A failed publish uses no number. -/
def publish (p : Publication) (l : Line) : Except TransportFault PacketId × Line :=
  match l.fault? .publish (some p.topic) with
  | some fault => (.error fault, l)
  | none => (.ok l.nextId, { l with nextId := l.nextId + 1 })

/-- Takes the line down. Without one there is nothing to fail. -/
def disconnect (l : Line) : Except TransportFault Unit × Line :=
  if l.isUp then (answer () (l.fault? .disconnect none), { l with isUp := false })
  else (.error .notConnected, l)

def transport : Transport Line where
  connect broker _ l := l.dial broker.address
  reconnect l :=
    match l.dialled with
    | some address => l.dial address
    | none => (.error .notConnected, l)
  publish := publish
  subscribe filter _ _ l := (answer () (l.fault? .subscribe (some filter)), l)
  unsubscribe filter l := (answer () (l.fault? .unsubscribe (some filter)), l)
  disconnect _ _ l := l.disconnect

def wire : Wire Line := { transport, state := {} }

end Line

end Courier.Rehearsal
