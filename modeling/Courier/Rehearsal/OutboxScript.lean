import Courier.Outbox.Sending
import Courier.Rehearsal.Line

/-! Scripts for an outbox on a rehearsal line, without a client around it.
Messages can be held on to under a name. -/
namespace Courier.Rehearsal

inductive OutboxCommand where
  | connected (value : Bool)
  | hasRoom (priority : Priority)
  | isFull
  | accept (p : Publication) (priority : Priority) (sync : Bool) (seq : Option Nat)
      (hold : Option String)
  | pump
  | acknowledge (id : PacketId) (reason : Reason)
  | purge
  | clear
  | take (seq : Nat)
  | finish (held : String) (outcome : Outcome)
  | withdraw (held : String)
  | enqueue (held : String)
  | forget (held : String)
  | look (held : String)
  | trouble (target : Target) (t : Option Trouble)
  | nextId (id : PacketId)

/-- A message with how far it has come. -/
structure MessageView where
  message : Message
  progress : Progress

inductive OutboxAnswer where
  | done
  | flag (value : Bool)
  | message (view : MessageView)
  | finished (view : MessageView)
  | fault (fault : ClientFault)
  | nothing

/-- An outbox as it shows: the maps by key. -/
structure OutboxView where
  inUse : Nat
  queue : List Message
  inFlight : List (PacketId × Message)
  finished : List (Nat × MessageView)

structure OutboxDesk where
  outbox : Outbox
  wire : Wire Line := Line.wire
  nextSeq : Nat := 0
  held : Table String Message := ∅

namespace OutboxDesk

def create? (capacity inFlightLimit : Nat) : Option OutboxDesk :=
  (Slots.ofCapacity? capacity).map fun slots => { outbox := { slots, inFlightLimit } }

def viewOf (d : OutboxDesk) (m : Message) : MessageView := ⟨m, d.outbox.progress m⟩

def view (d : OutboxDesk) : OutboxView where
  inUse := d.outbox.slots.inUse
  queue := d.outbox.queue
  inFlight := d.outbox.inFlight.entries.mergeSort fun a b => decide (a.1 ≤ b.1)
  finished :=
    (d.outbox.finished.entries.mergeSort fun a b => decide (a.1 ≤ b.1)).map fun entry =>
      (entry.1, d.viewOf entry.2)

def forget (d : OutboxDesk) (name : String) : OutboxDesk :=
  { d with
    outbox := d.outbox.releaseEach (d.held.get? name).toList
    held := d.held.erase name }

/-- Keeps a message under a name, or lets go of it. -/
def hold (d : OutboxDesk) (m : Message) : Option String → OutboxDesk
  | none => { d with outbox := d.outbox.release m }
  | some name =>
    let d := d.forget name
    { d with held := d.held.insert name m }

def accept (d : OutboxDesk) (p : Publication) (priority : Priority) (sync : Bool) (seq : Nat)
    (name : Option String) : OutboxAnswer × OutboxDesk :=
  let (result, outbox, wire) := d.outbox.accept d.wire seq p priority sync
  let d := { d with outbox, wire, nextSeq := seq + 1 }
  match result with
  | .ok m => (.message (d.viewOf m), d.hold m name)
  | .error fault => (.fault fault, d)

def withHeld (d : OutboxDesk) (name : String) (f : Message → OutboxAnswer × OutboxDesk) :
    OutboxAnswer × OutboxDesk :=
  match d.held.get? name with
  | none => (.nothing, d)
  | some m => f m

def perform (d : OutboxDesk) : OutboxCommand → OutboxAnswer × OutboxDesk
  | .connected value => (.done, { d with outbox := { d.outbox with connected := value } })
  | .hasRoom priority => (.flag (d.outbox.hasRoom priority), d)
  | .isFull => (.flag d.outbox.isFlightFull, d)
  | .accept p priority sync seq name => d.accept p priority sync (seq.getD d.nextSeq) name
  | .pump =>
    let (outbox, wire) := d.outbox.pump d.wire
    (.done, { d with outbox, wire })
  | .acknowledge id reason =>
    let (outbox, wire) := d.outbox.acknowledge d.wire id reason
    (.done, { d with outbox, wire })
  | .purge => (.done, { d with outbox := d.outbox.purge })
  | .clear => (.done, { d with outbox := d.outbox.clear })
  | .take seq =>
    match d.outbox.collect? seq with
    | none => (.nothing, d)
    | some (m, outbox) => (.finished (d.viewOf m), { d with outbox := outbox.release m })
  | .finish name outcome =>
    d.withHeld name fun m =>
      (.done, { d with outbox := (d.outbox.share m).finish m outcome })
  | .withdraw name => d.withHeld name fun m => (.done, { d with outbox := d.outbox.withdraw m })
  | .enqueue name =>
    d.withHeld name fun m => (.done, { d with outbox := (d.outbox.share m).enqueue m })
  | .forget name => d.withHeld name fun _ => (.done, d.forget name)
  | .look name => d.withHeld name fun m => (.message (d.viewOf m), d)
  | .trouble target t =>
    (.done, { d with wire := { d.wire with state := d.wire.state.setTrouble target t } })
  | .nextId id =>
    (.done, { d with wire := { d.wire with state := { d.wire.state with nextId := id } } })

/-- Lets go of every held message and empties the outbox. -/
def finish (d : OutboxDesk) : OutboxDesk :=
  { d with outbox := (d.outbox.releaseEach d.held.values).clear, held := ∅ }

structure Report where
  answer : OutboxAnswer
  calls : List Call
  view : OutboxView

/-- One report per command, and the view after all is let go. -/
def run : List OutboxCommand → OutboxDesk → List Report × OutboxView
  | [], d => ([], d.finish.view)
  | command :: rest, d =>
    let d := { d with wire := { d.wire with calls := [] } }
    let (answer, d) := d.perform command
    let (reports, last) := run rest d
    ({ answer, calls := d.wire.calls, view := d.view } :: reports, last)

end OutboxDesk

end Courier.Rehearsal
