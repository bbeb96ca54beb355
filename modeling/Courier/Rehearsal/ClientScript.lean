import Courier.Client.Step
import Courier.Rehearsal.Line

/-! Scripts for a whole client on a rehearsal line. After each command the
network thread goes on until it sleeps or is inside the transport's loop; then
the publishers whose outcome is there return, and the one that waits for room
goes on if there is any. Every change is a step of the client. -/
namespace Courier.Rehearsal

inductive ClientCommand where
  | publish (p : Publication) (priority : Priority)
  /-- A synchronous publish whose deadline is over before anything else happens. -/
  | publishSync (p : Publication)
  /-- A synchronous publish under a name, with a deadline that is never over. -/
  | startSync (name : String) (p : Publication)
  | subscribe (pattern : String) (qos : QoS)
  | unsubscribe (pattern : String)
  | subscription (pattern : String)
  | isConnected
  | addBroker (id : BrokerId) (host : String) (port : UInt16)
  | removeBroker (id : BrokerId)
  | reachable (address : String) (up : Bool)
  | trouble (target : Target) (t : Option Trouble)
  | nextId (id : PacketId)
  /-- The transport's loop reports an event, if any, and returns, or fails. -/
  | event (e : Option Event) (fails : Bool)
  | params
  | destroy

inductive ClientAnswer where
  | done
  | result (r : Except ClientFault Unit)
  | awaitingRoom
  | awaitingOutcome
  | busy
  | notRunning
  | destroyed
  | flag (value : Bool)
  | subscription (held : Option Subscription)
  | params (connect : Option SessionTerms) (timeout : Option Duration)

inductive RoundEnd where
  /-- The address reached by a connect, or none when the redial succeeded. -/
  | reached (address : Option String)
  | failed (addresses : List String)

structure Round where
  /-- The address dialled again, and whether that succeeded. -/
  redial : Option (String × Bool)
  ending : RoundEnd

structure ClientReport where
  answer : ClientAnswer
  calls : List Call
  finished : List (String × Except ClientFault Unit)
  rounds : List Round
  notices : List Notice
  isConnected : Bool
  connection : Connection
  stats : Stats

structure ClientDesk where
  client : Client Line
  /-- The names of synchronous publishes, by number. -/
  names : Table Nat String := ∅
  nextCall : Nat := 0

namespace ClientDesk

def create (o : Options) : Except ClientFault ClientDesk := do
  return { client := ← Client.create o Line.wire }

/-- Takes one step; one that cannot happen changes nothing. -/
def act (d : ClientDesk) (a : Action Line) : Reply × ClientDesk :=
  match d.client.step a with
  | some (reply, client) => (reply, { d with client })
  | none => (none, d)

def acts (d : ClientDesk) (actions : List (Action Line)) : ClientDesk :=
  actions.foldl (fun d a => (d.act a).2) d

def line (d : ClientDesk) : Line := d.client.wire.state

def drift (d : ClientDesk) (l : Line) : ClientDesk := (d.act (.drift l)).2

/-- Enough steps of the network thread for the end of a loop and a whole round. -/
def restNetwork (d : ClientDesk) : ClientDesk :=
  d.acts (List.replicate (d.client.shared.brokers.size + 32) .advance)

def callsOf (d : ClientDesk) (p : Publisher → Bool) : List Nat :=
  (d.client.publishers.entries.filter fun entry => p entry.2).map Prod.fst

def resume (d : ClientDesk) (calls : List Nat) : ClientDesk :=
  d.acts (calls.map fun call => .resume call false)

def isAwaitingRoom : Publisher → Bool
  | .awaitingRoom _ => true
  | _ => false

def isAwaitingOutcome : Publisher → Bool
  | .awaitingOutcome _ => true
  | _ => false

def restPublishers (d : ClientDesk) : ClientDesk :=
  let d := d.resume (d.callsOf isAwaitingOutcome)
  d.resume (d.callsOf isAwaitingRoom)

def answerOf (reply : Reply) : ClientAnswer :=
  match reply with
  | some r => .result r
  | none => .done

def simple (d : ClientDesk) (a : Action Line) : ClientAnswer × ClientDesk :=
  let (reply, d) := d.act a
  (answerOf reply, d)

def publisher? (d : ClientDesk) (call : Nat) : Option Publisher := d.client.publishers.get? call

/-- Begins a synchronous publish under the next number. -/
def enter (d : ClientDesk) (p : Publication) : Nat × ClientDesk :=
  let (_, entered) := d.act (.enter d.nextCall p false)
  (d.nextCall, { entered with nextCall := d.nextCall + 1 })

def startSync (d : ClientDesk) (name : String) (p : Publication) : ClientAnswer × ClientDesk :=
  let (call, entered) := d.enter p
  let named := { entered with names := entered.names.insert call name }
  match named.publisher? call with
  | some (.finished r) => (.result r, named)
  | some (.awaitingOutcome _) => (.awaitingOutcome, named)
  | some (.awaitingRoom _) =>
    if (d.callsOf isAwaitingRoom).isEmpty then (.awaitingRoom, named) else (.busy, d)
  | none => (.done, d)

def publishSync (d : ClientDesk) (p : Publication) : ClientAnswer × ClientDesk :=
  let (call, d) := d.enter p
  let d := (d.act (.resume call true)).2
  match d.publisher? call with
  | some (.finished r) => (.result r, d)
  | _ => (.done, d)

def event (d : ClientDesk) (e : Option Event) (fails : Bool) : ClientAnswer × ClientDesk :=
  match d.client.network with
  | .running =>
    let d := d.acts (e.toList.map .hear)
    let d := if fails then d.drift { d.line with isUp := false } else d
    (.done, (d.act (.leaveLoop fails)).2)
  | _ => (.notRunning, d)

/-- The whole shutdown. The transport's loop, if it runs, reports the end of the
connection and fails. -/
def destroy (d : ClientDesk) : ClientAnswer × ClientDesk :=
  if d.client.isBlocked then (.busy, d)
  else
    let d := d.acts [.shutDown, .shutDown, .hear (.disconnected .clientInitiated),
      .leaveLoop true, .wake]
    (.done, d.restNetwork.acts [.shutDown, .shutDown, .shutDown])

def lastParams (calls : List Call) : Option SessionTerms :=
  (calls.filterMap fun
    | .connect _ params _ => some params
    | _ => none).getLast?

def lastTimeout (calls : List Call) : Option Duration :=
  (calls.filterMap fun
    | .run timeout => some timeout
    | _ => none).getLast?

/-- Commands that set up the line are carried out even without a client. -/
def concernsLine : ClientCommand → Bool
  | .trouble .. | .nextId .. => true
  | _ => false

def performAlive (d : ClientDesk) : ClientCommand → ClientAnswer × ClientDesk
  | .publish p priority => d.simple (.publish p priority)
  | .publishSync p => d.publishSync p
  | .startSync name p => d.startSync name p
  | .subscribe pattern qos => d.simple (.subscribe pattern qos)
  | .unsubscribe pattern => d.simple (.unsubscribe pattern)
  | .subscription pattern => (.subscription (d.client.subscription? pattern), d)
  | .isConnected => (.flag d.client.shared.outbox.connected, d)
  | .addBroker id host port =>
    let (answer, added) := d.simple (.addBroker id host port)
    match answer with
    | .result (.ok ()) => (answer, (added.act .wake).2)
    | _ => (answer, added)
  | .removeBroker id => d.simple (.removeBroker id)
  | .reachable address up => (.done, d.drift (d.line.setReachable address up))
  | .trouble target t => (.done, d.drift (d.line.setTrouble target t))
  | .nextId id => (.done, d.drift { d.line with nextId := id })
  | .event e fails => d.event e fails
  | .params => (.params (lastParams d.client.wire.calls) (lastTimeout d.client.wire.calls), d)
  | .destroy => d.destroy

def perform (d : ClientDesk) (command : ClientCommand) : ClientAnswer × ClientDesk :=
  if d.client.closing = .closed && !concernsLine command then (.destroyed, d)
  else d.performAlive command

def isDial : Call → Bool
  | .connect .. | .reconnect .. | .run .. => true
  | _ => false

/-- The filter of a call about a subscription. -/
def filterOf? : Call → Option String
  | .subscribe filter .. => some filter
  | .unsubscribe filter .. => some filter
  | _ => none

/-- Calls other than dials. Those at the start that repeat subscriptions are put
in the order of their filters. -/
def shownCalls (calls : List Call) : List Call :=
  let calls := calls.filter (!isDial ·)
  let renewals := calls.takeWhile fun call => (filterOf? call).isSome
  (renewals.mergeSort fun a b => decide ((filterOf? a).getD "" ≤ (filterOf? b).getD "")) ++
    calls.dropWhile fun call => (filterOf? call).isSome

/-- The round that a step's dials make up; `dialled` is the address a redial
goes to. -/
def roundOf? (dialled : Option String) (calls : List Call) : Option Round :=
  let redial := calls.findSome? fun
    | .reconnect result => some result.isOk
    | _ => none
  let tried := calls.filterMap fun
    | .connect broker _ result => some (broker.address, result.isOk)
    | _ => none
  let ending : RoundEnd :=
    match tried.find? Prod.snd with
    | some (address, _) => .reached (some address)
    | none =>
      if redial = some true then .reached none
      else .failed ((tried.map Prod.fst).mergeSort fun a b => decide (a ≤ b))
  if redial.isNone && tried.isEmpty then none
  else some { redial := redial.map fun ok => (dialled.getD "", ok), ending }

/-- The publishers that were blocked before and have returned since, by name. -/
def finishedSince (before after : ClientDesk) : List (String × Except ClientFault Unit) :=
  let returned := (before.callsOf Publisher.isBlocked).filterMap fun call =>
    match after.publisher? call with
    | some (.finished r) => some ((after.names.get? call).getD "", r)
    | _ => none
  returned.mergeSort fun a b => decide (a.1 ≤ b.1)

/-- Performs one command and lets everything come to rest. -/
def report (d : ClientDesk) (command : ClientCommand) : ClientReport × ClientDesk :=
  let (answer, performed) := d.perform command
  let after := performed.restNetwork.restPublishers
  let calls := after.client.wire.calls.drop d.client.wire.calls.length
  ({ answer
     calls := shownCalls calls
     finished := finishedSince d after
     rounds := (roundOf? d.line.dialled calls).toList
     notices := after.client.notices.drop d.client.notices.length
     isConnected := after.client.shared.outbox.connected
     connection := after.client.shared.connection
     stats := after.client.shared.stats }, after)

def runFrom : List ClientCommand → ClientDesk → List ClientReport
  | [], _ => []
  | command :: rest, d =>
    let (report, d) := d.report command
    report :: runFrom rest d

/-- The reports of a script, from a new client whose network thread has come to
rest. -/
def run (o : Options) (commands : List ClientCommand) : Except ClientFault (List ClientReport) := do
  return runFrom commands (← create o).restNetwork

end ClientDesk

end Courier.Rehearsal
