import Courier.Client.Network
import Courier.Client.Requests

/-! Runs of a client: every way in which the stretches under the lock of its
callers, of its network thread and of a shutdown can follow each other. `run?`
carries a run out, and `Reaches` holds of exactly the clients it leads to. -/
namespace Courier

/-- One thing that happens. -/
inductive Action (σ : Type) where
  | publish (p : Publication) (priority : Priority)
  | subscribe (pattern : String) (qos : QoS)
  | unsubscribe (pattern : String)
  | addBroker (id : BrokerId) (host : String) (port : UInt16)
  | removeBroker (id : BrokerId)
  /-- A synchronous publish begins, under a number of its own. -/
  | enter (call : Nat) (p : Publication) (late : Bool)
  /-- A waiting publisher looks again; `late` says that its deadline is over. -/
  | resume (call : Nat) (late : Bool)
  | advance
  | wake
  | hear (e : Event)
  | leaveLoop (failed : Bool)
  | shutDown
  /-- The transport changes by itself. -/
  | drift (state : σ)

/-- The answer a caller gets at once, if any. -/
abbrev Reply := Option (Except ClientFault Unit)

def Publisher.reply : Publisher → Reply
  | .finished result => some result
  | _ => none

namespace Client

variable {σ : Type}

def setPublisher (c : Client σ) (call : Nat) (p : Publisher) : Client σ :=
  { c with publishers := c.publishers.insert call p }

def isBlocked (c : Client σ) : Bool := c.publishers.values.any Publisher.isBlocked

/-- What an action leads to, if it can happen now. Callers are served until the
client is given away for shutting down, which nobody may do during a call. -/
def step (c : Client σ) : Action σ → Option (Reply × Client σ)
  | .publish p priority => do
    guard (c.closing = .alive)
    let (result, c) := c.publish p priority
    return (some result, c)
  | .subscribe pattern qos => do
    guard (c.closing = .alive)
    let (result, c) := c.subscribe pattern qos
    return (some result, c)
  | .unsubscribe pattern => do
    guard (c.closing = .alive)
    let (result, c) := c.unsubscribe pattern
    return (some result, c)
  | .addBroker id host port => do
    guard (c.closing = .alive)
    let (result, c) := c.addBroker id host port
    return (some result, c)
  | .removeBroker id => do
    guard (c.closing = .alive)
    return (none, c.removeBroker id)
  | .enter call p late => do
    guard (c.closing = .alive ∧ !c.publishers.contains call)
    let (publisher, c) := c.enterPublisher p late
    return (publisher.reply, c.setPublisher call publisher)
  | .resume call late => do
    let publisher ← c.publishers.get? call
    guard publisher.isBlocked
    let (publisher, c) := c.resumePublisher publisher late
    return (publisher.reply, c.setPublisher call publisher)
  | .advance => some (none, c.advance)
  | .wake => some (none, c.wake)
  | .hear e =>
    match c.network with
    | .running => some (none, c.hear e)
    | _ => none
  | .leaveLoop failed => some (none, c.leaveLoop failed)
  | .shutDown => do
    guard (c.closing ≠ .alive ∨ !c.isBlocked)
    return (none, c.shutDown)
  | .drift state => some (none, { c with wire := { c.wire with state } })

/-- One client comes from another by a sequence of actions. -/
inductive Reaches : Client σ → List (Action σ) → Client σ → Prop where
  | nil (c : Client σ) : Reaches c [] c
  | snoc {c d e : Client σ} {actions : List (Action σ)} {action : Action σ} {reply : Reply} :
      Reaches c actions d → d.step action = some (reply, e) → Reaches c (actions ++ [action]) e

/-- The client after a sequence of actions, if each of them can happen in its turn. -/
def run? (c : Client σ) : List (Action σ) → Option (Client σ)
  | [] => some c
  | action :: rest => (c.step action).bind fun taken => taken.2.run? rest

theorem run?_append (c : Client σ) (first second : List (Action σ)) :
    c.run? (first ++ second) = (c.run? first).bind fun d => d.run? second := by
  induction first generalizing c with
  | nil => rfl
  | cons action rest ih =>
    simp only [List.cons_append, run?]
    cases c.step action with
    | none => rfl
    | some taken => exact ih taken.2

theorem Reaches.run?_eq {c d : Client σ} {actions : List (Action σ)} (h : Reaches c actions d) :
    c.run? actions = some d := by
  induction h with
  | nil => rfl
  | snoc _ taken ih => simp only [run?_append, ih, Option.bind_some, run?, taken]

theorem Reaches.append {c d e : Client σ} {first second : List (Action σ)}
    (h : Reaches c first d) (run : d.run? second = some e) : Reaches c (first ++ second) e := by
  induction second generalizing d first with
  | nil =>
    cases run
    simpa only [List.append_nil] using h
  | cons action rest ih =>
    obtain ⟨taken, step, run⟩ := Option.bind_eq_some_iff.1 run
    rw [List.append_cons]
    exact ih (h.snoc step) run

theorem reaches_iff_run? {c d : Client σ} {actions : List (Action σ)} :
    Reaches c actions d ↔ c.run? actions = some d :=
  ⟨Reaches.run?_eq, (Reaches.nil c).append⟩

end Client

end Courier
