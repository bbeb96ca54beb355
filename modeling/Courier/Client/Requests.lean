import Courier.Client.State

/-! What callers ask of a client. Each function below is one stretch under the
lock; a synchronous publish is several of them with waits in between. -/
namespace Courier.Client

variable {σ : Type}

def withOutbox (c : Client σ) (o : Outbox) (w : Wire σ) : Client σ :=
  { c with shared := { c.shared with outbox := o }, wire := w }

def withSubscriptions (c : Client σ) (s : Subscriptions) (w : Wire σ) : Client σ :=
  { c with shared := { c.shared with subscriptions := s }, wire := w }

/-- Records a subscription, and tells the broker if there is a session; when that
fails the record is put back. -/
def subscribe (c : Client σ) (pattern : String) (qos : QoS) :
    Except ClientFault Unit × Client σ :=
  match Topic.toFilter pattern with
  | .error fault => (.error (.invalidTopic fault), c)
  | .ok filter =>
    let before := c.shared.subscriptions.get? filter
    let recorded := c.shared.subscriptions.insert filter (.active qos)
    if c.shared.outbox.connected then
      match c.wire.subscribe filter qos true with
      | (.ok (), w) => (.ok (), c.withSubscriptions recorded w)
      | (.error fault, w) =>
        (.error (.transport fault), c.withSubscriptions (recorded.restore filter before) w)
    else (.ok (), c.withSubscriptions recorded c.wire)

/-- Gives a subscription up. Without a session it is marked, for the next one. -/
def unsubscribe (c : Client σ) (pattern : String) : Except ClientFault Unit × Client σ :=
  match Topic.toFilter pattern with
  | .error fault => (.error (.invalidTopic fault), c)
  | .ok filter =>
    if c.shared.outbox.connected then
      let before := c.shared.subscriptions.get? filter
      let erased := c.shared.subscriptions.erase filter
      match c.wire.unsubscribe filter with
      | (.ok (), w) => (.ok (), c.withSubscriptions erased w)
      | (.error fault, w) =>
        (.error (.transport fault), c.withSubscriptions (erased.restore filter before) w)
    else (.ok (), c.withSubscriptions (c.shared.subscriptions.giveUp filter) c.wire)

/-- The record under the filter of a pattern. -/
def subscription? (c : Client σ) (pattern : String) : Option Subscription :=
  match Topic.toFilter pattern with
  | .error _ => none
  | .ok filter => c.shared.subscriptions.get? filter

/-- Without a session a message that would not survive its end is refused. -/
def isUnsendable (c : Client σ) (p : Publication) : Bool :=
  decide (p.qos = .atMostOnce) && !c.shared.outbox.connected

/-- Draws a sequence number and hands a publication to the outbox. -/
def accept (c : Client σ) (p : Publication) (priority : Priority) (sync : Bool) :
    Except ClientFault Message × Client σ :=
  let (result, o, w) := c.shared.outbox.accept c.wire c.nextSeq p priority sync
  (result, { c with nextSeq := c.nextSeq + 1 }.withOutbox o w)

/-- Lets go of a message the caller was handed. -/
def release (c : Client σ) (m : Message) : Client σ :=
  c.withOutbox (c.shared.outbox.release m) c.wire

/-- Publishes without waiting for the outcome. -/
def publish (c : Client σ) (p : Publication) (priority : Priority) :
    Except ClientFault Unit × Client σ :=
  match Topic.checkPublish p.topic with
  | .error fault => (.error (.invalidTopic fault), c)
  | .ok () =>
    if c.isUnsendable p then (.error .notConnected, c)
    else if !c.shared.outbox.hasRoom priority then (.error .tooManyPending, c)
    else
      match c.accept p priority false with
      | (.ok m, c) => (.ok (), c.release m)
      | (.error fault, c) => (.error fault, c)

/-- A publisher looks for its outcome. When it is too late the message is given up. -/
def seekOutcome (c : Client σ) (m : Message) (late : Bool) : Publisher × Client σ :=
  match c.shared.outbox.collect? m.seq with
  | some (ended, o) =>
    let outcome := (o.progress ended).outcome.getD .sendFailed
    (.finished outcome.result, c.withOutbox ((o.release ended).release m) c.wire)
  | none =>
    if late then
      (.finished (.error .timeout),
        c.withOutbox ((c.shared.outbox.withdraw m).release m) c.wire)
    else (.awaitingOutcome m, c)

/-- A publisher looks for room, in the lowest class, and goes on if there is any. -/
def seekRoom (c : Client σ) (p : Publication) (late : Bool) : Publisher × Client σ :=
  if c.shared.outbox.hasRoom .low then
    match c.accept p .low true with
    | (.ok m, c) => c.seekOutcome m late
    | (.error fault, c) => (.finished (.error fault), c)
  else if p.qos = .atMostOnce then (.finished (.error .tooManyPending), c)
  else if late then (.finished (.error .timeout), c)
  else (.awaitingRoom p, c)

/-- A synchronous publish up to its first wait. -/
def enterPublisher (c : Client σ) (p : Publication) (late : Bool) : Publisher × Client σ :=
  match Topic.checkPublish p.topic with
  | .error fault => (.finished (.error (.invalidTopic fault)), c)
  | .ok () =>
    if c.isUnsendable p then (.finished (.error .notConnected), c) else c.seekRoom p late

/-- A synchronous publish from one wait to the next. -/
def resumePublisher (c : Client σ) (publisher : Publisher) (late : Bool) : Publisher × Client σ :=
  match publisher with
  | .awaitingRoom p => c.seekRoom p late
  | .awaitingOutcome m => c.seekOutcome m late
  | .finished result => (.finished result, c)

/-- Registers a broker, or another address for a registration. -/
def addBroker (c : Client σ) (id : BrokerId) (host : String) (port : UInt16) :
    Except ClientFault Unit × Client σ :=
  if host.isEmpty then
    (.error (.invalidBroker s!"empty host for registration {id}"), c)
  else
    let brokers := c.shared.brokers.insert id { host, port }
    (.ok (), { c with shared := { c.shared with brokers } })

def removeBroker (c : Client σ) (id : BrokerId) : Client σ :=
  { c with shared := { c.shared with brokers := c.shared.brokers.erase id } }

end Courier.Client
