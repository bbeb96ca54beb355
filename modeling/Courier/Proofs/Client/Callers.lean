import Courier.Proofs.Client.Movement
import Courier.Proofs.Outbox.Session

/-! Who calls a client. A publisher is entered once under its number and goes on
until it is told a result; while one of them waits no shutdown begins, and once
one has begun none of them comes. -/
namespace Courier

def Action.call? {σ : Type} : Action σ → Option Nat
  | enter call _ _ => some call
  | resume call _ => some call
  | _ => none

/-- Nobody asks for a subscription, enters, goes on or shuts the client down, and
no connection is accepted. -/
def Action.isAside {σ : Type} : Action σ → Bool
  | subscribe _ _ | unsubscribe _ | enter _ _ _ | resume _ _ | shutDown => false
  | hear (.connected (.ok ())) => false
  | _ => true

def Action.tells {σ : Type} : Action σ → Bool
  | subscribe _ _ | unsubscribe _ | hear (.connected (.ok ())) => true
  | _ => false

theorem Action.call?_of_aside {σ : Type} {action : Action σ} (side : action.isAside = true) :
    action.call? = none := by
  cases action with
  | enter | resume => contradiction
  | _ => rfl

theorem Event.begins_of_not_aside {σ : Type} {e : Event}
    (begins : ¬(Action.hear e : Action σ).isAside = true) : e = .connected (.ok ()) := by
  cases e with
  | connected result =>
    cases result with
    | ok _ => rfl
    | error _ => exact absurd rfl begins
  | _ => exact absurd rfl begins

theorem Event.begins_of_tells {σ : Type} {e : Event}
    (tells : (Action.hear e : Action σ).tells = true) : e = .connected (.ok ()) := by
  cases e with
  | connected result =>
    cases result with
    | ok _ => rfl
    | error _ => contradiction
  | _ => contradiction

namespace Client

variable {σ : Type} {c d : Client σ}

def Undisturbed (c d : Client σ) : Prop := d.publishers = c.publishers ∧ d.closing = c.closing

/-- The subscriptions were left alone, and no session began. -/
structure Untold (c d : Client σ) : Prop where
  subscriptions : d.shared.subscriptions = c.shared.subscriptions
  connected : d.outbox.connected = c.outbox.connected ∨ d.outbox.connected = false
  calls : c.wire.Spares d.wire

structure Aside (c d : Client σ) : Prop where
  undisturbed : c.Undisturbed d
  untold : c.Untold d

theorem Aside.of_same (publishers : d.publishers = c.publishers) (closing : d.closing = c.closing)
    (shared : d.shared.subscriptions = c.shared.subscriptions)
    (connected : d.outbox.connected = c.outbox.connected) (wire : d.wire.calls = c.wire.calls) :
    c.Aside d :=
  ⟨⟨publishers, closing⟩, shared, .inl connected, .of_calls wire⟩

theorem aside_publish (c : Client σ) (p : Publication) (priority : Priority) :
    c.Aside (c.publish p priority).2 := by
  by_cases admitted : c.admits p priority = true
  · rw [publish_of_admits admitted]
    obtain ⟨connected, spares⟩ := c.outbox.accept_session c.wire c.nextSeq p priority false
    cases taken : c.outbox.accept c.wire c.nextSeq p priority false with
    | mk result rest =>
      rw [taken] at connected spares
      rw [accept_eq taken]
      cases result <;> exact ⟨⟨rfl, rfl⟩, rfl, .inl connected, spares⟩
  · rw [publish_of_not_admits admitted]
    exact .of_same rfl rfl rfl rfl rfl

theorem aside_seekRoom (c : Client σ) (p : Publication) (late : Bool) :
    c.Aside (c.seekRoom p late).2 := by
  by_cases room : c.outbox.hasRoom .low = true
  · obtain ⟨connected, spares⟩ := c.outbox.accept_session c.wire c.nextSeq p .low true
    cases taken : c.outbox.accept c.wire c.nextSeq p .low true with
    | mk result rest =>
      rw [taken] at connected spares
      cases result with
      | error fault =>
        rw [seekRoom_of_error late room taken]
        exact ⟨⟨rfl, rfl⟩, rfl, .inl connected, spares⟩
      | ok m =>
        rw [seekRoom_of_ok late room taken]
        exact ⟨⟨rfl, rfl⟩, rfl, .inl ((Outbox.seek_connected _ m late).trans connected), spares⟩
  · rw [(seekRoom_of_full p late room).1]
    exact .of_same rfl rfl rfl rfl rfl

theorem aside_enterPublisher (c : Client σ) (p : Publication) (late : Bool) :
    c.Aside (c.enterPublisher p late).2 := by
  by_cases admitted : c.admits p .low = true
  · rw [enterPublisher_of_admits admitted]
    exact c.aside_seekRoom p late
  · rw [(enterPublisher_of_not_admits late admitted).1]
    exact .of_same rfl rfl rfl rfl rfl

theorem aside_resumePublisher (c : Client σ) (publisher : Publisher) (late : Bool) :
    c.Aside (c.resumePublisher publisher late).2 := by
  cases publisher with
  | awaitingRoom p => exact c.aside_seekRoom p late
  | awaitingOutcome m =>
    simp only [resumePublisher, seekOutcome_eq]
    exact .of_same rfl rfl rfl (c.outbox.seek_connected m late) rfl
  | finished result => exact .of_same rfl rfl rfl rfl rfl

theorem undisturbed_subscribe (c : Client σ) (pattern : String) (qos : QoS) :
    c.Undisturbed (c.subscribe pattern qos).2 := by
  unfold subscribe
  split
  · exact ⟨rfl, rfl⟩
  · dsimp only
    split
    · split <;> exact ⟨rfl, rfl⟩
    · exact ⟨rfl, rfl⟩

theorem undisturbed_unsubscribe (c : Client σ) (pattern : String) :
    c.Undisturbed (c.unsubscribe pattern).2 := by
  unfold unsubscribe
  split
  · exact ⟨rfl, rfl⟩
  · split
    · dsimp only
      split <;> exact ⟨rfl, rfl⟩
    · exact ⟨rfl, rfl⟩

theorem undisturbed_begin (c : Client σ) : c.Undisturbed (c.hear (.connected (.ok ()))) := by
  cases told : c.onConnected <;> simp only [hear, told, Bool.false_eq_true, if_false, if_true]
  · exact ⟨rfl, rfl⟩
  · exact ⟨rfl, rfl⟩

theorem aside_hear (c : Client σ) {e : Event} (other : e ≠ .connected (.ok ())) :
    c.Aside (c.hear e) := by
  cases e with
  | connected result =>
    cases result with
    | error _ => exact .of_same rfl rfl rfl rfl rfl
    | ok _ => contradiction
  | message p =>
    cases told : c.onMessage <;> simp only [hear, told, Bool.false_eq_true, if_false, if_true]
    · exact .of_same rfl rfl rfl rfl rfl
    · exact .of_same rfl rfl rfl rfl rfl
  | disconnected cause => exact ⟨⟨rfl, rfl⟩, rfl, .inr (Outbox.purge_connected _), .refl _⟩
  | acknowledged id reason =>
    obtain ⟨connected, spares⟩ := c.outbox.acknowledge_session c.wire id reason
    exact ⟨⟨rfl, rfl⟩, rfl, .inl connected, spares⟩

theorem aside_dial (c : Client σ) (last : TransportFault) (rest : List (BrokerId × Broker)) :
    c.Aside (c.dial last rest) := by
  cases rest with
  | nil => exact .of_same rfl rfl rfl rfl rfl
  | cons candidate rest =>
    have spares : c.wire.Spares (c.wire.connect candidate.2 c.terms).2 := .after rfl _
    cases told : c.wire.connect candidate.2 c.terms with
    | mk result w =>
      rw [told] at spares
      cases result <;> simp only [dial, told] <;> exact ⟨⟨rfl, rfl⟩, rfl, .inl rfl, spares⟩

theorem aside_dialAgain (c : Client σ) : c.Aside c.dialAgain := by
  have spares : c.wire.Spares c.wire.reconnect.2 := .after rfl _
  cases told : c.wire.reconnect with
  | mk result w =>
    rw [told] at spares
    cases result <;> simp only [dialAgain, told] <;> exact ⟨⟨rfl, rfl⟩, rfl, .inl rfl, spares⟩

theorem aside_advance (c : Client σ) : c.Aside c.advance := by
  unfold advance
  cases stage : c.network with
  | resting pause =>
    dsimp only
    unfold beginRound
    split
    · exact .of_same rfl rfl rfl rfl rfl
    · split <;> exact .of_same rfl rfl rfl rfl rfl
  | choosing =>
    dsimp only
    unfold chooseBroker
    split <;> exact .of_same rfl rfl rfl rfl rfl
  | reconnecting => exact c.aside_dialAgain
  | dialling rest last => exact c.aside_dial last rest
  | entering =>
    dsimp only
    split
    · exact ⟨⟨rfl, rfl⟩, rfl, .inl rfl, .after rfl _⟩
    · exact .of_same rfl rfl rfl rfl rfl
  | lost accepted => exact ⟨⟨rfl, rfl⟩, rfl, .inr (Outbox.purge_connected _), .refl _⟩
  | settling accepted =>
    dsimp only
    unfold settleRound
    split
    · exact .of_same rfl rfl rfl rfl rfl
    · split <;> exact .of_same rfl rfl rfl rfl rfl
  | _ => exact .of_same rfl rfl rfl rfl rfl

theorem aside_addBroker (c : Client σ) (id : BrokerId) (host : String) (port : UInt16) :
    c.Aside (c.addBroker id host port).2 := by
  unfold addBroker
  split <;> exact .of_same rfl rfl rfl rfl rfl

theorem aside_wake (c : Client σ) : c.Aside c.wake := by
  unfold wake
  split <;> exact .of_same rfl rfl rfl rfl rfl

theorem aside_leaveLoop (c : Client σ) (failed : Bool) : c.Aside (c.leaveLoop failed) := by
  unfold leaveLoop
  split <;> exact .of_same rfl rfl rfl rfl rfl

theorem shutDown_callers (c : Client σ) :
    c.shutDown.publishers = c.publishers ∧ c.shutDown.closing ≠ .alive := by
  unfold shutDown
  cases stage : c.closing with
  | joining =>
    dsimp only
    split
    · exact ⟨rfl, by simp⟩
    · exact ⟨rfl, by simp [stage]⟩
  | closed => exact ⟨rfl, by simp [stage]⟩
  | _ => exact ⟨rfl, by simp⟩

theorem untold_shutDown (c : Client σ) : c.Untold c.shutDown := by
  have hungUp : c.Untold c.hangUp := ⟨rfl, .inl rfl, .after rfl _⟩
  unfold shutDown
  cases stage : c.closing with
  | hangingUp | hangingUpAgain => exact ⟨rfl, .inl rfl, hungUp.calls⟩
  | joining =>
    dsimp only
    split <;> exact ⟨rfl, .inl rfl, .refl _⟩
  | clearing => exact ⟨rfl, .inr (Outbox.clear_connected _), .refl _⟩
  | _ => exact ⟨rfl, .inl rfl, .refl _⟩

theorem step_aside {action : Action σ} {reply : Reply} (side : action.isAside = true)
    (stepped : c.step action = some (reply, d)) : c.Aside d := by
  cases action with
  | publish p priority =>
    obtain ⟨_, taken⟩ := of_guard stepped
    cases taken
    exact c.aside_publish p priority
  | addBroker id host port =>
    obtain ⟨_, taken⟩ := of_guard stepped
    cases taken
    exact c.aside_addBroker id host port
  | removeBroker id =>
    obtain ⟨_, taken⟩ := of_guard stepped
    cases taken
    exact .of_same rfl rfl rfl rfl rfl
  | advance =>
    cases stepped
    exact c.aside_advance
  | wake =>
    cases stepped
    exact c.aside_wake
  | hear e =>
    obtain ⟨_, rfl, rfl⟩ := hear_of_step stepped
    refine c.aside_hear ?_
    rintro rfl
    contradiction
  | leaveLoop failed =>
    cases stepped
    exact c.aside_leaveLoop failed
  | drift state =>
    cases stepped
    exact .of_same rfl rfl rfl rfl rfl
  | _ => contradiction

/-- What tells the broker of no subscriptions leaves them alone. -/
theorem step_untold {action : Action σ} {reply : Reply} (silent : action.tells = false)
    (stepped : c.step action = some (reply, d)) : c.Untold d := by
  by_cases side : action.isAside = true
  · exact (step_aside side stepped).untold
  cases action with
  | enter call p late =>
    obtain ⟨_, taken⟩ := of_guard stepped
    cases taken
    obtain ⟨same, connected, calls⟩ := (c.aside_enterPublisher p late).untold
    exact ⟨same, connected, calls⟩
  | resume call late =>
    obtain ⟨publisher, _, resumed⟩ := Option.bind_eq_some_iff.mp stepped
    obtain ⟨_, taken⟩ := of_guard resumed
    cases taken
    obtain ⟨same, connected, calls⟩ := (c.aside_resumePublisher publisher late).untold
    exact ⟨same, connected, calls⟩
  | hear e =>
    cases Event.begins_of_not_aside side
    contradiction
  | shutDown =>
    obtain ⟨_, taken⟩ := of_guard stepped
    cases taken
    exact c.untold_shutDown
  | subscribe | unsubscribe => contradiction
  | _ => exact absurd rfl side

inductive Attends (c : Client σ) (reply : Reply) (d : Client σ) : Action σ → Prop where
  | other {action : Action σ} (undisturbed : c.Undisturbed d) (caller : action.call? = none) :
      Attends c reply d action
  | enters {call : Nat} {p : Publication} {late : Bool} (alive : c.closing = .alive)
      (unknown : c.publishers.get? call = none)
      (publishers : d.publishers = c.publishers.insert call (c.enterPublisher p late).1)
      (closing : d.closing = .alive) (answer : reply = (c.enterPublisher p late).1.reply) :
      Attends c reply d (.enter call p late)
  | resumes {call : Nat} {publisher : Publisher} {late : Bool}
      (found : c.publishers.get? call = some publisher) (blocked : publisher.isBlocked = true)
      (publishers : d.publishers = c.publishers.insert call (c.resumePublisher publisher late).1)
      (closing : d.closing = c.closing)
      (answer : reply = (c.resumePublisher publisher late).1.reply) :
      Attends c reply d (.resume call late)
  | shuts (publishers : d.publishers = c.publishers)
      (idle : c.closing ≠ .alive ∨ c.isBlocked = false)
      (going : d.closing ≠ .alive) : Attends c reply d .shutDown

theorem step_attends {action : Action σ} {reply : Reply}
    (stepped : c.step action = some (reply, d)) : Attends c reply d action := by
  by_cases side : action.isAside = true
  · exact .other (step_aside side stepped).undisturbed (Action.call?_of_aside side)
  cases action with
  | subscribe pattern qos =>
    obtain ⟨_, taken⟩ := of_guard stepped
    cases taken
    exact .other (c.undisturbed_subscribe pattern qos) rfl
  | unsubscribe pattern =>
    obtain ⟨_, taken⟩ := of_guard stepped
    cases taken
    exact .other (c.undisturbed_unsubscribe pattern) rfl
  | enter call p late =>
    obtain ⟨⟨alive, free⟩, taken⟩ := of_guard stepped
    cases taken
    obtain ⟨publishers, closing⟩ := (c.aside_enterPublisher p late).undisturbed
    exact .enters alive (by simpa [Table.contains] using free)
      (congrArg (Table.insert · call (c.enterPublisher p late).1) publishers)
      (closing.trans alive) rfl
  | resume call late =>
    obtain ⟨publisher, found, resumed⟩ := Option.bind_eq_some_iff.mp stepped
    obtain ⟨blocked, taken⟩ := of_guard resumed
    cases taken
    obtain ⟨publishers, closing⟩ := (c.aside_resumePublisher publisher late).undisturbed
    exact .resumes found blocked
      (congrArg (Table.insert · call (c.resumePublisher publisher late).1) publishers) closing rfl
  | hear e =>
    obtain ⟨_, rfl, rfl⟩ := hear_of_step stepped
    cases Event.begins_of_not_aside side
    exact .other c.undisturbed_begin rfl
  | shutDown =>
    obtain ⟨idle, taken⟩ := of_guard stepped
    cases taken
    obtain ⟨publishers, going⟩ := c.shutDown_callers
    exact .shuts publishers (by simpa using idle) going
  | _ => exact absurd rfl side

/-- Once a shutdown has begun no publisher waits. -/
def Quiet (c : Client σ) : Prop :=
  c.closing ≠ .alive → ∀ call publisher, c.publishers.get? call = some publisher →
    publisher.isBlocked = false

theorem not_isBlocked (idle : c.isBlocked = false) {call : Nat} {publisher : Publisher}
    (found : c.publishers.get? call = some publisher) : publisher.isBlocked = false := by
  have member : publisher ∈ c.publishers.values :=
    Multiset.mem_coe.mp (Table.mem_contents.mpr ⟨call, found⟩)
  exact Bool.eq_false_iff.mpr fun blocked =>
    Bool.eq_false_iff.mp idle (List.any_eq_true.mpr ⟨publisher, member, blocked⟩)

theorem Quiet.unawaited (quiet : c.Quiet) (going : c.closing ≠ .alive) : c.awaited = 0 := by
  apply Multiset.eq_zero_of_forall_notMem
  intro m waits
  obtain ⟨call, found⟩ := awaited_mem_iff.mp waits
  have := quiet going call _ found
  contradiction

theorem quiet_of_create {options : Options} {wire : Wire σ}
    (created : create options wire = .ok c) :
    c.Quiet := by
  obtain ⟨_, _, _, _, _, _, alive⟩ := of_create created
  exact fun going => absurd alive going

end Client

namespace Step

variable {σ : Type} {s : Step σ} {m : Message} {p : Publication}

theorem attends (s : Step σ) : s.before.Attends s.reply s.after s.action :=
  Client.step_attends s.stepped

theorem quiet_after (quiet : s.before.Quiet) : s.after.Quiet := by
  have attends := s.attends
  generalize s.action = action at attends
  cases attends with
  | other undisturbed =>
    obtain ⟨publishers, closing⟩ := undisturbed
    intro going call publisher found
    rw [closing] at going
    rw [publishers] at found
    exact quiet going call publisher found
  | enters _ _ _ alive => exact fun going => absurd alive going
  | resumes found blocked _ closing =>
    intro going
    rw [closing] at going
    have := quiet going _ _ found
    rw [blocked] at this
    contradiction
  | shuts publishers idle =>
    intro _ call publisher found
    rw [publishers] at found
    rcases idle with going | idle
    · exact quiet going call publisher found
    · exact Client.not_isBlocked idle found

end Step

namespace Client

variable {σ : Type} {c : Client σ} {p q : Publication} {m : Message} {late : Bool}

theorem seekRoom_awaitingRoom (waits : (c.seekRoom p late).1 = .awaitingRoom q) :
    q = p ∧ ¬c.outbox.hasRoom .low = true ∧ p.qos ≠ .atMostOnce := by
  by_cases room : c.outbox.hasRoom .low = true
  · cases taken : c.outbox.accept c.wire c.nextSeq p .low true with
    | mk result rest =>
      cases result with
      | error fault =>
        rw [seekRoom_of_error late room taken] at waits
        contradiction
      | ok n =>
        rw [seekRoom_of_ok late room taken] at waits
        generalize rest.1.seek n late = sought at waits
        obtain ⟨result, o⟩ := sought
        cases result <;> contradiction
  · have full : ¬c.shared.outbox.hasRoom .low = true := room
    simp only [seekRoom, if_neg full] at waits
    split at waits
    · contradiction
    · rename_i lasting
      split at waits
      · contradiction
      · cases waits
        exact ⟨rfl, room, lasting⟩

theorem seekRoom_awaitingOutcome (waits : (c.seekRoom p late).1 = .awaitingOutcome m) :
    c.outbox.hasRoom .low = true ∧
      (c.outbox.accept c.wire c.nextSeq p .low true).1 = .ok m := by
  by_cases room : c.outbox.hasRoom .low = true
  · refine ⟨room, ?_⟩
    cases taken : c.outbox.accept c.wire c.nextSeq p .low true with
    | mk result rest =>
      cases result with
      | error fault =>
        rw [seekRoom_of_error late room taken] at waits
        contradiction
      | ok n =>
        rw [seekRoom_of_ok late room taken] at waits
        generalize rest.1.seek n late = sought at waits
        obtain ⟨result, o⟩ := sought
        cases result with
        | none =>
          cases waits
          rfl
        | some _ => contradiction
  · have without := (seekRoom_of_full p late room).2
    rw [waits] at without
    contradiction

theorem enterPublisher_awaitingRoom (waits : (c.enterPublisher p late).1 = .awaitingRoom q) :
    q = p ∧ Topic.checkPublish p.topic = .ok () ∧ ¬c.outbox.hasRoom .low = true ∧
      p.qos ≠ .atMostOnce := by
  unfold enterPublisher at waits
  split at waits
  · contradiction
  · rename_i checked
    split at waits
    · contradiction
    · obtain ⟨same, full⟩ := seekRoom_awaitingRoom waits
      exact ⟨same, checked, full⟩

theorem enterPublisher_awaitingOutcome (waits : (c.enterPublisher p late).1 = .awaitingOutcome m) :
    c.admits p .low = true ∧ (c.outbox.accept c.wire c.nextSeq p .low true).1 = .ok m := by
  by_cases admitted : c.admits p .low = true
  · rw [enterPublisher_of_admits admitted] at waits
    exact ⟨admitted, (seekRoom_awaitingOutcome waits).2⟩
  · have without := (enterPublisher_of_not_admits late admitted).2
    rw [waits] at without
    contradiction

end Client

namespace Step

variable {σ : Type} {s : Step σ} {m : Message} {p : Publication} {call : Nat} {late : Bool}

/-- A publisher that enters and goes on to wait for an outcome had its publication
taken in. -/
theorem accepts_of_enter (doing : s.action = .enter call p late)
    (waits : (s.before.enterPublisher p late).1 = .awaitingOutcome m) : s.Accepts p m := by
  obtain ⟨admitted, told⟩ := Client.enterPublisher_awaitingOutcome waits
  refine ⟨.low, true, late, ?_, told⟩
  rw [turn, doing]
  exact if_pos admitted

theorem accepts_of_resume (doing : s.action = .resume call late)
    (found : s.before.publishers.get? call = some (.awaitingRoom p))
    (waits : (s.before.seekRoom p late).1 = .awaitingOutcome m) : s.Accepts p m := by
  obtain ⟨room, told⟩ := Client.seekRoom_awaitingOutcome waits
  refine ⟨.low, true, late, ?_, told⟩
  simp only [turn, doing, Client.turn, found, if_pos room]

end Step

end Courier
