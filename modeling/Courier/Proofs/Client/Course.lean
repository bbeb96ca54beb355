import Courier.Proofs.Client.Connection

/-! What the network thread goes by, and what moves it. Callers and the transport's reports
leave it alone: they change no stage, no count of failures and no registration, and every
call they make is one that needs a session. -/
namespace Courier

abbrev Wire.InSession {σ : Type} (v w : Wire σ) : Prop :=
  v.Extends w fun call => call.needsSession = true

namespace Wire

variable {σ : Type}

theorem InSession.after {w : Wire σ} {call : Call} (needs : call.needsSession = true) (s : σ) :
    w.InSession (w.after s call) :=
  Extends.after needs s

theorem Publishes.inSession {v w : Wire σ} (published : v.Publishes w) : v.InSession w := by
  refine published.imp fun call attempted => ?_
  cases call with
  | publish _ _ => rfl
  | _ => contradiction

theorem renew_inSession (renewals : List Renewal) (w : Wire σ) :
    w.InSession (renewals.foldl Shared.renew w) := by
  refine (w.renewals_extends renewals).imp fun call subscribes => ?_
  cases call with
  | subscribe | unsubscribe => rfl
  | _ => contradiction

end Wire

structure Course where
  network : Network
  isRunning : Bool
  retry : Retry
  brokers : Table BrokerId Broker
  lastReached : Option BrokerId
  closing : Closing

namespace Client

variable {σ : Type} {c d : Client σ}

def course (c : Client σ) : Course :=
  ⟨c.network, c.isRunning, c.retry, c.shared.brokers, c.shared.lastReached, c.closing⟩

/-- The network thread is left alone. -/
structure Bypasses (c d : Client σ) : Prop where
  course : d.course = c.course
  calls : c.wire.InSession d.wire

theorem Bypasses.of_same (course : d.course = c.course) (calls : d.wire.calls = c.wire.calls) :
    c.Bypasses d :=
  ⟨course, .of_calls calls⟩

theorem Bypasses.network (bypasses : c.Bypasses d) : d.network = c.network :=
  congrArg Course.network bypasses.course

section Callers

theorem publish_bypasses (c : Client σ) (p : Publication) (priority : Priority) :
    c.Bypasses (c.publish p priority).2 := by
  by_cases admitted : c.admits p priority = true
  · rw [publish_of_admits admitted]
    have calls := (c.outbox.accept_publishes c.wire c.nextSeq p priority false).inSession
    cases taken : c.outbox.accept c.wire c.nextSeq p priority false with
    | mk result rest =>
      rw [taken] at calls
      rw [accept_eq taken]
      cases result <;> exact ⟨rfl, calls⟩
  · rw [publish_of_not_admits admitted]
    exact .of_same rfl rfl

theorem seekRoom_bypasses (c : Client σ) (p : Publication) (late : Bool) :
    c.Bypasses (c.seekRoom p late).2 := by
  by_cases room : c.outbox.hasRoom .low = true
  · have calls := (c.outbox.accept_publishes c.wire c.nextSeq p .low true).inSession
    cases taken : c.outbox.accept c.wire c.nextSeq p .low true with
    | mk result rest =>
      rw [taken] at calls
      cases result with
      | error fault =>
        rw [seekRoom_of_error late room taken]
        exact ⟨rfl, calls⟩
      | ok m =>
        rw [seekRoom_of_ok late room taken]
        exact ⟨rfl, calls⟩
  · rw [(seekRoom_of_full p late room).1]
    exact .of_same rfl rfl

theorem enterPublisher_bypasses (c : Client σ) (p : Publication) (late : Bool) :
    c.Bypasses (c.enterPublisher p late).2 := by
  by_cases admitted : c.admits p .low = true
  · rw [enterPublisher_of_admits admitted]
    exact c.seekRoom_bypasses p late
  · rw [(enterPublisher_of_not_admits late admitted).1]
    exact .of_same rfl rfl

theorem resumePublisher_bypasses (c : Client σ) (publisher : Publisher) (late : Bool) :
    c.Bypasses (c.resumePublisher publisher late).2 := by
  cases publisher with
  | awaitingRoom p => exact c.seekRoom_bypasses p late
  | awaitingOutcome m =>
    simp only [resumePublisher, seekOutcome_eq]
    exact .of_same rfl rfl
  | finished result => exact .of_same rfl rfl

theorem subscribe_bypasses (c : Client σ) (pattern : String) (qos : QoS) :
    c.Bypasses (c.subscribe pattern qos).2 := by
  unfold subscribe
  split
  · exact .of_same rfl rfl
  · rename_i filter _
    dsimp only
    split
    · have calls : c.wire.InSession (c.wire.subscribe filter qos true).2 := .after rfl _
      cases told : c.wire.subscribe filter qos true with
      | mk result w =>
        rw [told] at calls
        cases result <;> exact ⟨rfl, calls⟩
    · exact .of_same rfl rfl

theorem unsubscribe_bypasses (c : Client σ) (pattern : String) :
    c.Bypasses (c.unsubscribe pattern).2 := by
  unfold unsubscribe
  split
  · exact .of_same rfl rfl
  · rename_i filter _
    split
    · dsimp only
      have calls : c.wire.InSession (c.wire.unsubscribe filter).2 := .after rfl _
      cases told : c.wire.unsubscribe filter with
      | mk result w =>
        rw [told] at calls
        cases result <;> exact ⟨rfl, calls⟩
    · exact .of_same rfl rfl

end Callers

theorem begin_bypasses (c : Client σ) : c.Bypasses (c.hear (.connected (.ok ()))) := by
  have renewed := c.wire.renew_inSession c.shared.subscriptions.renewals
  have calls : c.wire.InSession (c.shared.beginSession c.wire).2 :=
    renewed.trans (Outbox.pump_publishes { c.outbox with connected := true } _).inSession
  cases told : c.onConnected <;> simp only [hear, told, Bool.false_eq_true, if_false, if_true]
  · exact ⟨rfl, calls⟩
  · exact ⟨rfl, calls⟩

theorem hear_bypasses (c : Client σ) (e : Event) : c.Bypasses (c.hear e) := by
  cases e with
  | connected result =>
    cases result with
    | error reason => exact .of_same rfl rfl
    | ok _ => exact c.begin_bypasses
  | disconnected cause => exact .of_same rfl rfl
  | message p =>
    cases told : c.onMessage <;> simp only [hear, told, Bool.false_eq_true, if_false, if_true]
    · exact .of_same rfl rfl
    · exact .of_same rfl rfl
  | acknowledged id reason =>
    exact ⟨rfl, (c.outbox.acknowledge_publishes c.wire id reason).inSession⟩

inductive Moves (c : Client σ) (reply : Reply) (d : Client σ) : Action σ → Prop where
  | bypasses {action : Action σ} (other : action ≠ .advance) (bypasses : c.Bypasses d) :
      Moves c reply d action
  | adds {id : BrokerId} {host : String} {port : UInt16} (answer : reply = some (.ok ()))
      (after : d = { c with shared := { c.shared with
        brokers := c.shared.brokers.insert id ⟨host, port⟩ } }) :
      Moves c reply d (.addBroker id host port)
  | removes {id : BrokerId} (after : d = c.removeBroker id) : Moves c reply d (.removeBroker id)
  | advances (after : d = c.advance) : Moves c reply d .advance
  | wakes {limit : Option Duration} (here : c.network = .asleep limit)
      (after : d = { c with network := .resting none }) : Moves c reply d .wake
  | leaves {failed : Bool} (here : c.network = .running)
      (after : d = { c with network := if failed then .ended else .entering }) :
      Moves c reply d (.leaveLoop failed)
  | shuts (after : d = c.shutDown) : Moves c reply d .shutDown

theorem moves_addBroker (c : Client σ) (id : BrokerId) (host : String) (port : UInt16) :
    c.Moves (some (c.addBroker id host port).1) (c.addBroker id host port).2
      (.addBroker id host port) := by
  by_cases empty : host.isEmpty = true
  · simp only [addBroker, if_pos empty]
    exact .bypasses nofun (.of_same rfl rfl)
  · simp only [addBroker, if_neg empty]
    exact .adds rfl rfl

theorem moves_wake (c : Client σ) : c.Moves none c.wake .wake := by
  unfold wake
  split
  · rename_i limit here
    exact .wakes here rfl
  · exact .bypasses nofun (.of_same rfl rfl)

theorem moves_leaveLoop (c : Client σ) (failed : Bool) :
    c.Moves none (c.leaveLoop failed) (.leaveLoop failed) := by
  unfold leaveLoop
  split
  · rename_i here
    exact .leaves here rfl
  · exact .bypasses nofun (.of_same rfl rfl)

theorem step_moves {action : Action σ} {reply : Reply}
    (stepped : c.step action = some (reply, d)) : c.Moves reply d action := by
  cases action with
  | publish p priority =>
    obtain ⟨_, taken⟩ := of_guard stepped
    cases taken
    exact .bypasses nofun (c.publish_bypasses p priority)
  | subscribe pattern qos =>
    obtain ⟨_, taken⟩ := of_guard stepped
    cases taken
    exact .bypasses nofun (c.subscribe_bypasses pattern qos)
  | unsubscribe pattern =>
    obtain ⟨_, taken⟩ := of_guard stepped
    cases taken
    exact .bypasses nofun (c.unsubscribe_bypasses pattern)
  | addBroker id host port =>
    obtain ⟨_, taken⟩ := of_guard stepped
    cases taken
    exact c.moves_addBroker id host port
  | removeBroker id =>
    obtain ⟨_, taken⟩ := of_guard stepped
    cases taken
    exact .removes rfl
  | enter call p late =>
    obtain ⟨_, taken⟩ := of_guard stepped
    cases taken
    obtain ⟨course, calls⟩ := c.enterPublisher_bypasses p late
    exact .bypasses nofun ⟨course, calls⟩
  | resume call late =>
    obtain ⟨publisher, _, resumed⟩ := Option.bind_eq_some_iff.mp stepped
    obtain ⟨_, taken⟩ := of_guard resumed
    cases taken
    obtain ⟨course, calls⟩ := c.resumePublisher_bypasses publisher late
    exact .bypasses nofun ⟨course, calls⟩
  | advance =>
    cases stepped
    exact .advances rfl
  | wake =>
    cases stepped
    exact c.moves_wake
  | hear e =>
    obtain ⟨_, rfl, rfl⟩ := hear_of_step stepped
    exact .bypasses nofun (c.hear_bypasses e)
  | leaveLoop failed =>
    cases stepped
    exact c.moves_leaveLoop failed
  | shutDown =>
    obtain ⟨_, taken⟩ := of_guard stepped
    cases taken
    exact .shuts rfl
  | drift state =>
    cases stepped
    exact .bypasses nofun (.of_same rfl rfl)

section Thread

/-- The network thread leaves the registrations alone, and never stops by itself. -/
theorem advance_course (c : Client σ) : c.advance.course =
    { c.course with
      network := c.advance.network
      retry := c.advance.retry
      lastReached := c.advance.shared.lastReached } := by
  cases stage : c.network with
  | resting pause =>
    simp only [advance, stage, beginRound]
    split
    · rfl
    · split <;> rfl
  | choosing =>
    simp only [advance, stage, chooseBroker]
    split <;> rfl
  | reconnecting =>
    simp only [advance, stage, dialAgain]
    split <;> rfl
  | dialling rest last =>
    simp only [advance, stage]
    cases rest with
    | nil => rfl
    | cons candidate rest =>
      simp only [dial]
      split <;> rfl
  | entering =>
    simp only [advance, stage]
    split <;> rfl
  | settling accepted =>
    simp only [advance, stage, settleRound]
    split
    · rfl
    · split <;> rfl
  | asleep | running | stopped =>
    have still : c.advance = c := by simp only [advance, stage]
    rw [still]
    rfl
  | _ =>
    simp only [advance, stage]
    rfl

/-- A shutdown asks the network thread to stop, and waits. -/
theorem shutDown_course (c : Client σ) : c.shutDown.course =
    { c.course with isRunning := c.shutDown.isRunning, closing := c.shutDown.closing } := by
  cases stage : c.closing with
  | joining =>
    simp only [shutDown, stage]
    split <;> rfl
  | closed =>
    have still : c.shutDown = c := by simp only [shutDown, stage]
    rw [still]
    rfl
  | _ =>
    simp only [shutDown, stage]
    rfl

end Thread

end Client

def Network.Makes : Network → Call → Prop
  | dialling ((_, broker) :: _) _, .connect b _ _ => b = broker
  | reconnecting, .reconnect _ => True
  | entering, .run _ => True
  | _, _ => False

def Call.IsFarewell : Call → Prop
  | disconnect reason expiry _ => reason = .disconnectWithWillMessage ∧ expiry = some .zero
  | _ => False

namespace Client

variable {σ : Type}

theorem advance_makes (c : Client σ) : c.wire.Extends c.advance.wire c.network.Makes := by
  cases stage : c.network with
  | resting pause =>
    simp only [advance, stage, beginRound]
    split
    · exact .refl _
    · split <;> exact .refl _
  | choosing =>
    simp only [advance, stage, chooseBroker]
    split <;> exact .refl _
  | reconnecting =>
    have called : c.wire.Extends c.wire.reconnect.2 Network.reconnecting.Makes := by
      apply Wire.Extends.after
      trivial
    simp only [advance, stage, dialAgain]
    cases told : c.wire.reconnect with
    | mk result w =>
      rw [told] at called
      cases result <;> exact called
  | dialling rest last =>
    simp only [advance, stage]
    cases rest with
    | nil => exact .refl _
    | cons candidate rest =>
      obtain ⟨id, broker⟩ := candidate
      have called : c.wire.Extends (c.wire.connect broker c.terms).2
          (Network.dialling ((id, broker) :: rest) last).Makes := by
        apply Wire.Extends.after
        rfl
      cases told : c.wire.connect broker c.terms with
      | mk result w =>
        rw [told] at called
        cases result <;> simp only [dial, told] <;> exact called
  | entering =>
    simp only [advance, stage]
    split
    · exact .after trivial _
    · exact .refl _
  | settling accepted =>
    simp only [advance, stage, settleRound]
    split
    · exact .refl _
    · split <;> exact .refl _
  | _ =>
    simp only [advance, stage]
    exact .refl _

theorem shutDown_farewells (c : Client σ) : c.wire.Extends c.shutDown.wire Call.IsFarewell := by
  cases stage : c.closing with
  | hangingUp | hangingUpAgain =>
    simp only [shutDown, stage]
    exact .after ⟨rfl, rfl⟩ _
  | joining =>
    simp only [shutDown, stage]
    split <;> exact .refl _
  | _ =>
    simp only [shutDown, stage]
    exact .refl _

end Client

namespace Step

variable {σ : Type}

theorem moves (s : Step σ) : s.before.Moves s.reply s.after s.action :=
  Client.step_moves s.stepped

theorem advanced {s : Step σ} (doing : s.action = .advance) : s.after = s.before.advance := by
  have stepped := s.stepped
  rw [doing] at stepped
  exact congrArg Prod.snd (Option.some.inj stepped.symm)

theorem shut {s : Step σ} (doing : s.action = .shutDown) : s.after = s.before.shutDown := by
  have stepped := s.stepped
  rw [doing] at stepped
  obtain ⟨_, taken⟩ := Client.of_guard stepped
  exact congrArg Prod.snd (Option.some.inj taken.symm)

/-- Who makes a call: a caller in a session, the network thread at one of its stages, or a
shutdown. -/
theorem calls_by (s : Step σ) : ∀ call ∈ s.calls, call.needsSession = true ∨
    s.action = .advance ∧ s.before.network.Makes call ∨
    s.action = .shutDown ∧ call.IsFarewell := by
  have moves := s.moves
  generalize s.action = action at moves
  have silent : s.after.wire = s.before.wire → s.calls = [] := by
    intro same
    rw [calls, same, Wire.callsSince_of_append (List.append_nil _).symm]
  intro call made
  cases moves with
  | bypasses other bypasses => exact .inl (Wire.forall_callsSince bypasses.calls call made)
  | advances after =>
    have makes := s.before.advance_makes
    rw [← after] at makes
    exact .inr (.inl ⟨rfl, Wire.forall_callsSince makes call made⟩)
  | shuts after =>
    have farewells := s.before.shutDown_farewells
    rw [← after] at farewells
    exact .inr (.inr ⟨rfl, Wire.forall_callsSince farewells call made⟩)
  | adds _ after | removes after | wakes _ after | leaves _ after =>
    rw [silent (after ▸ rfl)] at made
    contradiction

end Step

end Courier
