import Courier.Proofs.Client.Sessions

/-! The state of the connection. Where the network thread is tells which states the
connection can be in, and whether a session is up agrees with that at every stage; callers
have no part in it. -/
namespace Courier

def Action.isCall {σ : Type} : Action σ → Bool
  | publish _ _ | subscribe _ _ | unsubscribe _ | addBroker _ _ _ | removeBroker _ | enter _ _ _
  | resume _ _ => true
  | _ => false

/-- The states the connection can be in at a stage of the network thread. -/
@[simp]
def Network.connections : Network → List Connection
  | resting _ | asleep _ => [.disconnected]
  | choosing | reconnecting | listing | dialling _ _ | reached _ | unreached _ | opened =>
    [.connecting]
  | entering | running | ended => [.disconnected, .connecting, .connected]
  | lost _ => [.connected]
  | settling _ | settled _ => [.disconnected, .connecting]
  | stopped => [.disconnected, .connecting, .shutdown]

def Closing.joined : Closing → Bool
  | hangingUpAgain | clearing | closed => true
  | _ => false

structure Link where
  connected : Bool
  connection : Connection
  accepted : Bool
  network : Network
  closing : Closing

/-- The flag, the state, the mark of an accepted session and the stage of the network
thread agree. -/
structure Link.Aligned (l : Link) : Prop where
  stage : l.connection ∈ l.network.connections
  connected_iff : l.connected = true ↔ l.connection = .connected
  accepted : l.connected = true → l.accepted = true
  joined : l.closing.joined = true → l.network = .stopped

namespace Link.Aligned

variable {l : Link} {n : Network}

theorem at_stage (aligned : l.Aligned) (here : l.network = n) :
    l.connection ∈ n.connections :=
  here ▸ aligned.stage

theorem offline (aligned : l.Aligned) (here : l.network = n) (apart : .connected ∉ n.connections) :
    l.connected = false := by
  apply Bool.eq_false_iff.mpr
  intro online
  exact apart (aligned.connected_iff.mp online ▸ aligned.at_stage here)

/-- The network thread goes on to a stage that fits the connection as it is. -/
theorem goTo (aligned : l.Aligned) (going : l.network ≠ .stopped)
    (stage : l.connection ∈ n.connections) : { l with network := n }.Aligned :=
  ⟨stage, aligned.connected_iff, aligned.accepted,
    fun joined => absurd (aligned.joined joined) going⟩

/-- The next stage fits every connection the present one does. -/
theorem move {here : Network} (aligned : l.Aligned) (stands : l.network = here)
    (going : here ≠ .stopped) (fits : here.connections ⊆ n.connections) :
    { l with network := n }.Aligned := by
  subst stands
  exact aligned.goTo going (fits aligned.stage)

/-- The connection is given up, if there was one. -/
theorem drop {x : Connection} (aligned : l.Aligned) (going : l.network ≠ .stopped)
    (stage : x ∈ n.connections) (apart : x ≠ .connected) (accepted : Bool) :
    { l with connected := false, connection := x, accepted, network := n }.Aligned := by
  refine ⟨stage, ?_, ?_, fun joined => absurd (aligned.joined joined) going⟩
  · exact ⟨fun online => absurd online Bool.false_ne_true, fun same => absurd same apart⟩
  · exact fun online => absurd online Bool.false_ne_true

end Link.Aligned

namespace Client

variable {σ : Type} {c d : Client σ}

def link (c : Client σ) : Link :=
  ⟨c.outbox.connected, c.shared.connection, c.shared.accepted, c.network, c.closing⟩

section Callers

theorem withOutbox_link {o : Outbox} (same : o.connected = c.outbox.connected) (w : Wire σ) :
    (c.withOutbox o w).link = c.link := by
  simp only [link, outbox, withOutbox, same]

theorem accept_link (c : Client σ) (p : Publication) (priority : Priority) (sync : Bool) :
    (c.accept p priority sync).2.link = c.link := by
  have same := (c.outbox.accept_session c.wire c.nextSeq p priority sync).1
  cases taken : c.outbox.accept c.wire c.nextSeq p priority sync with
  | mk result rest =>
    obtain ⟨o, w⟩ := rest
    rw [taken] at same
    rw [accept_eq taken]
    exact withOutbox_link (c := { c with nextSeq := c.nextSeq + 1 }) same w

theorem publish_link (c : Client σ) (p : Publication) (priority : Priority) :
    (c.publish p priority).2.link = c.link := by
  by_cases admitted : c.admits p priority = true
  · rw [publish_of_admits admitted]
    have accepted := c.accept_link p priority false
    cases taken : c.accept p priority false with
    | mk result d =>
      rw [taken] at accepted
      cases result with
      | ok m => exact (withOutbox_link rfl d.wire).trans accepted
      | error fault => exact accepted
  · rw [publish_of_not_admits admitted]

theorem seekOutcome_link (c : Client σ) (m : Message) (late : Bool) :
    (c.seekOutcome m late).2.link = c.link := by
  rw [seekOutcome_eq]
  exact withOutbox_link (c.outbox.seek_connected m late) c.wire

theorem seekRoom_link (c : Client σ) (p : Publication) (late : Bool) :
    (c.seekRoom p late).2.link = c.link := by
  unfold seekRoom
  split
  · have accepted := c.accept_link p .low true
    cases taken : c.accept p .low true with
    | mk result d =>
      rw [taken] at accepted
      cases result with
      | ok m => exact (d.seekOutcome_link m late).trans accepted
      | error fault => exact accepted
  · split
    · rfl
    · split <;> rfl

theorem enterPublisher_link (c : Client σ) (p : Publication) (late : Bool) :
    (c.enterPublisher p late).2.link = c.link := by
  unfold enterPublisher
  split
  · rfl
  · split
    · rfl
    · exact c.seekRoom_link p late

theorem resumePublisher_link (c : Client σ) (publisher : Publisher) (late : Bool) :
    (c.resumePublisher publisher late).2.link = c.link := by
  cases publisher with
  | awaitingRoom p => exact c.seekRoom_link p late
  | awaitingOutcome m => exact c.seekOutcome_link m late
  | finished result => rfl

theorem subscribe_link (c : Client σ) (pattern : String) (qos : QoS) :
    (c.subscribe pattern qos).2.link = c.link := by
  unfold subscribe
  split
  · rfl
  · dsimp only
    split
    · split <;> rfl
    · rfl

theorem unsubscribe_link (c : Client σ) (pattern : String) :
    (c.unsubscribe pattern).2.link = c.link := by
  unfold unsubscribe
  split
  · rfl
  · split
    · dsimp only
      split <;> rfl
    · rfl

theorem addBroker_link (c : Client σ) (id : BrokerId) (host : String) (port : UInt16) :
    (c.addBroker id host port).2.link = c.link := by
  unfold addBroker
  split <;> rfl

/-- No caller has a part in it. -/
theorem step_link {action : Action σ} {reply : Reply} (caller : action.isCall = true)
    (stepped : c.step action = some (reply, d)) : d.link = c.link := by
  cases action with
  | publish p priority =>
    obtain ⟨_, taken⟩ := of_guard stepped
    cases taken
    exact c.publish_link p priority
  | subscribe pattern qos =>
    obtain ⟨_, taken⟩ := of_guard stepped
    cases taken
    exact c.subscribe_link pattern qos
  | unsubscribe pattern =>
    obtain ⟨_, taken⟩ := of_guard stepped
    cases taken
    exact c.unsubscribe_link pattern
  | addBroker id host port =>
    obtain ⟨_, taken⟩ := of_guard stepped
    cases taken
    exact c.addBroker_link id host port
  | removeBroker id =>
    obtain ⟨_, taken⟩ := of_guard stepped
    cases taken
    rfl
  | enter call p late =>
    obtain ⟨_, taken⟩ := of_guard stepped
    cases taken
    exact c.enterPublisher_link p late
  | resume call late =>
    obtain ⟨publisher, _, resumed⟩ := Option.bind_eq_some_iff.mp stepped
    obtain ⟨_, taken⟩ := of_guard resumed
    cases taken
    exact c.resumePublisher_link publisher late
  | _ => contradiction

end Callers

section Thread

variable (aligned : c.link.Aligned)

include aligned

/-- A round begins when there is no connection. -/
theorem beginRound_aligned {pause : Option Duration} (here : c.network = .resting pause) :
    (c.beginRound pause).link.Aligned := by
  have offline : c.outbox.connected = false := aligned.offline here (by simp)
  unfold beginRound
  split
  · exact aligned.move here (by simp) (by simp)
  · split
    · exact aligned.move here (by simp) (by simp)
    · show Link.Aligned ⟨c.outbox.connected, .connecting, false, .choosing, c.closing⟩
      rw [offline]
      exact aligned.drop (by simp [link, here]) (by simp) (by simp) false

theorem endSession_aligned {n : Network} (going : c.network ≠ .stopped)
    (alive : c.shared.connection ≠ .shutdown) (stage : .disconnected ∈ n.connections) :
    { c with shared := c.shared.endSession, network := n }.link.Aligned := by
  have ended : Link.Aligned ⟨false, .disconnected, c.shared.accepted, n, c.closing⟩ :=
    aligned.drop going stage (by simp) c.shared.accepted
  have offline : c.shared.endSession.outbox.connected = false := Outbox.purge_connected _
  have apart : c.shared.endSession.connection = .disconnected := if_neg alive
  rw [← offline, ← apart] at ended
  exact ended

theorem advance_aligned : c.advance.link.Aligned := by
  unfold advance
  cases here : c.network with
  | resting pause => exact beginRound_aligned aligned here
  | asleep | running | stopped => exact aligned
  | choosing =>
    dsimp only
    unfold chooseBroker
    split <;> exact aligned.move here (by simp) (by simp)
  | reconnecting =>
    dsimp only
    unfold dialAgain Wire.reconnect
    obtain ⟨result, state⟩ := c.wire.transport.reconnect c.wire.state
    cases result <;> exact aligned.move here (by simp) (by simp)
  | listing | reached | unreached => exact aligned.move here (by simp) (by simp)
  | dialling rest last =>
    cases rest with
    | nil =>
      dsimp only [dial]
      exact aligned.move here (by simp) (by simp)
    | cons candidate rest =>
      obtain ⟨id, broker⟩ := candidate
      cases told : c.wire.connect broker c.terms with
      | mk result w =>
        cases result <;> simp only [dial, told] <;>
          exact aligned.move here (by simp) (by simp)
  | opened | entering =>
    dsimp only
    split <;> exact aligned.move here (by simp) (by simp)
  | ended =>
    dsimp only
    -- whether the loop left a connection behind tells which of the two stages fits
    split
    · rename_i online
      apply aligned.goTo (by simp [link, here])
      simp [aligned.connected_iff.mp online]
    · rename_i offline
      apply aligned.goTo (by simp [link, here])
      have apart : c.link.connection ≠ .connected := fun same =>
        offline (aligned.connected_iff.mpr same)
      have stage : c.link.connection ∈ Network.ended.connections := aligned.at_stage here
      simp only [Network.connections, List.mem_cons, List.not_mem_nil, or_false] at stage ⊢
      rcases stage with idle | dialling | up
      · exact .inl idle
      · exact .inr dialling
      · exact absurd up apart
  | lost accepted =>
    have up : c.shared.connection = .connected := List.mem_singleton.mp (aligned.at_stage here)
    exact endSession_aligned aligned (by simp [here]) (by simp [up]) (by simp)
  | settling accepted =>
    dsimp only
    unfold settleRound
    split
    · exact aligned.move here (by simp) (by simp)
    · split <;> exact aligned.move here (by simp) (by simp)
  | settled pause =>
    have stage : c.shared.connection ∈ (Network.settled pause).connections :=
      aligned.at_stage here
    have offline : c.outbox.connected = false := aligned.offline here (by simp)
    dsimp only
    split
    · show Link.Aligned ⟨c.outbox.connected, .disconnected, c.shared.accepted, _, c.closing⟩
      rw [offline]
      exact aligned.drop (by simp [link, here]) (by simp) (by simp) _
    · rename_i idle
      have down : c.shared.connection = .disconnected := by simpa [idle] using stage
      exact aligned.goTo (by simp [link, here]) (List.mem_singleton.mpr down)

theorem wake_aligned : c.wake.link.Aligned := by
  unfold wake
  split
  · rename_i limit here
    exact aligned.move here (by simp) (by simp)
  · exact aligned

theorem leaveLoop_aligned (failed : Bool) : (c.leaveLoop failed).link.Aligned := by
  unfold leaveLoop
  split
  · rename_i here
    cases failed <;> exact aligned.move here (by simp) (by simp)
  · exact aligned

/-- An accepted connection is noted, whatever was before it. -/
theorem begin_aligned (here : c.network = .running) :
    (c.hear (.connected (.ok ()))).link.Aligned := by
  have online : (c.shared.beginSession c.wire).1.outbox.connected = true :=
    (Outbox.pump_session { c.outbox with connected := true } _).1
  have begun : Link.Aligned ⟨(c.shared.beginSession c.wire).1.outbox.connected, .connected, true,
      c.network, c.closing⟩ := by
    rw [online]
    refine ⟨?_, ?_, fun _ => rfl, aligned.joined⟩
    · simp [here]
    · exact ⟨fun _ => rfl, fun _ => rfl⟩
  cases told : c.onConnected <;> simp only [hear, told, Bool.false_eq_true, if_false, if_true]
  · exact begun
  · exact begun

theorem hear_aligned (e : Event) (here : c.network = .running) : (c.hear e).link.Aligned := by
  cases e with
  | connected result =>
    cases result with
    | error reason => exact aligned
    | ok _ => exact begin_aligned aligned here
  | disconnected cause =>
    have alive : c.shared.connection ≠ .shutdown := by
      intro shut
      have stage : c.shared.connection ∈ Network.running.connections := aligned.at_stage here
      simp [shut] at stage
    exact endSession_aligned aligned (by simp [here]) alive (by simp [here])
  | message p =>
    cases told : c.onMessage <;> simp only [hear, told, Bool.false_eq_true, if_false, if_true]
    · exact aligned
    · exact aligned
  | acknowledged id reason =>
    have same := (c.outbox.acknowledge_session c.wire id reason).1
    have kept := withOutbox_link same (c.outbox.acknowledge c.wire id reason).2
    rw [← kept] at aligned
    exact aligned

/-- A shutdown ends the connection once the network thread has stopped. -/
theorem shutDown_aligned : c.shutDown.link.Aligned := by
  obtain ⟨stage, connected_iff, accepted, joined⟩ := aligned
  unfold shutDown
  cases here : c.closing with
  | alive | hangingUp =>
    exact ⟨stage, connected_iff, accepted, fun shut => absurd shut Bool.false_ne_true⟩
  | joining =>
    dsimp only
    split
    · rename_i stopped
      exact ⟨stage, connected_iff, accepted, fun _ => stopped⟩
    · exact ⟨stage, connected_iff, accepted, joined⟩
  | hangingUpAgain =>
    have stopped := joined (congrArg Closing.joined here)
    exact ⟨stage, connected_iff, accepted, fun _ => stopped⟩
  | clearing =>
    have stopped : c.network = .stopped := joined (congrArg Closing.joined here)
    have offline : ({ c.outbox with connected := false } : Outbox).clear.connected = false :=
      Outbox.clear_connected _
    show Link.Aligned ⟨({ c.outbox with connected := false } : Outbox).clear.connected, .shutdown,
      c.shared.accepted, c.network, .closed⟩
    rw [offline]
    refine ⟨?_, ?_, ?_, fun _ => stopped⟩
    · simp [stopped]
    · simp
    · simp
  | closed => exact ⟨stage, connected_iff, accepted, joined⟩

/-- Every step keeps the connection in line with the stage of the network thread. -/
theorem step_aligned {action : Action σ} {reply : Reply}
    (stepped : c.step action = some (reply, d)) : d.link.Aligned := by
  by_cases caller : action.isCall = true
  · rw [step_link caller stepped]
    exact aligned
  cases action with
  | advance =>
    cases stepped
    exact advance_aligned aligned
  | wake =>
    cases stepped
    exact wake_aligned aligned
  | hear e =>
    obtain ⟨here, rfl, rfl⟩ := hear_of_step stepped
    exact hear_aligned aligned e here
  | leaveLoop failed =>
    cases stepped
    exact leaveLoop_aligned aligned failed
  | shutDown =>
    obtain ⟨_, taken⟩ := of_guard stepped
    cases taken
    exact shutDown_aligned aligned
  | drift state =>
    cases stepped
    exact aligned
  | _ => exact absurd rfl caller

end Thread

end Client

deriving instance DecidableEq for Network

instance : (n : Network) → Decidable (∃ pause, n = .resting pause)
  | .resting pause => isTrue ⟨pause, rfl⟩
  | .asleep _ | .choosing | .reconnecting | .listing | .dialling _ _ | .reached _ | .unreached _
  | .opened | .entering | .running | .ended | .lost _ | .settling _ | .settled _ | .stopped =>
    isFalse nofun

def Step.BeginsRound {σ : Type} (s : Step σ) : Prop :=
  (∃ pause, s.before.network = .resting pause) ∧ s.after.network = .choosing

instance {σ : Type} (s : Step σ) : Decidable s.BeginsRound :=
  inferInstanceAs (Decidable (_ ∧ _))

namespace Client

section Runs

variable {σ : Type} {c d : Client σ} {options : Options} {wire : Wire σ}
  {actions : List (Action σ)}

theorem link_of_create (created : create options wire = .ok c) :
    c.link = ⟨false, .disconnected, false, .resting none, .alive⟩ := by
  obtain ⟨slots, _, rfl⟩ := eq_of_create created
  rfl

theorem Reaches.aligned (created : create options wire = .ok c) (run : Reaches c actions d) :
    d.link.Aligned := by
  refine run.induct (P := fun _ d => d.link.Aligned) ?_ ?_
  · rw [link_of_create created]
    exact ⟨by simp, by simp, by simp, by simp [Closing.joined]⟩
  · intro _ s before
    exact step_aligned before s.stepped

structure Tracked (history : History σ) (d : Client σ) : Prop where
  connected_iff : d.outbox.connected = true ↔ d.shared.connection = .connected
  accepted : d.outbox.connected = true → d.shared.accepted = true
  asleep : ∀ limit, d.network = .asleep limit → d.shared.connection = .disconnected
  rounds : ∀ s ∈ history, s.BeginsRound →
    s.before.outbox.connected = false ∧ s.after.outbox.connected = false
  online : d.outbox.connected = true ↔ history.Online
  /-- Publish, subscribe and unsubscribe calls are made between an accepted connection and
  its end; the step that accepts it raises the flag before its first call. -/
  calls : ∀ past s later, history = past ++ s :: later → ∀ call ∈ s.calls,
    call.needsSession = true → s.after.outbox.connected = true ∧
      (s.before.outbox.connected = true ∨ s.turn = .begins) ∧ History.Online (past ++ [s])

/-- Whatever brokers come and go, however dials and loops end, and whichever events the
transport reports or leaves out. -/
theorem connection_tracked (created : create options wire = .ok c) (run : Reaches c actions d) :
    Tracked (c.trace actions) d := by
  have aligned := run.aligned created
  refine ⟨aligned.connected_iff, aligned.accepted, ?_, ?_, run.online_iff created, ?_⟩
  · intro limit asleep
    exact List.mem_singleton.mp (aligned.at_stage asleep)
  · rintro s member ⟨⟨pause, resting⟩, choosing⟩
    obtain ⟨earlier, led⟩ := run.before s member
    have before := led.aligned created
    have after := step_aligned before s.stepped
    exact ⟨before.offline resting (by simp), after.offline choosing (by simp)⟩
  · intro past s later parts call made needs
    obtain ⟨earlier, led, rfl⟩ := run.split parts
    have up : s.after.outbox.connected = true := by
      by_contra down
      rw [s.calls_of_offline (Bool.eq_false_iff.mpr down) call made] at needs
      contradiction
    refine ⟨up, s.online_before up, ?_⟩
    have next := (led.snoc s.stepped).online_iff created
    rw [led.trace_snoc s.stepped] at next
    exact next.mp up

open Rehearsal in
/-- The connection is lost with a message in flight and no report of it; with no broker left
to dial the network thread falls asleep. -/
theorem connection_tracked_unreported :
    ∃ actions limit, create settings Line.wire = .ok client ∧
      Reaches client actions (client.after actions) ∧
      (client.after actions).network = .asleep limit ∧
      (∃ s ∈ client.trace actions, s.BeginsRound) ∧
      (∃ s ∈ client.trace actions, ∃ call ∈ s.calls, call.needsSession = true) ∧
      Tracked (client.trace actions) (client.after actions) := by
  let actions := connects ++ [.publish publication .high, .removeBroker 0, .leaveLoop true,
    .advance, .advance, .advance, .advance, .advance]
  have created : create settings Line.wire = .ok client := rfl
  have run : Reaches client actions (client.after actions) := reaches_after (by decide +kernel)
  have asleep : (client.after actions).network = .asleep none := rfl
  have begins : ∃ s ∈ client.trace actions, s.BeginsRound := by
    exact ⟨(client.trace actions)[2], List.getElem_mem _, ⟨none, rfl⟩, rfl⟩
  have calls : ∃ s ∈ client.trace actions, ∃ call ∈ s.calls, call.needsSession = true := by
    decide +kernel
  exact ⟨actions, none, created, run, asleep, begins, calls, connection_tracked created run⟩

end Runs

end Client

end Courier
