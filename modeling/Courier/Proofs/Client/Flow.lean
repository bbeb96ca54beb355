import Courier.Proofs.Client.Movement
import Courier.Proofs.Outbox.Room

/-! The flow of messages through a client. A waiting message is never held up while there
is room in flight, and never overtaken by a message that is sent at once, along exactly
those runs in which no publisher gives up a message in flight while others wait: the room
it leaves is the only one that is not filled. -/
namespace Courier

variable {σ : Type}

namespace Step

variable {s : Step σ} {m : Message} {late : Bool}

/-- A publisher gives up its message in flight under a session, and others wait. -/
def LeavesRoom (s : Step σ) : Prop :=
  s.before.outbox.connected = true ∧ s.before.outbox.queue ≠ [] ∧
    ∃ m id, s.GivesUp m ∧ s.before.outbox.Stands m (.flying id)

def SendsAtOnce (s : Step σ) : Prop :=
  (∃ p priority sync late, s.turn = .submits p priority sync late) ∧ s.attempts ≠ []

theorem SendsAtOnce.ready (sends : s.SendsAtOnce) : s.before.outbox.Ready := by
  obtain ⟨⟨p, priority, sync, late, turn⟩, attempts⟩ := sends
  have called : ¬s.before.wire.Idles s.after.wire := fun idles => attempts idles.attemptsSince
  have turned := s.turned
  rw [turn] at turned
  cases turned with
  | refused taken | handed taken | entered taken =>
    exact (Outbox.accepts_of_eq taken).ready called

/-- A publisher that asks makes room at most where its own message is. -/
theorem asked_vacates (sound : s.before.Sound) (turn : s.turn = .asks m late) :
    s.before.outbox.Vacates m s.after.outbox ∧
      s.after.outbox.setup = s.before.outbox.setup := by
  have turned := s.turned
  rw [turn] at turned
  cases turned with
  | asked waited outbox =>
    have held := sound.outbox
    rw [waited] at held
    rw [outbox]
    exact ⟨held.seek_vacates late, s.before.outbox.seek_setup m late⟩

theorem withinLimit_after (sound : s.before.Sound) (within : s.before.outbox.WithinLimit) :
    s.after.outbox.WithinLimit := by
  have connect : ∀ up, ({ s.before.outbox with connected := up } : Outbox).WithinLimit :=
    fun _ => within
  have turned := s.turned
  generalize turn : s.turn = t at turned
  cases turned with
  | other outbox => exact outbox ▸ within
  | refused taken => exact within.accept (Outbox.accepts_of_eq taken)
  | @handed _ _ _ m o taken outbox =>
    have limited : o.WithinLimit := within.accept (Outbox.accepts_of_eq taken)
    rw [outbox]
    exact limited
  | @entered _ _ late m o taken outbox =>
    have accepts := Outbox.accepts_of_eq taken
    obtain ⟨held, _⟩ := sound.outbox.accept_ok accepts
    rw [outbox]
    exact (held.seek_vacates late).withinLimit (o.seek_setup m late) (within.accept accepts)
  | asked =>
    obtain ⟨vacates, setup⟩ := asked_vacates sound turn
    exact vacates.withinLimit setup within
  | @begun w _ outbox =>
    have pumped := Outbox.pump_room (connect true) w
    rw [outbox] at pumped
    exact pumped.1
  | @heard id reason outbox =>
    have answered := Outbox.acknowledge_room within s.before.wire id reason
    rw [outbox] at answered
    exact answered.1
  | lost outbox => exact outbox ▸ (connect false).purge
  | cleared _ outbox => exact outbox ▸ Outbox.clear_withinLimit _

/-- Every step but one that leaves room keeps the messages flowing. -/
theorem flows_after (sound : s.before.Sound) (within : s.before.outbox.WithinLimit)
    (flows : s.before.outbox.Flows) (fills : ¬s.LeavesRoom) : s.after.outbox.Flows := by
  have turned := s.turned
  cases turn : s.turn with
  | other =>
    rw [turn] at turned
    cases turned with
    | other outbox => exact outbox ▸ flows
  | submits p priority sync late =>
    rw [turn] at turned
    cases turned with
    | refused taken => exact flows.accept (Outbox.accepts_of_eq taken)
    | @handed _ _ _ m o taken outbox =>
      have flowing : o.Flows := flows.accept (Outbox.accepts_of_eq taken)
      rw [outbox]
      exact flowing
    | entered taken outbox =>
      rw [outbox]
      exact flows.accept_seek sound.outbox (Outbox.accepts_of_eq taken) late
  | asks m late =>
    obtain ⟨_, _, _, sought, _⟩ := asked sound turn
    obtain ⟨vacates, setup⟩ := asked_vacates sound turn
    cases vacates with
    | none inFlight queue => exact flows.of_fewer setup inFlight queue
    | @room id flew inFlight queue =>
      have waits : s.before.outbox.connected = true → s.before.outbox.queue ≠ [] →
          ¬s.GivesUp m := fun online others gave => fills ⟨online, others, m, id, gave, flew⟩
      generalize answer : s.reply = reply at sought
      generalize s.after.outbox = q at sought setup queue ⊢
      -- What is in flight has no outcome yet: its publisher gives it up, or waits on.
      cases sought with
      | ended found =>
        have := sound.outbox.stands_unique flew found
        contradiction
      | gaveUp =>
        intro online
        left
        by_contra others
        rw [queue] at others
        rw [(Outbox.setup_eq_iff.mp setup).1] at online
        exact waits online others ⟨answer, .inl ⟨late, turn⟩⟩
      | waits => exact flows
  | begins =>
    rw [turn] at turned
    cases turned with
    | @begun w _ outbox =>
      have limited : ({ s.before.outbox with connected := true } : Outbox).WithinLimit := within
      have pumped := Outbox.pump_room limited w
      rw [outbox] at pumped
      exact pumped.2
  | hears id reason =>
    rw [turn] at turned
    cases turned with
    | heard outbox =>
      have answered := Outbox.acknowledge_room within s.before.wire id reason
      rw [outbox] at answered
      exact answered.2
  | loses =>
    rw [turn] at turned
    cases turned with
    | lost outbox =>
      exact Outbox.flows_of_disconnected (outbox ▸ Outbox.purge_connected _)
  | clears =>
    rw [turn] at turned
    cases turned with
    | cleared _ outbox =>
      exact Outbox.flows_of_disconnected (outbox ▸ Outbox.clear_connected _)

/-- A step that leaves room holds the waiting messages up. -/
theorem LeavesRoom.not_flows (leaves : s.LeavesRoom) (sound : s.before.Sound)
    (within : s.before.outbox.WithinLimit) : ¬s.after.outbox.Flows := by
  obtain ⟨online, others, m, id, gave, flew⟩ := leaves
  have grounded := gave.gone sound (.flying id)
  obtain ⟨_, ⟨late, turn⟩ | ⟨p, priority, late, turn, told⟩⟩ := gave
  · obtain ⟨vacates, setup⟩ := asked_vacates sound turn
    cases vacates with
    | none inFlight =>
      apply absurd flew
      rwa [Outbox.Stands, inFlight] at grounded
    | room first inFlight queue =>
      exact Outbox.not_flows_of_room within setup online others first inFlight queue
  · exact absurd flew (Accepts.new ⟨priority, true, late, turn, told⟩ sound _)

end Step

namespace Client

variable {c d : Client σ} {options : Options} {wire : Wire σ} {actions : List (Action σ)}

theorem room_of_create (created : create options wire = .ok c) :
    c.outbox.WithinLimit ∧ c.outbox.Flows := by
  obtain ⟨slots, _, outbox⟩ := outbox_of_create created
  rw [outbox]
  exact ⟨Nat.zero_le _, Outbox.flows_of_disconnected rfl⟩

theorem Reaches.withinLimit (created : create options wire = .ok c)
    (run : Reaches c actions d) : d.outbox.WithinLimit :=
  run.induct_run (P := fun _ d => d.outbox.WithinLimit) (room_of_create created).1
    fun _ _ past => Step.withinLimit_after (past.sound created)

/-- Whatever the transport does and in whatever order callers, handlers and the network
thread take their turns: in every state of a run in which a session is up nothing waits, or
there is no room in flight, and nothing that is sent at once overtakes a waiting message,
exactly if no step of the run leaves room. -/
theorem messages_flow_iff (created : create options wire = .ok c) (run : Reaches c actions d) :
    (∀ s ∈ c.trace actions,
      (s.after.outbox.connected = true →
        s.after.outbox.queue = [] ∨ s.after.outbox.isFlightFull = true) ∧
      (s.SendsAtOnce → s.before.outbox.queue = [])) ↔
    ∀ s ∈ c.trace actions, ¬s.LeavesRoom := by
  have both := run.induct_run
    (P := fun history d =>
      ((∀ s ∈ history, s.after.outbox.Flows) → ∀ s ∈ history, ¬s.LeavesRoom) ∧
      ((∀ s ∈ history, ¬s.LeavesRoom) → d.outbox.Flows ∧
        ∀ s ∈ history, s.after.outbox.Flows ∧ (s.SendsAtOnce → s.before.outbox.queue = [])))
    ⟨fun _ => List.forall_mem_nil _,
      fun _ => ⟨(room_of_create created).2, List.forall_mem_nil _⟩⟩ ?_
  · obtain ⟨fills, flows⟩ := both
    constructor
    · intro flowing
      exact fills fun s member => (flowing s member).1
    · intro filled
      exact (flows filled).2
  · rintro earlier s past ⟨fills, flows⟩
    have sound := past.sound created
    have within := past.withinLimit created
    refine ⟨?_, ?_⟩
    · intro flowing
      rw [List.forall_mem_append, List.forall_mem_singleton] at flowing ⊢
      refine ⟨fills flowing.1, ?_⟩
      intro leaves
      exact leaves.not_flows sound within flowing.2
    · intro filled
      rw [List.forall_mem_append, List.forall_mem_singleton] at filled
      obtain ⟨before, flowed⟩ := flows filled.1
      have after := Step.flows_after sound within before filled.2
      refine ⟨after, ?_⟩
      rw [List.forall_mem_append, List.forall_mem_singleton]
      exact ⟨flowed, after, fun sends => before.queue_eq_nil sends.ready⟩

open Rehearsal in
/-- A message waits behind the one in flight, and follows it when that is acknowledged. -/
theorem messages_flow_iff_acknowledged :
    ∃ actions, create settings Line.wire = .ok client ∧
      Reaches client actions (client.after actions) ∧
      ((∀ s ∈ client.trace actions,
        (s.after.outbox.connected = true →
          s.after.outbox.queue = [] ∨ s.after.outbox.isFlightFull = true) ∧
        (s.SendsAtOnce → s.before.outbox.queue = [])) ↔
      ∀ s ∈ client.trace actions, ¬s.LeavesRoom) := by
  let actions := connects ++ [.enter 0 publication false, .publish publication .high,
    .hear (.acknowledged 1 .success)]
  have created : create settings Line.wire = .ok client := rfl
  have run : Reaches client actions (client.after actions) := reaches_after (by decide +kernel)
  exact ⟨actions, created, run, messages_flow_iff created run⟩

open Rehearsal in
/-- The publisher of the message in flight gives it up: the message behind it waits on with
room in flight, and the next publication overtakes it. -/
theorem given_up_flight_stalls_queue :
    ∃ actions, ∃ s : Step Line, create settings Line.wire = .ok client ∧
      Reaches client actions s.before ∧ s.before.outbox.connected = true ∧
      s.before.outbox.queue.length = 1 ∧ s.before.outbox.isFlightFull = false ∧
      s.SendsAtOnce ∧ s.after.outbox.queue.length = 1 := by
  let actions := connects ++ [.enter 0 publication false, .publish publication .high,
    .resume 0 true]
  let s := Step.take (client.after actions) (.publish publication .high) (by decide +kernel)
  have created : create settings Line.wire = .ok client := rfl
  have run : Reaches client actions s.before := reaches_after (by decide +kernel)
  have sends : s.SendsAtOnce :=
    ⟨⟨publication, .high, false, false, by decide +kernel⟩, by decide +kernel⟩
  exact ⟨actions, s, created, run, by decide +kernel, by decide +kernel, by decide +kernel, sends,
    by decide +kernel⟩

end Client

end Courier
