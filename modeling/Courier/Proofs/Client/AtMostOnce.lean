import Courier.Proofs.Client.Record
import Courier.Proofs.Client.Sessions
import Courier.Proofs.Client.Submissions

/-! Messages that do not outlive a session. A publish checks for a session before it waits
for room, and nothing of this kind ever waits for room; so what a session has taken in is
sent in it or not at all. -/
namespace Courier

variable {σ : Type}

/-- Nothing waits for room that would not outlive a session, and without a session nothing of
that kind is under way. -/
structure Client.Lasting (c : Client σ) : Prop where
  blocked : ∀ call p, c.publishers.get? call = some (.awaitingRoom p) → p.qos ≠ .atMostOnce
  underway : c.outbox.connected = false → ∀ m, c.outbox.Underway m → m.qos ≠ .atMostOnce

def Step.Hands (s : Step σ) (m : Message) : Prop :=
  (∃ p, s.Accepts p m ∧ s.attempts ≠ []) ∨ ∃ result, s.Offers m result

namespace Step

variable {s : Step σ} {p : Publication} {m : Message}

/-- A publication that would not outlive a session is taken in only while one is up. -/
theorem Accepts.online (accepts : s.Accepts p m) (sound : s.before.Sound)
    (lasting : s.before.Lasting) (ephemeral : m.qos = .atMostOnce) :
    s.before.outbox.connected = true ∧ s.after.outbox.connected = true := by
  obtain ⟨priority, sync, late, turn, taken⟩ := accepts.taken sound
  have guarantee : p.qos = .atMostOnce := taken.same_qos.symm.trans ephemeral
  have up : s.before.outbox.connected = true := by
    have sendable : s.before.isUnsendable p = false → s.before.outbox.connected = true := by
      intro free
      show s.before.shared.outbox.connected = true
      simpa [Client.isUnsendable, guarantee] using free
    have comes := comes_of_turn turn
    cases comes with
    | published _ admitted | entered _ admitted =>
      exact sendable (Client.admits_iff.mp admitted).2.1
    | resumed _ waited => exact absurd guarantee (lasting.blocked _ p waited)
  rw [s.connected_after, turn]
  exact ⟨up, up⟩

/-- Publishers that would not outlive a session do not come to wait for room. -/
theorem blocked_after (lasting : s.before.Lasting) :
    ∀ call p, s.after.publishers.get? call = some (.awaitingRoom p) → p.qos ≠ .atMostOnce := by
  intro call p waits
  have attends := s.attends
  generalize s.action = action at attends
  cases attends with
  | other undisturbed =>
    rw [undisturbed.1] at waits
    exact lasting.blocked call p waits
  | enters _ _ publishers =>
    rw [publishers, Table.get?_insert] at waits
    split at waits
    · obtain ⟨rfl, _, _, outlives⟩ := Client.enterPublisher_awaitingRoom (Option.some.inj waits)
      exact outlives
    · exact lasting.blocked call p waits
  | @resumes _ publisher late found blocked publishers =>
    rw [publishers, Table.get?_insert] at waits
    split at waits
    · have next := Option.some.inj waits
      cases publisher with
      | awaitingRoom q =>
        obtain ⟨rfl, _, outlives⟩ := Client.seekRoom_awaitingRoom next
        exact outlives
      | awaitingOutcome n =>
        rw [Client.resumePublisher, Client.seekOutcome_eq] at next
        generalize (s.before.outbox.seek n late).1 = result at next
        cases result <;> contradiction
      | finished result => contradiction
    · exact lasting.blocked call p waits
  | shuts publishers =>
    rw [publishers] at waits
    exact lasting.blocked call p waits

/-- The end of a session ends what would not outlive it, and nothing of that kind comes
until the next one. -/
theorem underway_after (sound : s.before.Sound) (lasting : s.before.Lasting)
    (offline : s.after.outbox.connected = false) (underway : s.after.outbox.Underway m) :
    m.qos ≠ .atMostOnce := by
  intro ephemeral
  rcases underway_arrives sound underway with before | ⟨p, accepts⟩
  · cases up : s.before.outbox.connected with
    | false => exact lasting.underway up m before ephemeral
    | true =>
      rw [s.connected_after, up] at offline
      cases turn : s.turn with
      | loses =>
        obtain ⟨_, _, _, stands⟩ := lost sound turn
        have kept : ∀ st, s.after.outbox.Stands m st → ∃ outcome, st = .ended outcome := by
          intro st here
          rcases (stands m st).mp here with ⟨_, _, rfl⟩ | ⟨_, stays⟩
          · exact ⟨_, rfl⟩
          · exact absurd ⟨ephemeral, before⟩ stays
        rcases underway with waits | ⟨id, flies⟩
        · obtain ⟨_, ended⟩ := kept _ waits
          contradiction
        · obtain ⟨_, ended⟩ := kept _ flies
          contradiction
      | clears =>
        obtain ⟨_, _, _, _, none⟩ := cleared sound turn
        rcases underway with waits | ⟨id, flies⟩
        · exact none m _ waits
        · exact none m _ flies
      | _ =>
        rw [turn] at offline
        contradiction
  · have online := (accepts.online sound lasting ephemeral).2
    rw [offline] at online
    contradiction

theorem lasting_after (sound : s.before.Sound) (lasting : s.before.Lasting) : s.after.Lasting :=
  ⟨blocked_after lasting, fun offline _ => underway_after sound lasting offline⟩

end Step

structure Ephemeral (history : History σ) (c : Client σ) : Prop where
  shed : c.outbox.connected = false →
    ∀ m ∈ c.outbox.queue ++ c.outbox.inFlight.values, m.qos ≠ .atMostOnce
  taken : ∀ s ∈ history, ∀ p m, s.Accepts p m → m.qos = .atMostOnce →
    s.before.outbox.connected = true ∧ s.after.outbox.connected = true
  /-- From the step that takes a message in until the transport is asked to publish it, there
  and then or later, the session stays up. -/
  sent : ∀ past s rest p m, history = past ++ s :: rest → s.Accepts p m →
    m.qos = .atMostOnce → ∀ between t later, s :: rest = between ++ t :: later → t.Hands m →
      s.before.outbox.connected = true ∧ ∀ u ∈ between, u.after.outbox.connected = true

namespace Client

variable {c d : Client σ} {options : Options} {wire : Wire σ} {actions : List (Action σ)}

theorem Reaches.lasting (created : create options wire = .ok c) (run : Reaches c actions d) :
    d.Lasting := by
  refine run.induct_run (P := fun _ d => d.Lasting) ⟨?_, ?_⟩ ?_
  · intro call p waits
    obtain ⟨_, _, _, _, _, publishers, _⟩ := of_create created
    rw [publishers] at waits
    contradiction
  · intro _ m underway
    have kept : m ∈ c.outbox.places := by
      rcases underway with waits | ⟨id, flies⟩
      · exact waits.kept
      · exact flies.kept
    rw [places_of_create created] at kept
    exact absurd kept (Multiset.notMem_zero m)
  · intro _ s past before
    exact Step.lasting_after (past.sound created) before

/-- While a message that would not outlive a session is under way, the session that took it
in is up. -/
theorem Reaches.online_since (created : create options wire = .ok c) (run : Reaches c actions d)
    {past rest : History σ} {s : Step σ} {p : Publication} {m : Message}
    (parts : c.trace actions = past ++ s :: rest) (accepts : s.Accepts p m)
    (ephemeral : m.qos = .atMostOnce) (underway : d.outbox.Underway m) :
    ∀ u ∈ s :: rest, u.after.outbox.connected = true := by
  revert rest
  refine run.induct_run (P := fun history d => d.outbox.Underway m →
    ∀ {rest}, history = past ++ s :: rest → ∀ u ∈ s :: rest, u.after.outbox.connected = true)
    ?_ ?_ underway
  · intro _ rest parts
    simp at parts
  · intro earlier t led before underway rest parts
    have sound := led.sound created
    have up : t.after.outbox.connected = true := by
      by_contra down
      have lasting := Step.lasting_after sound (led.lasting created)
      exact lasting.underway (Bool.eq_false_iff.mpr down) m underway ephemeral
    rcases History.snoc_parts parts with ⟨rfl, _, rfl⟩ | ⟨others, rfl, same⟩
    · exact List.forall_mem_singleton.mpr up
    · have known : s ∈ c.trace earlier := same ▸ List.mem_append_right _ List.mem_cons_self
      have stood : t.before.outbox.Underway m := by
        rcases Step.underway_arrives sound underway with stood | ⟨q, again⟩
        · exact stood
        · have := (led.recorded created).submitted p m ⟨s, known, accepts⟩
          have := (again.numbered sound).1
          omega
      rw [← List.cons_append, List.forall_mem_append, List.forall_mem_singleton]
      exact ⟨before stood same, up⟩

/-- Whatever the transport does and reports, and in whatever order callers, blocked ones
among them, handlers and the network thread take their turns. -/
theorem at_most_once_ends_with_session (created : create options wire = .ok c)
    (run : Reaches c actions d) : Ephemeral (c.trace actions) d := by
  have taken : ∀ s ∈ c.trace actions, ∀ p m, s.Accepts p m → m.qos = .atMostOnce →
      s.before.outbox.connected = true ∧ s.after.outbox.connected = true := by
    intro s member p m accepts
    obtain ⟨earlier, led⟩ := run.before s member
    exact accepts.online (led.sound created) (led.lasting created)
  refine ⟨?_, taken, ?_⟩
  · intro offline m kept
    refine (run.lasting created).underway offline m ?_
    rcases List.mem_append.mp kept with waits | flies
    · exact .inl waits
    · obtain ⟨id, found⟩ := Table.mem_contents.mp (Multiset.mem_coe.mpr flies)
      exact .inr ⟨id, found⟩
  · intro past s rest p m parts accepts ephemeral between t later order hands
    have member : s ∈ c.trace actions := parts ▸ List.mem_append_right _ List.mem_cons_self
    refine ⟨(taken s member p m accepts ephemeral).1, ?_⟩
    cases between with
    | nil => exact List.forall_mem_nil _
    | cons first others =>
      rw [order, ← List.append_assoc] at parts
      obtain ⟨rfl, _⟩ := List.cons.inj order
      obtain ⟨earlier, led, same⟩ := run.split parts
      refine led.online_since created same accepts ephemeral ?_
      rcases hands with ⟨q, again, _⟩ | ⟨result, offered⟩
      · have known : s ∈ c.trace earlier := same ▸ List.mem_append_right _ List.mem_cons_self
        have := (led.recorded created).submitted p m ⟨s, known, accepts⟩
        have := (again.numbered (led.sound created)).1
        omega
      · exact .inl offered.2.waits

open Rehearsal in
/-- One message goes out at once and one waits until it is acknowledged; what is under way at
the end of the session is gone, and the next session finds nothing. -/
theorem at_most_once_ends_with_session_reconnected :
    ∃ actions p, create settings Line.wire = .ok client ∧
      Reaches client actions (client.after actions) ∧ p.qos = .atMostOnce ∧
      (∃ s ∈ client.trace actions, s.turn = .submits p .high false false ∧ s.attempts = []) ∧
      (∃ s ∈ client.trace actions, s.turn = .loses ∧ s.before.outbox.inFlight.size = 1) ∧
      (client.after actions).outbox.connected = true ∧
      Ephemeral (client.trace actions) (client.after actions) := by
  let p : Publication := { publication with qos := .atMostOnce }
  let actions := connects ++ [.publish p .high, .publish p .high,
    .hear (.acknowledged 1 .success), .hear (.disconnected .connectionLost),
    .hear (.connected (.ok ()))]
  have created : create settings Line.wire = .ok client := rfl
  have run : Reaches client actions (client.after actions) := reaches_after (by decide +kernel)
  have parked : ∃ s ∈ client.trace actions, s.turn = .submits p .high false false ∧
      s.attempts = [] := by decide +kernel
  have lost : ∃ s ∈ client.trace actions, s.turn = .loses ∧
      s.before.outbox.inFlight.size = 1 := by decide +kernel
  have online : (client.after actions).outbox.connected = true := by decide +kernel
  exact ⟨actions, p, created, run, rfl, parked, lost, online,
    at_most_once_ends_with_session created run⟩

end Client

end Courier
