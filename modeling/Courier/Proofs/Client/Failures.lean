import Courier.Proofs.Client.Callers
import Courier.Proofs.Renewals

/-! Calls that fail. Whatever a call has begun under the lock before it fails is taken back:
the record of a subscription, a slot and its place among the free ones. What the client
objects to by itself never reaches the transport. -/
namespace Courier

variable {σ : Type}

/-- The client objects by itself, whatever the transport would say. -/
def ClientFault.isOwn : ClientFault → Bool
  | invalidTopic _ | notConnected | tooManyPending | timeout | invalidBroker _ => true
  | _ => false

/-- A publication that is refused gives its slot back. -/
theorem Outbox.Sound.accept_undone {o q : Outbox} {held : Multiset Message} {next : Nat}
    {w v : Wire σ} {p : Publication} {priority : Priority} {sync : Bool} {fault : ClientFault}
    (sound : o.Sound held next) (accepts : o.Accepts w next p priority sync (.error fault) q v) :
    q = o ∧ (fault.isOwn = true → v = w) := by
  cases accepts with
  | full => exact ⟨rfl, fun _ => rfl⟩
  | @refused slot slots fault state took =>
    constructor
    · simp only [Outbox.release, Message.bare, sound.carry.counts.release_take took]
    · intro own
      contradiction

namespace Client

variable {c d : Client σ} {fault : ClientFault} {p : Publication}

/-- All that the lock protects is as it was: under every filter the same record, and all the
rest the very same. -/
structure Undone (c d : Client σ) (fault : ClientFault) : Prop where
  others : d.shared = { c.shared with subscriptions := d.shared.subscriptions }
  records : ∀ filter, d.shared.subscriptions.get? filter = c.shared.subscriptions.get? filter
  silent : fault.isOwn = true → d.wire = c.wire

theorem Undone.of_same (shared : d.shared = c.shared)
    (silent : fault.isOwn = true → d.wire = c.wire) : c.Undone d fault := by
  refine ⟨?_, ?_, silent⟩
  · rw [shared]
  · intro filter
    rw [shared]

/-- Whoever is told, and what, is no part of it. -/
theorem Undone.setPublisher (undone : c.Undone d fault) (call : Nat) (publisher : Publisher) :
    c.Undone (d.setPublisher call publisher) fault :=
  ⟨undone.others, undone.records, undone.silent⟩

theorem subscribe_undone {pattern : String} {qos : QoS}
    (failed : (c.subscribe pattern qos).1 = .error fault) :
    c.Undone (c.subscribe pattern qos).2 fault := by
  cases checked : Topic.toFilter pattern with
  | error invalid =>
    simp only [subscribe, checked]
    exact .of_same rfl fun _ => rfl
  | ok filter =>
    by_cases online : c.shared.outbox.connected = true
    · cases told : c.wire.subscribe filter qos true with
      | mk result w =>
        simp only [subscribe, checked, if_pos online, told] at failed ⊢
        cases result with
        | ok _ => contradiction
        | error refused =>
          cases failed
          exact ⟨rfl, fun other => Table.get?_restore_insert _ filter other _,
            fun own => absurd own Bool.false_ne_true⟩
    · simp only [subscribe, checked, if_neg online] at failed
      contradiction

theorem unsubscribe_undone {pattern : String}
    (failed : (c.unsubscribe pattern).1 = .error fault) :
    c.Undone (c.unsubscribe pattern).2 fault := by
  cases checked : Topic.toFilter pattern with
  | error invalid =>
    simp only [unsubscribe, checked]
    exact .of_same rfl fun _ => rfl
  | ok filter =>
    by_cases online : c.shared.outbox.connected = true
    · cases told : c.wire.unsubscribe filter with
      | mk result w =>
        simp only [unsubscribe, checked, if_pos online, told] at failed ⊢
        cases result with
        | ok _ => contradiction
        | error refused =>
          cases failed
          exact ⟨rfl, Table.get?_restore_erase _ filter, fun own => absurd own Bool.false_ne_true⟩
    · simp only [unsubscribe, checked, if_neg online] at failed
      contradiction

theorem addBroker_undone {id : BrokerId} {host : String} {port : UInt16}
    (failed : (c.addBroker id host port).1 = .error fault) :
    c.Undone (c.addBroker id host port).2 fault := by
  by_cases empty : host.isEmpty = true
  · simp only [addBroker, if_pos empty]
    exact .of_same rfl fun _ => rfl
  · simp only [addBroker, if_neg empty] at failed
    contradiction

theorem accept_undone {priority : Priority} {sync : Bool} (sound : c.Sound)
    (failed : c.accept p priority sync = (.error fault, d)) : c.Undone d fault := by
  cases taken : c.outbox.accept c.wire c.nextSeq p priority sync with
  | mk result rest =>
    obtain ⟨o, w⟩ := rest
    rw [accept_eq taken] at failed
    cases failed
    obtain ⟨same, silent⟩ := sound.outbox.accept_undone (Outbox.accepts_of_eq taken)
    apply Undone.of_same
    · simp only [withOutbox, same, outbox]
    · exact silent

theorem publish_undone {priority : Priority} (sound : c.Sound)
    (failed : (c.publish p priority).1 = .error fault) :
    c.Undone (c.publish p priority).2 fault := by
  by_cases admitted : c.admits p priority = true
  · rw [publish_of_admits admitted] at failed ⊢
    cases taken : c.accept p priority false with
    | mk result d =>
      rw [taken] at failed
      cases result with
      | ok m => contradiction
      | error refused =>
        cases failed
        exact accept_undone sound taken
  · rw [publish_of_not_admits admitted]
    exact .of_same rfl fun _ => rfl

/-- A publisher that looks for room fails before its publication is taken in. -/
theorem seekRoom_undone {late : Bool} (sound : c.Sound)
    (failed : (c.seekRoom p late).1.reply = some (.error fault))
    (untaken : c.outbox.hasRoom .low = true →
      ∀ m, (c.outbox.accept c.wire c.nextSeq p .low true).1 ≠ .ok m) :
    c.Undone (c.seekRoom p late).2 fault := by
  by_cases room : c.outbox.hasRoom .low = true
  · cases taken : c.outbox.accept c.wire c.nextSeq p .low true with
    | mk result rest =>
      rw [taken] at untaken
      cases result with
      | ok m => exact absurd rfl (untaken room m)
      | error refused =>
        rw [seekRoom_of_error late room taken] at failed ⊢
        cases failed
        exact accept_undone sound (accept_eq taken)
  · rw [(seekRoom_of_full p late room).1]
    exact .of_same rfl fun _ => rfl

theorem enterPublisher_undone {late : Bool} (sound : c.Sound)
    (failed : (c.enterPublisher p late).1.reply = some (.error fault))
    (untaken : c.admits p .low = true →
      ∀ m, (c.outbox.accept c.wire c.nextSeq p .low true).1 ≠ .ok m) :
    c.Undone (c.enterPublisher p late).2 fault := by
  by_cases admitted : c.admits p .low = true
  · rw [enterPublisher_of_admits admitted] at failed ⊢
    exact seekRoom_undone sound failed fun _ => untaken admitted
  · rw [(enterPublisher_of_not_admits late admitted).1]
    exact .of_same rfl fun _ => rfl

/-- What a guarded call answers, and the client after it. -/
theorem of_call {P : Prop} [Decidable P] {reply answer : Reply} {e : Client σ}
    (called : (guard P >>= fun _ => some (answer, e)) = some (reply, d)) :
    answer = reply ∧ e = d := by
  obtain ⟨_, taken⟩ := of_guard called
  exact Prod.mk.inj (Option.some.inj taken)

theorem step_undone {action : Action σ} (sound : c.Sound)
    (failed : c.step action = some (some (.error fault), d))
    (early : ∀ m late, c.turn action ≠ .asks m late)
    (untaken : ∀ p priority sync late, c.turn action = .submits p priority sync late →
      ∀ m, (c.outbox.accept c.wire c.nextSeq p priority sync).1 ≠ .ok m) :
    c.Undone d fault := by
  cases action with
  | publish p priority =>
    obtain ⟨told, rfl⟩ := of_call failed
    exact publish_undone sound (Option.some.inj told)
  | subscribe pattern qos =>
    obtain ⟨told, rfl⟩ := of_call failed
    exact subscribe_undone (Option.some.inj told)
  | unsubscribe pattern =>
    obtain ⟨told, rfl⟩ := of_call failed
    exact unsubscribe_undone (Option.some.inj told)
  | addBroker id host port =>
    obtain ⟨told, rfl⟩ := of_call failed
    exact addBroker_undone (Option.some.inj told)
  | enter call p late =>
    obtain ⟨told, rfl⟩ := of_call failed
    apply Undone.setPublisher
    apply enterPublisher_undone sound told
    intro admitted
    exact untaken p .low true late (if_pos admitted)
  | resume call late =>
    obtain ⟨publisher, found, resumed⟩ := Option.bind_eq_some_iff.mp failed
    obtain ⟨told, rfl⟩ := of_call resumed
    cases publisher with
    | finished result =>
      obtain ⟨blocked, _⟩ := of_guard resumed
      contradiction
    | awaitingOutcome m =>
      refine absurd ?_ (early m late)
      simp only [turn, found]
    | awaitingRoom p =>
      apply Undone.setPublisher
      apply seekRoom_undone sound told
      intro room
      refine untaken p .low true late ?_
      simp only [turn, found, if_pos room]
  | hear e =>
    obtain ⟨_, silent, _⟩ := hear_of_step failed
    contradiction
  | removeBroker | shutDown =>
    obtain ⟨silent, _⟩ := of_call failed
    contradiction
  | advance | wake | leaveLoop | drift =>
    have silent := congrArg Prod.fst (Option.some.inj failed)
    contradiction

end Client

/-- A call fails, and nothing has been taken in for it. -/
structure Step.Fails (s : Step σ) (fault : ClientFault) : Prop where
  answer : s.reply = some (.error fault)
  /-- The caller has not been waiting for the outcome of a message. -/
  early : ∀ m late, s.turn ≠ .asks m late
  /-- If it was too late, then for want of room. -/
  roomless : fault = .timeout → ∀ m, ¬s.Answers m (.error fault)

namespace Step

variable {s : Step σ} {fault : ClientFault} {p : Publication} {m : Message}

theorem Fails.untaken {priority : Priority} {sync late : Bool} (fails : s.Fails fault)
    (sound : s.before.Sound) (turn : s.turn = .submits p priority sync late) :
    s.accepted p priority sync ≠ .ok m := by
  intro told
  have answer := (takenIn sound turn told).answer
  rw [fails.answer] at answer
  cases sync with
  | false => simp at answer
  | true =>
    cases late with
    | false => simp at answer
    | true =>
      simp only [if_true, Option.some.injEq, Except.error.injEq] at answer
      exact fails.roomless answer m ((answers_iff turn told).mpr ⟨fails.answer, rfl⟩)

/-- All that is left of the call is its answer. -/
theorem Fails.undone (fails : s.Fails fault) (sound : s.before.Sound) :
    s.before.Undone s.after fault := by
  refine Client.step_undone sound (fails.answer ▸ s.stepped) fails.early ?_
  intro p priority sync late submits m
  exact fails.untaken sound submits

end Step

namespace Client

variable {c : Client σ} {options : Options} {wire : Wire σ} {actions : List (Action σ)}
  {s : Step σ} {fault : ClientFault}

/-- In every state a run leads to, with whatever arguments and whatever the transport
answers: a call that fails before anything was taken in for it leaves everything the lock
protects as it was, and if the client objects by itself the transport is not called. -/
theorem failed_call_undone (created : create options wire = .ok c)
    (run : Reaches c actions s.before) (fails : s.Fails fault) : s.before.Undone s.after fault :=
  fails.undone (run.sound created)

open Rehearsal in
/-- The broker takes no further subscriptions: the record of an earlier one, of another
quality of service, is put back. -/
theorem failed_call_undone_subscription :
    ∃ s : Step Line, ∃ actions fault, create settings Line.wire = .ok client ∧
      Reaches client actions s.before ∧ s.Fails fault ∧ s.calls.length = 1 ∧
      s.before.shared.subscriptions.get? "a/#" = some (.active .atMostOnce) ∧
      s.before.Undone s.after fault := by
  let broken : Line :=
    { trouble := fun target => if target = .subscribe then some ⟨.notConnected, none⟩ else none }
  let actions := connects ++ [.subscribe "a/*" .atMostOnce, .publish publication .high,
    .drift broken]
  let s := Step.take (client.after actions) (.subscribe "a/*" .exactlyOnce) (by decide +kernel)
  have created : create settings Line.wire = .ok client := rfl
  have run : Reaches client actions s.before := reaches_after (by decide +kernel)
  have fails : s.Fails (.transport .notConnected) := by
    refine ⟨by decide +kernel, ?_, nofun⟩
    intro m late asks
    contradiction
  exact ⟨s, actions, _, created, run, fails, by decide +kernel, by decide +kernel,
    failed_call_undone created run fails⟩

end Client

end Courier
