import Courier.Client.Step
import Courier.Proofs.Outbox.Exchange
import Courier.Proofs.Outbox.Removal
import Courier.Proofs.Renewals

/-! What an action comes to for the outbox. Whatever happens to a client, its
outbox takes one of seven turns; `step_turned` says once what each of them does
to the outbox, to the messages publishers wait for, and to the transport. -/
namespace Courier

inductive Turn where
  /-- The outbox is left alone. -/
  | other
  /-- A publication that passes every check is handed over. -/
  | submits (p : Publication) (priority : Priority) (sync late : Bool)
  /-- A publisher looks for the outcome of its message. -/
  | asks (m : Message) (late : Bool)
  /-- A connection was accepted. -/
  | begins
  /-- An acknowledgement has come. -/
  | hears (id : PacketId) (reason : Reason)
  /-- A connection is over. -/
  | loses
  /-- A shutdown empties what is left. -/
  | clears
  deriving DecidableEq

def Publisher.message? : Publisher → Option Message
  | awaitingOutcome m => some m
  | _ => none

namespace Wire

variable {σ : Type}

theorem renew_idles (renewals : List Renewal) (w : Wire σ) :
    w.Idles (renewals.foldl Shared.renew w) := by
  refine (w.renewals_extends renewals).imp fun call subscribes => ?_
  cases call with
  | subscribe | unsubscribe => rfl
  | _ => contradiction

end Wire

namespace Client

variable {σ : Type} {c d : Client σ}

def outbox (c : Client σ) : Outbox := c.shared.outbox

def awaited (c : Client σ) : Multiset Message := c.publishers.contents.filterMap Publisher.message?

/-- A publication passes every check there is before the outbox is asked. -/
def admits (c : Client σ) (p : Publication) (priority : Priority) : Bool :=
  (Topic.checkPublish p.topic).toBool && !c.isUnsendable p && c.outbox.hasRoom priority

def turn (c : Client σ) : Action σ → Turn
  | .publish p priority => if c.admits p priority then .submits p priority false false else .other
  | .enter _ p late => if c.admits p .low then .submits p .low true late else .other
  | .resume call late =>
    match c.publishers.get? call with
    | some (.awaitingRoom p) =>
      if c.outbox.hasRoom .low then .submits p .low true late else .other
    | some (.awaitingOutcome m) => .asks m late
    | _ => .other
  | .advance =>
    match c.network with
    | .lost _ => .loses
    | _ => .other
  | .hear (.connected (.ok ())) => .begins
  | .hear (.disconnected _) => .loses
  | .hear (.acknowledged id reason) => .hears id reason
  | .shutDown =>
    match c.closing with
    | .clearing => .clears
    | _ => .other
  | _ => .other

theorem awaited_setPublisher (c : Client σ) (call : Nat) (p : Publisher) :
    (c.setPublisher call p).awaited +
        ((c.publishers.get? call).bind Publisher.message?).toList =
      p.message?.toList + c.awaited := by
  have traded := congrArg (Multiset.filterMap Publisher.message?)
    (c.publishers.contents_insert call p)
  have one : ∀ q : Option Publisher, Multiset.filterMap Publisher.message? q.toList =
      (q.bind Publisher.message?).toList := by
    intro q
    cases q with
    | none => rfl
    | some q => cases q <;> rfl
  have first : Multiset.filterMap Publisher.message? (p ::ₘ c.publishers.contents) =
      p.message?.toList + c.awaited := by
    rw [← Multiset.singleton_add, Multiset.filterMap_add]
    exact congrArg (· + c.awaited) (one (some p))
  rw [Multiset.filterMap_add, one, first] at traded
  exact traded

theorem awaited_mem_iff {m : Message} :
    m ∈ c.awaited ↔ ∃ call, c.publishers.get? call = some (.awaitingOutcome m) := by
  have waits : ∀ p : Publisher, p.message? = some m ↔ p = .awaitingOutcome m := by
    intro p
    cases p <;> simp [Publisher.message?]
  simp only [awaited, Multiset.mem_filterMap, Table.mem_contents, waits, exists_eq_right]

inductive Turned (c : Client σ) (reply : Reply) (d : Client σ) : Turn → Prop where
  | other (outbox : d.outbox = c.outbox) (number : d.nextSeq = c.nextSeq)
      (wire : c.wire.Idles d.wire) (awaited : d.awaited = c.awaited) : Turned c reply d .other
  | refused {p : Publication} {priority : Priority} {sync late : Bool} {fault : ClientFault}
      (taken : c.outbox.accept c.wire c.nextSeq p priority sync =
        (.error fault, d.outbox, d.wire))
      (number : d.nextSeq = c.nextSeq + 1) (awaited : d.awaited = c.awaited)
      (answer : reply = some (.error fault)) : Turned c reply d (.submits p priority sync late)
  | handed {p : Publication} {priority : Priority} {late : Bool} {m : Message} {o : Outbox}
      (taken : c.outbox.accept c.wire c.nextSeq p priority false = (.ok m, o, d.wire))
      (outbox : d.outbox = o.release m) (number : d.nextSeq = c.nextSeq + 1)
      (awaited : d.awaited = c.awaited) (answer : reply = some (.ok ())) :
      Turned c reply d (.submits p priority false late)
  | entered {p : Publication} {priority : Priority} {late : Bool} {m : Message} {o : Outbox}
      (taken : c.outbox.accept c.wire c.nextSeq p priority true = (.ok m, o, d.wire))
      (outbox : d.outbox = (o.seek m late).2) (number : d.nextSeq = c.nextSeq + 1)
      (answer : reply = (o.seek m late).1)
      (awaited : d.awaited = if reply = none then m ::ₘ c.awaited else c.awaited) :
      Turned c reply d (.submits p priority true late)
  | asked {m : Message} {late : Bool} {others : Multiset Message}
      (waited : c.awaited = m ::ₘ others) (outbox : d.outbox = (c.outbox.seek m late).2)
      (number : d.nextSeq = c.nextSeq) (wire : c.wire.Idles d.wire)
      (answer : reply = (c.outbox.seek m late).1)
      (awaited : d.awaited = if reply = none then m ::ₘ others else others) :
      Turned c reply d (.asks m late)
  | begun {w : Wire σ} (renewed : c.wire.Idles w)
      (outbox : ({ c.outbox with connected := true } : Outbox).pump w = (d.outbox, d.wire))
      (number : d.nextSeq = c.nextSeq) (awaited : d.awaited = c.awaited) (silent : reply = none) :
      Turned c reply d .begins
  | heard {id : PacketId} {reason : Reason}
      (outbox : c.outbox.acknowledge c.wire id reason = (d.outbox, d.wire))
      (number : d.nextSeq = c.nextSeq) (awaited : d.awaited = c.awaited) (silent : reply = none) :
      Turned c reply d (.hears id reason)
  | lost (outbox : d.outbox = ({ c.outbox with connected := false } : Outbox).purge)
      (number : d.nextSeq = c.nextSeq) (wire : c.wire.Idles d.wire)
      (awaited : d.awaited = c.awaited) (silent : reply = none) : Turned c reply d .loses
  | cleared (closing : c.closing = .clearing)
      (outbox : d.outbox = ({ c.outbox with connected := false } : Outbox).clear)
      (number : d.nextSeq = c.nextSeq) (wire : c.wire.Idles d.wire)
      (awaited : d.awaited = c.awaited) (silent : reply = none) : Turned c reply d .clears

theorem admits_iff {p : Publication} {priority : Priority} :
    c.admits p priority = true ↔ Topic.checkPublish p.topic = .ok () ∧
      c.isUnsendable p = false ∧ c.shared.outbox.hasRoom priority = true := by
  cases checked : Topic.checkPublish p.topic <;>
    simp [admits, outbox, checked, Except.toBool]

theorem publish_of_admits {p : Publication} {priority : Priority}
    (admitted : c.admits p priority = true) :
    c.publish p priority = match c.accept p priority false with
      | (.ok m, c) => (.ok (), c.release m)
      | (.error fault, c) => (.error fault, c) := by
  obtain ⟨checked, sendable, room⟩ := admits_iff.mp admitted
  have barred : (!c.shared.outbox.hasRoom priority) = false := by rw [room, Bool.not_true]
  unfold publish
  split
  · rename_i refused
    rw [checked] at refused
    contradiction
  · exact (if_neg (Bool.eq_false_iff.mp sendable)).trans (if_neg (Bool.eq_false_iff.mp barred))

theorem publish_of_not_admits {p : Publication} {priority : Priority}
    (barred : ¬c.admits p priority = true) : (c.publish p priority).2 = c := by
  rw [admits_iff] at barred
  unfold publish
  split
  · rfl
  · rename_i checked
    split
    · rfl
    · rename_i sendable
      split
      · rfl
      · rename_i room
        exact absurd ⟨checked, by simpa using sendable, by simpa using room⟩ barred

theorem seekRoom_of_full (p : Publication) (late : Bool)
    (full : ¬c.outbox.hasRoom .low = true) :
    (c.seekRoom p late).2 = c ∧ (c.seekRoom p late).1.message? = none := by
  have barred : ¬c.shared.outbox.hasRoom .low = true := full
  unfold seekRoom
  rw [if_neg barred]
  split
  · exact ⟨rfl, rfl⟩
  · split <;> exact ⟨rfl, rfl⟩

theorem enterPublisher_of_admits {p : Publication} {late : Bool}
    (admitted : c.admits p .low = true) :
    c.enterPublisher p late = c.seekRoom p late := by
  obtain ⟨checked, sendable, _⟩ := admits_iff.mp admitted
  simp only [enterPublisher, checked, sendable, Bool.false_eq_true, if_false]

theorem enterPublisher_of_not_admits {p : Publication} (late : Bool)
    (barred : ¬c.admits p .low = true) :
    (c.enterPublisher p late).2 = c ∧ (c.enterPublisher p late).1.message? = none := by
  rw [admits_iff] at barred
  unfold enterPublisher
  split
  · exact ⟨rfl, rfl⟩
  · rename_i checked
    split
    · exact ⟨rfl, rfl⟩
    · rename_i sendable
      exact seekRoom_of_full p late fun room => barred ⟨checked, by simpa using sendable, room⟩

theorem seekOutcome_eq (c : Client σ) (m : Message) (late : Bool) :
    c.seekOutcome m late = ((c.outbox.seek m late).1.elim (.awaitingOutcome m) .finished,
      c.withOutbox (c.outbox.seek m late).2 c.wire) := by
  cases found : c.shared.outbox.collect? m.seq with
  | some taken => simp only [seekOutcome, Outbox.seek, outbox, found, Option.elim_some]
  | none =>
    cases late <;>
      simp only [seekOutcome, Outbox.seek, outbox, found, Bool.false_eq_true, if_false, if_true,
        Option.elim_none, Option.elim_some]
    rfl

theorem reply_elim (result : Option (Except ClientFault Unit)) (m : Message) :
    (result.elim (.awaitingOutcome m) .finished : Publisher).reply = result := by
  cases result <;> rfl

theorem message?_elim (result : Option (Except ClientFault Unit)) (m : Message) :
    (result.elim (.awaitingOutcome m) .finished : Publisher).message?.toList =
      if result = none then [m] else [] := by
  cases result <;> rfl

theorem of_guard {P : Prop} [Decidable P] {α : Type} {x : Option α} {a : α}
    (passed : (guard P >>= fun _ => x) = some a) : P ∧ x = some a := by
  by_cases holds : P
  · rw [guard, if_pos holds] at passed
    exact ⟨holds, passed⟩
  · rw [guard, if_neg holds] at passed
    contradiction

/-- Nothing but what the outbox has no part in was touched. -/
theorem Turned.of_same {reply : Reply} (outbox : d.outbox = c.outbox)
    (number : d.nextSeq = c.nextSeq) (wire : d.wire = c.wire) (awaited : d.awaited = c.awaited) :
    Turned c reply d .other :=
  .other outbox number (wire ▸ .refl _) awaited

theorem accept_eq {p : Publication} {priority : Priority} {sync : Bool}
    {result : Except ClientFault Message} {o : Outbox} {w : Wire σ}
    (taken : c.outbox.accept c.wire c.nextSeq p priority sync = (result, o, w)) :
    c.accept p priority sync = (result, { c with nextSeq := c.nextSeq + 1 }.withOutbox o w) := by
  have handed : c.shared.outbox.accept c.wire c.nextSeq p priority sync = (result, o, w) := taken
  simp only [accept, handed]

theorem seekRoom_of_error {p : Publication} {fault : ClientFault} {o : Outbox} {w : Wire σ}
    (late : Bool) (room : c.outbox.hasRoom .low = true)
    (taken : c.outbox.accept c.wire c.nextSeq p .low true = (.error fault, o, w)) :
    c.seekRoom p late = (.finished (.error fault),
      { c with nextSeq := c.nextSeq + 1 }.withOutbox o w) := by
  have free : c.shared.outbox.hasRoom .low = true := room
  simp only [seekRoom, if_pos free, accept_eq taken]

/-- A publisher whose message was taken in looks for its outcome at once. -/
theorem seekRoom_of_ok {p : Publication} {m : Message} {o : Outbox} {w : Wire σ}
    (late : Bool) (room : c.outbox.hasRoom .low = true)
    (taken : c.outbox.accept c.wire c.nextSeq p .low true = (.ok m, o, w)) :
    c.seekRoom p late = ((o.seek m late).1.elim (.awaitingOutcome m) .finished,
      { c with nextSeq := c.nextSeq + 1 }.withOutbox (o.seek m late).2 w) := by
  have free : c.shared.outbox.hasRoom .low = true := room
  simp only [seekRoom, if_pos free, accept_eq taken, seekOutcome_eq]
  rfl

theorem turned_publish {p : Publication} {priority : Priority} :
    Turned c (some (c.publish p priority).1) (c.publish p priority).2
      (if c.admits p priority then .submits p priority false false else .other) := by
  by_cases admitted : c.admits p priority = true
  · rw [if_pos admitted, publish_of_admits admitted]
    cases taken : c.outbox.accept c.wire c.nextSeq p priority false with
    | mk result rest =>
      obtain ⟨o, w⟩ := rest
      rw [accept_eq taken]
      cases result with
      | ok m => exact .handed taken rfl rfl rfl rfl
      | error fault => exact .refused taken rfl rfl rfl
  · rw [if_neg admitted, publish_of_not_admits admitted]
    exact .of_same rfl rfl rfl rfl

/-- A caller that waits for no message goes on without one. -/
theorem awaited_setPublisher_of_none {call : Nat} {p : Publisher}
    (before : (c.publishers.get? call).bind Publisher.message? = none) (after : p.message? = none) :
    (c.setPublisher call p).awaited = c.awaited := by
  have traded := c.awaited_setPublisher call p
  rwa [before, after, Option.toList_none, Multiset.coe_nil, Multiset.add_zero,
    Multiset.zero_add] at traded

theorem turned_seekRoom {p : Publication} {call : Nat} {late : Bool}
    (before : (c.publishers.get? call).bind Publisher.message? = none)
    (room : c.outbox.hasRoom .low = true) :
    Turned c (c.seekRoom p late).1.reply
      ((c.seekRoom p late).2.setPublisher call (c.seekRoom p late).1)
      (.submits p .low true late) := by
  cases taken : c.outbox.accept c.wire c.nextSeq p .low true with
  | mk result rest =>
    obtain ⟨o, w⟩ := rest
    cases result with
    | error fault =>
      rw [seekRoom_of_error late room taken]
      exact .refused taken rfl
        (awaited_setPublisher_of_none (c := { c with nextSeq := c.nextSeq + 1 }.withOutbox o w)
          before rfl) rfl
    | ok m =>
      rw [seekRoom_of_ok late room taken]
      refine .entered taken rfl rfl (reply_elim _ _) ?_
      have traded := ({ c with nextSeq := c.nextSeq + 1 }.withOutbox
        (o.seek m late).2 w).awaited_setPublisher call
          ((o.seek m late).1.elim (.awaitingOutcome m) .finished)
      have same : ({ c with nextSeq := c.nextSeq + 1 }.withOutbox
          (o.seek m late).2 w).publishers.get? call = c.publishers.get? call := rfl
      rw [same, before, Option.toList_none, Multiset.coe_nil, Multiset.add_zero,
        message?_elim] at traded
      rw [reply_elim, traded]
      split <;> rfl

theorem turned_seekOutcome {m : Message} {call : Nat} {late : Bool}
    (before : c.publishers.get? call = some (.awaitingOutcome m)) :
    Turned c (c.seekOutcome m late).1.reply
      ((c.seekOutcome m late).2.setPublisher call (c.seekOutcome m late).1) (.asks m late) := by
  rw [seekOutcome_eq]
  have waited : m ∈ c.awaited := awaited_mem_iff.mpr ⟨call, before⟩
  obtain ⟨others, split⟩ := Multiset.exists_cons_of_mem waited
  refine .asked split rfl rfl (.refl _) (reply_elim _ _) ?_
  have traded := (c.withOutbox (c.outbox.seek m late).2 c.wire).awaited_setPublisher call
    ((c.outbox.seek m late).1.elim (.awaitingOutcome m) .finished)
  have same : (c.withOutbox (c.outbox.seek m late).2 c.wire).publishers.get? call =
      some (.awaitingOutcome m) := before
  have kept : (c.withOutbox (c.outbox.seek m late).2 c.wire).awaited = c.awaited := rfl
  rw [same, kept, split, message?_elim] at traded
  have shift : ∀ s t : Multiset Message,
      s + ((some (.awaitingOutcome m) : Option Publisher).bind Publisher.message?).toList =
        t + m ::ₘ others → s = t + others := by
    intro s t eq
    rw [Multiset.add_cons] at eq
    refine Multiset.cons_inj_right m |>.mp ?_
    rw [← eq]
    exact (Multiset.add_comm _ _).trans (Multiset.singleton_add m s) |>.symm
  rw [reply_elim, shift _ _ traded]
  split
  · exact Multiset.singleton_add m others
  · exact Multiset.zero_add others

theorem turned_hear (c : Client σ) (e : Event) :
    Turned c none (c.hear e) (c.turn (.hear e)) := by
  cases e with
  | connected result =>
    cases result with
    | error _ => exact .of_same rfl rfl rfl rfl
    | ok _ =>
      have renewed := c.wire.renew_idles c.shared.subscriptions.renewals
      cases told : c.onConnected <;> simp only [hear, told, Bool.false_eq_true, if_false, if_true]
      · exact .begun renewed rfl rfl rfl rfl
      · exact .begun renewed rfl rfl rfl rfl
  | disconnected cause => exact .lost rfl rfl (.refl _) rfl rfl
  | message p =>
    cases told : c.onMessage <;> simp only [hear, told, Bool.false_eq_true, if_false, if_true]
    · exact .of_same rfl rfl rfl rfl
    · exact .of_same rfl rfl rfl rfl
  | acknowledged id reason => exact .heard rfl rfl rfl rfl

theorem turned_dialAgain (c : Client σ) : Turned c none c.dialAgain .other := by
  unfold dialAgain Wire.reconnect
  obtain ⟨result, state⟩ := c.wire.transport.reconnect c.wire.state
  cases result <;> exact .other rfl rfl (.after rfl _) rfl

theorem turned_dial (c : Client σ) (last : TransportFault) (rest : List (BrokerId × Broker)) :
    Turned c none (c.dial last rest) .other := by
  cases rest with
  | nil => exact .of_same rfl rfl rfl rfl
  | cons candidate rest =>
    obtain ⟨id, broker⟩ := candidate
    have idles : c.wire.Idles (c.wire.connect broker c.terms).2 := .after rfl _
    cases told : c.wire.connect broker c.terms with
    | mk result w =>
      rw [told] at idles
      cases result <;> simp only [dial, told] <;> exact .other rfl rfl idles rfl

theorem turned_advance (c : Client σ) : Turned c none c.advance (c.turn .advance) := by
  unfold advance turn
  cases stage : c.network with
  | lost accepted => exact .lost rfl rfl (.refl _) rfl rfl
  | resting pause =>
    dsimp only
    unfold beginRound
    split
    · exact .of_same rfl rfl rfl rfl
    · split <;> exact .of_same rfl rfl rfl rfl
  | choosing =>
    dsimp only
    unfold chooseBroker
    split <;> exact .of_same rfl rfl rfl rfl
  | reconnecting => exact turned_dialAgain c
  | dialling rest last => exact turned_dial c last rest
  | entering =>
    dsimp only
    split
    · exact .other rfl rfl (.after rfl _) rfl
    · exact .of_same rfl rfl rfl rfl
  | settling accepted =>
    dsimp only
    unfold settleRound
    split
    · exact .of_same rfl rfl rfl rfl
    · split <;> exact .of_same rfl rfl rfl rfl
  | _ => exact .of_same rfl rfl rfl rfl

theorem hangUp_idles (c : Client σ) : c.wire.Idles c.hangUp.wire := by
  unfold hangUp Wire.disconnect
  exact .after rfl _

theorem turned_shutDown (c : Client σ) : Turned c none c.shutDown (c.turn .shutDown) := by
  unfold shutDown turn
  cases stage : c.closing with
  | clearing => exact .cleared stage rfl rfl (.refl _) rfl rfl
  | hangingUp | hangingUpAgain => exact .other rfl rfl c.hangUp_idles rfl
  | joining =>
    dsimp only
    split <;> exact .of_same rfl rfl rfl rfl
  | _ => exact .of_same rfl rfl rfl rfl

theorem turned_subscribe (c : Client σ) (pattern : String) (qos : QoS) (reply : Reply) :
    Turned c reply (c.subscribe pattern qos).2 .other := by
  unfold subscribe
  split
  · exact .of_same rfl rfl rfl rfl
  · rename_i filter _
    dsimp only
    split
    · have idles : c.wire.Idles (c.wire.subscribe filter qos true).2 := .after rfl _
      cases told : c.wire.subscribe filter qos true with
      | mk result w =>
        rw [told] at idles
        cases result <;> exact .other rfl rfl idles rfl
    · exact .of_same rfl rfl rfl rfl

theorem turned_unsubscribe (c : Client σ) (pattern : String) (reply : Reply) :
    Turned c reply (c.unsubscribe pattern).2 .other := by
  unfold unsubscribe
  split
  · exact .of_same rfl rfl rfl rfl
  · rename_i filter _
    split
    · dsimp only
      have idles : c.wire.Idles (c.wire.unsubscribe filter).2 := .after rfl _
      cases told : c.wire.unsubscribe filter with
      | mk result w =>
        rw [told] at idles
        cases result <;> exact .other rfl rfl idles rfl
    · exact .of_same rfl rfl rfl rfl

theorem turned_addBroker (c : Client σ) (id : BrokerId) (host : String) (port : UInt16)
    (reply : Reply) : Turned c reply (c.addBroker id host port).2 .other := by
  unfold addBroker
  split <;> exact .of_same rfl rfl rfl rfl

/-- The transport reports something only while its loop runs. -/
theorem hear_of_step {e : Event} {reply : Reply} (stepped : c.step (.hear e) = some (reply, d)) :
    c.network = .running ∧ reply = none ∧ d = c.hear e := by
  cases stage : c.network <;> simp only [step, stage, reduceCtorEq] at stepped
  cases stepped
  exact ⟨rfl, rfl, rfl⟩

theorem turned_enter {call : Nat} {p : Publication} {late : Bool}
    (free : c.publishers.get? call = none) :
    Turned c (c.enterPublisher p late).1.reply
      ((c.enterPublisher p late).2.setPublisher call (c.enterPublisher p late).1)
      (if c.admits p .low then .submits p .low true late else .other) := by
  have before : (c.publishers.get? call).bind Publisher.message? = none := by
    rw [free, Option.bind_none]
  by_cases admitted : c.admits p .low = true
  · rw [if_pos admitted, enterPublisher_of_admits admitted]
    exact turned_seekRoom before (admits_iff.mp admitted).2.2
  · obtain ⟨same, without⟩ := enterPublisher_of_not_admits late admitted
    rw [if_neg admitted, same]
    exact .of_same rfl rfl rfl (awaited_setPublisher_of_none before without)

theorem turned_resume {call : Nat} {publisher : Publisher} {late : Bool}
    (found : c.publishers.get? call = some publisher) (blocked : publisher.isBlocked = true) :
    Turned c (c.resumePublisher publisher late).1.reply
      ((c.resumePublisher publisher late).2.setPublisher call (c.resumePublisher publisher late).1)
      (c.turn (.resume call late)) := by
  cases publisher with
  | finished result => contradiction
  | awaitingOutcome m =>
    have turn : c.turn (.resume call late) = .asks m late := by simp only [turn, found]
    rw [turn]
    exact turned_seekOutcome found
  | awaitingRoom p =>
    have before : (c.publishers.get? call).bind Publisher.message? = none := by
      rw [found]
      rfl
    have turn : c.turn (.resume call late) =
        if c.outbox.hasRoom .low then .submits p .low true late else .other := by
      simp only [turn, found]
    rw [turn]
    by_cases room : c.outbox.hasRoom .low = true
    · rw [if_pos room]
      exact turned_seekRoom before room
    · obtain ⟨same, without⟩ := seekRoom_of_full p late room
      rw [if_neg room]
      have after : (c.resumePublisher (.awaitingRoom p) late).2 = c := same
      rw [after]
      exact .of_same rfl rfl rfl (awaited_setPublisher_of_none before without)

/-- Every step takes the turn its action comes to. -/
theorem step_turned {action : Action σ} {reply : Reply}
    (stepped : c.step action = some (reply, d)) : Turned c reply d (c.turn action) := by
  cases action with
  | publish p priority =>
    obtain ⟨_, taken⟩ := of_guard stepped
    cases taken
    exact turned_publish
  | subscribe pattern qos =>
    obtain ⟨_, taken⟩ := of_guard stepped
    cases taken
    exact c.turned_subscribe pattern qos _
  | unsubscribe pattern =>
    obtain ⟨_, taken⟩ := of_guard stepped
    cases taken
    exact c.turned_unsubscribe pattern _
  | addBroker id host port =>
    obtain ⟨_, taken⟩ := of_guard stepped
    cases taken
    exact c.turned_addBroker id host port _
  | removeBroker id =>
    obtain ⟨_, taken⟩ := of_guard stepped
    cases taken
    exact .of_same rfl rfl rfl rfl
  | enter call p late =>
    obtain ⟨⟨_, free⟩, taken⟩ := of_guard stepped
    cases taken
    refine turned_enter ?_
    simpa [Table.contains] using free
  | resume call late =>
    obtain ⟨publisher, found, resumed⟩ := Option.bind_eq_some_iff.mp stepped
    obtain ⟨blocked, taken⟩ := of_guard resumed
    cases taken
    exact turned_resume found blocked
  | advance =>
    cases stepped
    exact turned_advance c
  | wake =>
    cases stepped
    unfold wake
    split <;> exact .of_same rfl rfl rfl rfl
  | hear e =>
    obtain ⟨_, rfl, rfl⟩ := hear_of_step stepped
    exact c.turned_hear e
  | leaveLoop failed =>
    cases stepped
    unfold leaveLoop
    split <;> exact .of_same rfl rfl rfl rfl
  | shutDown =>
    obtain ⟨_, taken⟩ := of_guard stepped
    cases taken
    exact turned_shutDown c
  | drift state =>
    cases stepped
    exact .other rfl rfl (.of_calls rfl) rfl

end Client

end Courier
