import Courier.Proofs.Outbox.Session

/-! Room in flight. No more messages are in flight than the limit allows. While a
session is up a message waits only for room, as every operation that makes room fills
it from the queue before it is done; the one exception is a message in flight that is
given up. -/
namespace Courier.Outbox

variable {σ : Type} {o p q : Outbox} {held : Multiset Message} {m : Message} {next : Nat}

def WithinLimit (o : Outbox) : Prop := o.inFlight.size ≤ o.inFlightLimit

/-- While a session is up nothing waits, or there is no room in flight. -/
def Flows (o : Outbox) : Prop := o.connected = true → o.queue = [] ∨ o.isFlightFull = true

/-- The queue as it was or shorter, and nothing has left the flight: nothing waits
that did not have to. -/
theorem Flows.of_fewer (flows : o.Flows) (setup : p.setup = o.setup)
    (inFlight : p.inFlight = o.inFlight) (queue : p.queue.Sublist o.queue) : p.Flows := by
  obtain ⟨connected, limit, _⟩ := setup_eq_iff.mp setup
  intro online
  rcases flows (connected ▸ online) with empty | full
  · left
    rw [empty] at queue
    exact List.sublist_nil.mp queue
  · right
    rw [isFlightFull, limit, inFlight]
    exact full

theorem flows_of_disconnected (offline : o.connected = false) : o.Flows := by
  intro online
  rw [offline] at online
  contradiction

/-- A message is sent at once only past an empty queue. -/
theorem Flows.queue_eq_nil (flows : o.Flows) (ready : o.Ready) : o.queue = [] := by
  obtain ⟨online, room⟩ := ready
  rcases flows online with empty | full
  · exact empty
  · rw [room] at full
    contradiction

section Sending

variable {w v : Wire σ} {seq : Nat} {a : Publication} {priority : Priority} {sync : Bool}
  {result : Except ClientFault Message}

theorem Accepts.ready (accepts : o.Accepts w seq a priority sync result q v)
    (called : ¬w.Idles v) : o.Ready := by
  cases accepts with
  | full | parked => exact absurd (.refl w) called
  | sent took ready => exact ready
  | refused took ready => exact ready

theorem Flows.accept (flows : o.Flows)
    (accepts : o.Accepts w seq a priority sync result q v) : q.Flows := by
  cases accepts with
  | full => exact flows
  | sent took ready =>
    intro _
    left
    exact (launch_queue _ _ _).trans (flows.queue_eq_nil ready)
  | refused took ready =>
    intro _
    left
    exact flows.queue_eq_nil ready
  | parked took unready =>
    intro online
    right
    by_contra room
    exact unready ⟨online, Bool.eq_false_iff.mpr room⟩

theorem WithinLimit.launch (room : o.isFlightFull = false) (m : Message) (id : PacketId) :
    (o.launch m id).WithinLimit := by
  have grows := o.inFlight.size_insert_le id m
  have limit := (setup_eq_iff.mp (o.launch_setup m id)).2.1
  have below : ¬o.inFlightLimit ≤ o.inFlight.size := of_decide_eq_false room
  rw [WithinLimit, launch_inFlight, limit]
  omega

theorem WithinLimit.accept (within : o.WithinLimit)
    (accepts : o.Accepts w seq a priority sync result q v) : q.WithinLimit := by
  cases accepts with
  | @sent slot slots id state took ready =>
    exact WithinLimit.launch (o := { o with slots }) ready.2 _ id
  | full | refused | parked => exact within

theorem WithinLimit.finish (within : o.WithinLimit) (m : Message) (outcome : Outcome) :
    (o.finish m outcome).WithinLimit := by
  have limit := (setup_eq_iff.mp (o.finish_setup m outcome)).2.1
  rw [WithinLimit, finish_inFlight, limit]
  exact within

theorem sendQueue_room (ms : List Message) (o : Outbox) (w : Wire σ) (within : o.WithinLimit) :
    (sendQueue ms o w).1.WithinLimit ∧
      ((sendQueue ms o w).1.queue = [] ∨ (sendQueue ms o w).1.isFlightFull = true) := by
  induction ms generalizing o w with
  | nil => exact ⟨within, .inl rfl⟩
  | cons m rest ih =>
    unfold sendQueue
    split
    · rename_i full
      exact ⟨within, .inr full⟩
    · rename_i room
      unfold send Wire.publish
      obtain ⟨result, state⟩ := w.transport.publish m.publication w.state
      cases result with
      | ok id => exact ih _ _ (WithinLimit.launch (Bool.eq_false_iff.mpr room) m id)
      | error fault => exact ih _ _ (within.finish m .sendFailed)

theorem pump_room (within : o.WithinLimit) (w : Wire σ) :
    (o.pump w).1.WithinLimit ∧ (o.pump w).1.Flows := by
  unfold pump
  split
  · obtain ⟨limited, drained⟩ := sendQueue_room o.queue o w within
    exact ⟨limited, fun _ => drained⟩
  · rename_i offline
    exact ⟨within, flows_of_disconnected (Bool.eq_false_iff.mpr offline)⟩

theorem acknowledge_room (within : o.WithinLimit) (w : Wire σ) (id : PacketId)
    (reason : Reason) :
    (o.acknowledge w id reason).1.WithinLimit ∧ (o.acknowledge w id reason).1.Flows := by
  unfold acknowledge
  split
  · rename_i m flies
    have fewer := Table.size_erase_of_some flies
    have landed : ({ o with inFlight := o.inFlight.erase id } : Outbox).WithinLimit := by
      rw [WithinLimit] at within ⊢
      change (o.inFlight.erase id).size ≤ o.inFlightLimit
      omega
    exact pump_room (landed.finish m (.ofReason reason)) w
  · exact pump_room within w

end Sending

section Leaving

theorem WithinLimit.finishEach (within : o.WithinLimit) (ms : List Message)
    (outcome : Outcome) : (o.finishEach ms outcome).WithinLimit := by
  induction ms generalizing o with
  | nil => exact within
  | cons m ms ih => exact ih (within.finish m outcome)

theorem WithinLimit.purge (within : o.WithinLimit) : o.purge.WithinLimit := by
  refine WithinLimit.finishEach ?_ _ _
  exact Nat.le_trans (Table.size_retain_le _ _) within

theorem clear_withinLimit (o : Outbox) : o.clear.WithinLimit := by
  have limit := (setup_eq_iff.mp o.clear_setup).2.1
  have inFlight : o.clear.inFlight = ∅ := releaseEach_inFlight _
  rw [WithinLimit, inFlight, limit]
  exact Nat.zero_le _

/-- Giving a message up makes room exactly where the message was in flight, and then
leaves the queue as it was. -/
inductive Vacates (o : Outbox) (m : Message) (q : Outbox) : Prop where
  | room {id : PacketId} (flew : o.Stands m (.flying id))
      (inFlight : q.inFlight = o.inFlight.erase id) (queue : q.queue = o.queue) : Vacates o m q
  | none (inFlight : q.inFlight = o.inFlight) (queue : q.queue.Sublist o.queue) : Vacates o m q

theorem Sound.withdraw_vacates (sound : o.Sound held next) (mine : m ∈ held) :
    o.Vacates m (o.withdraw m) := by
  have withdraws := sound.withdraws mine
  generalize o.withdraw m = p at withdraws
  cases withdraws with
  | ended | absent => exact .none rfl (List.Sublist.refl _)
  | flying flies => exact .room flies rfl rfl
  | waiting => exact .none rfl List.erase_sublist

theorem Sound.seek_vacates (sound : o.Sound (m ::ₘ held) next) (late : Bool) :
    o.Vacates m (o.seek m late).2 := by
  unfold Outbox.seek
  split
  · rename_i ended p found
    obtain ⟨n, _, same⟩ := Option.map_eq_some_iff.mp found
    cases same
    exact .none rfl (List.Sublist.refl _)
  · split
    · cases sound.withdraw_vacates (Multiset.mem_cons_self m held) with
      | room flew inFlight queue => exact .room flew inFlight queue
      | none inFlight queue => exact .none inFlight queue
    · exact .none rfl (List.Sublist.refl _)

theorem Vacates.withinLimit (vacates : o.Vacates m q) (setup : q.setup = o.setup)
    (within : o.WithinLimit) : q.WithinLimit := by
  have limit := (setup_eq_iff.mp setup).2.1
  rw [WithinLimit] at within ⊢
  cases vacates with
  | room flew inFlight queue =>
    have fewer := Table.size_erase_of_some flew
    rw [inFlight, limit]
    omega
  | none inFlight queue =>
    rw [inFlight, limit]
    exact within

/-- A publication whose publisher asks for its outcome at once leaves the queue empty or
the flight full: what was sent at once was sent past an empty queue. -/
theorem Flows.accept_seek {w v : Wire σ} {a : Publication} {priority : Priority} {sync : Bool}
    (flows : o.Flows) (sound : o.Sound held next)
    (accepts : o.Accepts w next a priority sync (.ok m) q v) (late : Bool) :
    (q.seek m late).2.Flows := by
  obtain ⟨taken, _⟩ := sound.accept_ok accepts
  cases taken.seek_vacates late with
  | none inFlight queue =>
    exact (flows.accept accepts).of_fewer (q.seek_setup m late) inFlight queue
  | room flew inFlight queue =>
    intro _
    left
    rw [queue]
    cases accepts with
    | sent took ready => exact (launch_queue _ _ _).trans (flows.queue_eq_nil ready)
    | parked took unready =>
      refine absurd (taken.stands_unique flew (?_ : Stands _ _ .waiting)) (by simp)
      exact mem_insertBehind.mpr (.inl rfl)

/-- The room a message leaves behind while others wait is not filled. -/
theorem not_flows_of_room {id : PacketId} (within : o.WithinLimit) (setup : q.setup = o.setup)
    (online : o.connected = true) (waits : o.queue ≠ []) (flew : o.Stands m (.flying id))
    (inFlight : q.inFlight = o.inFlight.erase id) (queue : q.queue = o.queue) : ¬q.Flows := by
  obtain ⟨connected, limit, _⟩ := setup_eq_iff.mp setup
  have fewer := Table.size_erase_of_some flew
  intro flows
  rcases flows (connected.trans online) with empty | full
  · exact waits (queue ▸ empty)
  · have above : q.inFlightLimit ≤ q.inFlight.size := of_decide_eq_true full
    rw [limit, inFlight] at above
    rw [WithinLimit] at within
    omega

end Leaving

end Courier.Outbox
