import Courier.Proofs.Outbox.Exchange
import Courier.Proofs.Outbox.Removal

/-! The outbox neither begins nor ends a session, nor changes how much it may hold, and
it makes no calls about subscriptions. -/
namespace Courier.Outbox

variable {σ : Type} (o : Outbox) (m : Message)

/-- What stays as it is whatever becomes of messages. -/
def setup (o : Outbox) : Bool × Nat × Nat := (o.connected, o.inFlightLimit, o.slots.capacity)

theorem setup_eq_iff {o p : Outbox} : p.setup = o.setup ↔ p.connected = o.connected ∧
    p.inFlightLimit = o.inFlightLimit ∧ p.slots.capacity = o.slots.capacity := by
  simp only [setup, Prod.mk.injEq]

@[simp]
theorem share_setup : (o.share m).setup = o.setup := by
  simp only [setup, share, Slots.capacity_share]

@[simp]
theorem release_setup : (o.release m).setup = o.setup := by
  simp only [setup, release, Slots.capacity_release]

@[simp]
theorem number_setup (id : PacketId) : (o.number m id).setup = o.setup := by
  simp only [setup, number, Slots.capacity_update]

@[simp]
theorem conclude_setup (outcome : Outcome) : (o.conclude m outcome).setup = o.setup := by
  simp only [setup, conclude, Slots.capacity_update]

@[simp]
theorem releaseEach_setup (ms : List Message) : (o.releaseEach ms).setup = o.setup := by
  induction ms generalizing o with
  | nil => rfl
  | cons m ms ih => exact (ih (o.release m)).trans (o.release_setup m)

@[simp]
theorem finish_setup (outcome : Outcome) : (o.finish m outcome).setup = o.setup := by
  unfold finish
  split
  · exact (releaseEach_setup _ _).trans (o.conclude_setup m outcome)
  · exact o.release_setup m

@[simp]
theorem finishEach_setup (ms : List Message) (outcome : Outcome) :
    (o.finishEach ms outcome).setup = o.setup := by
  induction ms generalizing o with
  | nil => rfl
  | cons m ms ih => exact (ih (o.finish m outcome)).trans (o.finish_setup m outcome)

@[simp]
theorem launch_setup (id : PacketId) : (o.launch m id).setup = o.setup := by
  have shared : ((o.number m id).share m).setup = o.setup :=
    (share_setup _ m).trans (o.number_setup m id)
  exact (releaseEach_setup _ _).trans shared

theorem purge_setup : o.purge.setup = o.setup := finishEach_setup _ _ _

theorem clear_setup : o.clear.setup = o.setup := releaseEach_setup _ _

theorem withdraw_setup : (o.withdraw m).setup = o.setup := by
  unfold withdraw
  split
  · exact release_setup _ _
  · split
    · exact release_setup _ _
    · split
      · exact release_setup _ _
      · rfl

theorem seek_setup (late : Bool) : (o.seek m late).2.setup = o.setup := by
  unfold seek
  split
  · rename_i ended p found
    obtain ⟨n, _, same⟩ := Option.map_eq_some_iff.mp found
    cases same
    exact (release_setup _ _).trans (release_setup _ _)
  · split
    · exact (release_setup _ _).trans (o.withdraw_setup m)
    · rfl

theorem accept_setup (w : Wire σ) (seq : Nat) (p : Publication) (priority : Priority)
    (sync : Bool) : (o.accept w seq p priority sync).2.1.setup = o.setup := by
  have accepts := o.accept_accepts w seq p priority sync
  generalize o.accept w seq p priority sync = taken at accepts
  obtain ⟨result, q, v⟩ := taken
  have took : ∀ {slot slots}, o.slots.take? {} = some (slot, slots) →
      ({ o with slots } : Outbox).setup = o.setup := by
    intro slot slots took
    simp only [setup, Slots.capacity_take took]
  cases accepts with
  | full => rfl
  | sent slot => exact (launch_setup _ _ _).trans (took slot)
  | refused slot => exact (release_setup _ _).trans (took slot)
  | parked slot => exact (share_setup _ _).trans (took slot)

theorem sendQueue_setup (ms : List Message) (w : Wire σ) :
    (sendQueue ms o w).1.setup = o.setup := by
  induction ms generalizing o w with
  | nil => rfl
  | cons m rest ih =>
    unfold sendQueue
    split
    · rfl
    · unfold send Wire.publish
      obtain ⟨result, state⟩ := w.transport.publish m.publication w.state
      cases result with
      | ok id =>
        have sent : ((o.launch m id).release m).setup = o.setup :=
          (release_setup _ _).trans (o.launch_setup m id)
        exact (ih _ _).trans sent
      | error fault => exact (ih _ _).trans (o.finish_setup m .sendFailed)

theorem pump_setup (w : Wire σ) : (o.pump w).1.setup = o.setup := by
  unfold pump
  split
  · exact o.sendQueue_setup _ w
  · rfl

theorem acknowledge_setup (w : Wire σ) (id : PacketId) (reason : Reason) :
    (o.acknowledge w id reason).1.setup = o.setup := by
  unfold acknowledge
  split
  · exact (pump_setup _ w).trans (finish_setup _ _ _)
  · exact o.pump_setup w

theorem purge_connected : o.purge.connected = o.connected := congrArg Prod.fst o.purge_setup

theorem clear_connected : o.clear.connected = o.connected := congrArg Prod.fst o.clear_setup

theorem seek_connected (late : Bool) : (o.seek m late).2.connected = o.connected :=
  congrArg Prod.fst (o.seek_setup m late)

theorem accept_publishes (w : Wire σ) (seq : Nat) (p : Publication) (priority : Priority)
    (sync : Bool) : w.Publishes (o.accept w seq p priority sync).2.2 := by
  have accepts := o.accept_accepts w seq p priority sync
  generalize o.accept w seq p priority sync = taken at accepts
  obtain ⟨result, q, v⟩ := taken
  cases accepts with
  | full | parked => exact .refl _
  | sent | refused => exact .after rfl _

theorem sendQueue_publishes (ms : List Message) (w : Wire σ) :
    w.Publishes (sendQueue ms o w).2 := by
  induction ms generalizing o w with
  | nil => exact .refl w
  | cons m rest ih =>
    unfold sendQueue
    split
    · exact .refl w
    · unfold send Wire.publish
      obtain ⟨result, state⟩ := w.transport.publish m.publication w.state
      have called : w.Publishes (w.after state (.publish m.publication result)) :=
        .after rfl state
      cases result with
      | ok id => exact called.trans (ih _ _)
      | error fault => exact called.trans (ih _ _)

theorem pump_publishes (w : Wire σ) : w.Publishes (o.pump w).2 := by
  unfold pump
  split
  · exact o.sendQueue_publishes _ w
  · exact .refl w

theorem acknowledge_publishes (w : Wire σ) (id : PacketId) (reason : Reason) :
    w.Publishes (o.acknowledge w id reason).2 := by
  unfold acknowledge
  split <;> exact pump_publishes _ w

theorem accept_session (w : Wire σ) (seq : Nat) (p : Publication) (priority : Priority)
    (sync : Bool) :
    (o.accept w seq p priority sync).2.1.connected = o.connected ∧
      w.Spares (o.accept w seq p priority sync).2.2 :=
  ⟨congrArg Prod.fst (o.accept_setup w seq p priority sync),
    (o.accept_publishes w seq p priority sync).spares⟩

theorem pump_session (w : Wire σ) :
    (o.pump w).1.connected = o.connected ∧ w.Spares (o.pump w).2 :=
  ⟨congrArg Prod.fst (o.pump_setup w), (o.pump_publishes w).spares⟩

theorem acknowledge_session (w : Wire σ) (id : PacketId) (reason : Reason) :
    (o.acknowledge w id reason).1.connected = o.connected ∧
      w.Spares (o.acknowledge w id reason).2 :=
  ⟨congrArg Prod.fst (o.acknowledge_setup w id reason),
    (o.acknowledge_publishes w id reason).spares⟩

end Courier.Outbox
