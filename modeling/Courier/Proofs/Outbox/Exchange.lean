import Courier.Proofs.Outbox.Sending

/-! Messages come in from a publisher, and acknowledgements from the transport:
what becomes of the message concerned, and that no other is moved except by the
attempts that follow. -/
namespace Courier.Outbox

variable {σ : Type} {o : Outbox} {held : Multiset Message} {m : Message} {next : Nat}

theorem Sound.later (sound : o.Sound held next) : o.Sound held (next + 1) :=
  ⟨⟨sound.carry.counts, sound.carry.apart,
      fun m member => Nat.lt_succ_of_lt (sound.carry.drawn m member)⟩,
    sound.once, sound.waiting, sound.flying, sound.ended⟩

/-- A publication was taken in as a message, which waits or was sent at once. -/
structure Accepted (o : Outbox) (p : Publication) (sync : Bool) (seq : Nat)
    (attempts : List Attempt) (m : Message) (q : Outbox) : Prop where
  numbered : m.seq = seq
  waited : m.sync = sync
  same_qos : m.qos = p.qos
  placed : ∃ place, (place = .waiting ∧ attempts = [] ∧ m.publication = p ∨
      ∃ id, place = .flying id ∧ attempts = [(p, .ok id)]) ∧
    ∀ x st, q.Stands x st ↔ x = m ∧ st = place ∨
      o.Stands x st ∧ ∀ id ∈ numbersOf attempts, st ≠ .flying id

def Ready (o : Outbox) : Prop := o.connected = true ∧ o.isFlightFull = false

inductive Accepts (o : Outbox) (w : Wire σ) (seq : Nat) (p : Publication) (priority : Priority)
    (sync : Bool) : Except ClientFault Message → Outbox → Wire σ → Prop where
  | full : Accepts o w seq p priority sync (.error .tooManyPending) o w
  | sent {slot : Nat} {slots : Slots Progress} {id : PacketId} {state : σ}
      (took : o.slots.take? {} = some (slot, slots)) (ready : o.Ready) :
      Accepts o w seq p priority sync (.ok (.bare slot seq p priority sync))
        (({ o with slots } : Outbox).launch (.bare slot seq p priority sync) id)
        (w.after state (.publish p (.ok id)))
  | refused {slot : Nat} {slots : Slots Progress} {fault : TransportFault} {state : σ}
      (took : o.slots.take? {} = some (slot, slots)) (ready : o.Ready) :
      Accepts o w seq p priority sync (.error (.transport fault))
        (({ o with slots } : Outbox).release (.bare slot seq p priority sync))
        (w.after state (.publish p (.error fault)))
  | parked {slot : Nat} {slots : Slots Progress} (took : o.slots.take? {} = some (slot, slots))
      (unready : ¬o.Ready) :
      Accepts o w seq p priority sync (.ok (.parked slot seq p priority sync))
        ((({ o with slots } : Outbox).share (.parked slot seq p priority sync)).enqueue
          (.parked slot seq p priority sync)) w

theorem accept_accepts (o : Outbox) (w : Wire σ) (seq : Nat) (p : Publication)
    (priority : Priority) (sync : Bool) :
    o.Accepts w seq p priority sync (o.accept w seq p priority sync).1
      (o.accept w seq p priority sync).2.1 (o.accept w seq p priority sync).2.2 := by
  unfold accept
  split
  · exact .full
  · rename_i slot slots took
    have ready : (o.connected && !({ o with slots } : Outbox).isFlightFull) = true ↔ o.Ready := by
      rw [Bool.and_eq_true, Bool.not_eq_true', Ready]
      rfl
    dsimp only
    split
    · rename_i sends
      unfold send Wire.publish
      obtain ⟨result, state⟩ := w.transport.publish p w.state
      cases result with
      | ok id => exact .sent took (ready.mp sends)
      | error fault => exact .refused took (ready.mp sends)
    · rename_i waits
      exact .parked took (mt ready.mpr waits)

theorem accepts_of_eq {w v : Wire σ} {seq : Nat} {p : Publication} {priority : Priority}
    {sync : Bool} {result : Except ClientFault Message} {q : Outbox}
    (taken : o.accept w seq p priority sync = (result, q, v)) :
    o.Accepts w seq p priority sync result q v := by
  have accepts := o.accept_accepts w seq p priority sync
  rwa [taken] at accepts

theorem Sound.accept_error {q : Outbox} {w v : Wire σ} {p : Publication} {priority : Priority}
    {sync : Bool} {fault : ClientFault} (sound : o.Sound held next)
    (accepts : o.Accepts w next p priority sync (.error fault) q v) :
    q.Sound held (next + 1) ∧ (∀ x st, q.Stands x st ↔ o.Stands x st) ∧
      ∃ attempts, v.calls = w.calls ++ attempts.map Attempt.call ∧ numbersOf attempts = [] := by
  cases accepts with
  | full => exact ⟨sound.later, fun _ _ => Iff.rfl, [], (List.append_nil _).symm, rfl⟩
  | @refused slot slots fault state took =>
    obtain ⟨taken, _, _, same⟩ := sound.take (m := .bare slot next p priority sync) took rfl
    refine ⟨taken.release, ?_, [(p, .error fault)], rfl, rfl⟩
    intro x st
    rw [taken.stands_release]
    exact stands_congr rfl rfl rfl same

theorem Sound.accept_ok {q : Outbox} {w v : Wire σ} {p : Publication} {priority : Priority}
    {sync : Bool} (sound : o.Sound held next)
    (accepts : o.Accepts w next p priority sync (.ok m) q v) :
    q.Sound (m ::ₘ held) (next + 1) ∧ ∃ attempts, v.calls = w.calls ++ attempts.map Attempt.call ∧
      o.Accepted p sync next attempts m q := by
  cases accepts with
  | @sent slot slots id state took =>
    obtain ⟨taken, absent, blank, same⟩ :=
      sound.take (m := .bare slot next p priority sync) took rfl
    have outside : Message.bare slot next p priority sync ∉ o.places :=
      fun kept => absent (Multiset.mem_add.mpr (.inl kept))
    have stands : ∀ x st, ({ o with slots } : Outbox).Stands x st ↔ o.Stands x st :=
      fun x st => stands_congr rfl rfl rfl same
    obtain ⟨flown, flies⟩ := taken.launch outside blank id
    refine ⟨flown, [(p, .ok id)], rfl, rfl, rfl, rfl, .flying id, .inr ⟨id, rfl, rfl⟩,
      fun x st => ?_⟩
    rw [flies, stands]
    simp only [numbersOf, Except.toOption, List.filterMap_cons, List.filterMap_nil,
      List.mem_singleton, forall_eq]
  | @parked slot slots took =>
    obtain ⟨taken, absent, blank, same⟩ :=
      sound.take (m := .parked slot next p priority sync) took rfl
    have outside : Message.parked slot next p priority sync ∉ o.places :=
      fun kept => absent (Multiset.mem_add.mpr (.inl kept))
    have stands : ∀ x st, (({ o with slots } : Outbox).share
        (.parked slot next p priority sync)).Stands x st ↔ o.Stands x st := fun x st =>
      stands_congr rfl rfl rfl fun n kept => (progress_share _ _ n).trans (same n kept)
    have shared := taken.share (Multiset.mem_add.mpr (.inr (Multiset.mem_cons_self _ held)))
    obtain ⟨queued, waits⟩ := shared.enqueue outside ((progress_share _ _ _).trans blank)
    refine ⟨queued, [], (List.append_nil _).symm, rfl, rfl, rfl, .waiting,
      .inl ⟨rfl, rfl, Message.publication_parked _ _ _ _ _⟩, fun x st => ?_⟩
    rw [waits, stands]
    simp only [numbersOf, List.filterMap_nil, List.not_mem_nil, false_implies, implies_true,
      and_true]

/-- The message in flight under an acknowledged number ends before the queue is
sent from; `f` is the outbox in between. -/
structure Landed (o : Outbox) (id : PacketId) (reason : Reason) (f : Outbox) : Prop where
  queue : f.queue = o.queue
  numbers : f.inFlight.keys = (o.inFlight.erase id).keys
  stands : ∀ x st, f.Stands x st ↔
    o.Stands x (.flying id) ∧ x.sync = true ∧ st = .ended (.ofReason reason) ∨
      o.Stands x st ∧ ¬o.Stands x (.flying id)

theorem acknowledge_drained (w : Wire σ) (id : PacketId) (reason : Reason)
    (sound : o.Sound held next) :
    ∃ f attempts,
      (o.acknowledge w id reason).2.calls = w.calls ++ attempts.map Attempt.call ∧
      (o.acknowledge w id reason).1.Sound held next ∧ f.Sound held next ∧
      o.Landed id reason f ∧ Drained f attempts (o.acknowledge w id reason).1 := by
  unfold acknowledge
  split
  · rename_i m flies
    obtain ⟨landed, absent, stands⟩ := sound.land flies
    have unsettled : (({ o with inFlight := o.inFlight.erase id } : Outbox).progress m).outcome =
        none := congrArg Progress.outcome (sound.flying id m flies)
    obtain ⟨ended, ends, _⟩ := landed.finish absent unsettled (.ofReason reason)
    obtain ⟨attempts, calls, last, drained⟩ := pump_drained w ended
    refine ⟨_, attempts, calls, last, ended, ⟨?_, ?_, ?_⟩, drained⟩
    · exact finish_queue _ _ _
    · rw [finish_inFlight]
    · intro x st
      have only : ∀ x, o.Stands x (.flying id) ↔ x = m := by
        intro x
        simp only [Stands, flies, Option.some.injEq, eq_comm]
      rw [ends, stands, only]
      refine or_congr_left (and_congr_right ?_)
      intro same
      rw [same]
  · rename_i absent
    obtain ⟨attempts, calls, last, drained⟩ := pump_drained w sound
    refine ⟨o, attempts, calls, last, sound, ⟨rfl, ?_, ?_⟩, drained⟩
    · rw [Table.keys_erase, List.erase_of_not_mem (Table.get?_eq_none_iff.mp absent)]
    · intro x st
      simp only [Stands, absent, reduceCtorEq, false_and, not_false_eq_true, and_true, false_or]

end Courier.Outbox
