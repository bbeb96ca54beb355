import Courier.Proofs.Calls
import Courier.Proofs.Outbox.Placing

/-! Sending from the queue. The attempts of one stretch go, in order, to the
messages at the front of the queue; `Drained` tells from their results what
became of every message, whatever numbers the transport gave out. -/
namespace Courier

def Standing.ofAttempt : Except TransportFault PacketId → Standing
  | .ok id => .flying id
  | .error _ => .ended .sendFailed

namespace Outbox

variable {σ : Type} {o p q : Outbox} {w : Wire σ} {held : Multiset Message} {m x : Message}
  {next : Nat} {attempts : List Attempt} {rest : List Message}

/-- One of these attempts, made in the order of the queue, is for that message. -/
def Offers (o : Outbox) (attempts : List Attempt) (m : Message)
    (result : Except TransportFault PacketId) : Prop :=
  (m, (m.publication, result)) ∈ o.queue.zip attempts

structure Drained (o : Outbox) (attempts : List Attempt) (p : Outbox) : Prop where
  queue : p.queue = o.queue.drop attempts.length
  requests : attempts.map Prod.fst = (o.queue.take attempts.length).map Message.publication
  arrives : ∀ x st, p.Stands x st → o.Stands x st ∨
    ∃ result, o.Offers attempts x result ∧ st = .ofAttempt result
  stays : ∀ x st, o.Stands x st → p.Stands x st ∨ (∃ result, o.Offers attempts x result) ∨
    ∃ id ∈ numbersOf attempts, st = .flying id
  failed : ∀ x fault, o.Offers attempts x (.error fault) → x.sync = true →
    p.Stands x (.ended .sendFailed)
  launched : (o.inFlight.keys ++ numbersOf attempts).Nodup → ∀ x id,
    o.Offers attempts x (.ok id) → p.Stands x (.flying id)

namespace Drained

theorem nil (o : Outbox) : Drained o [] o where
  queue := rfl
  requests := rfl
  arrives _ _ stands := .inl stands
  stays _ _ stands := .inl stands
  failed x fault offered := by
    rw [Offers, List.zip_nil_right] at offered
    contradiction
  launched _ x id offered := by
    rw [Offers, List.zip_nil_right] at offered
    contradiction

theorem offers_cons {result result' : Except TransportFault PacketId}
    (front : o.queue = m :: rest) (queue : q.queue = rest) :
    o.Offers ((m.publication, result) :: attempts) x result' ↔
      x = m ∧ result' = result ∨ q.Offers attempts x result' := by
  rw [Offers, Offers, front, queue, List.zip_cons_cons, List.mem_cons]
  refine or_congr_left ⟨?_, ?_⟩
  · intro same
    cases same
    exact ⟨rfl, rfl⟩
  · rintro ⟨rfl, rfl⟩
    rfl

/-- A message that is not tried stays, unless its number is given out again. -/
theorem persists {st : Standing} (drained : Drained o attempts p)
    (untried : ∀ result, ¬o.Offers attempts m result) (stands : o.Stands m st)
    (unused : ∀ id ∈ numbersOf attempts, st ≠ .flying id) : p.Stands m st := by
  rcases drained.stays m st stands with stands | ⟨result, offered⟩ | ⟨id, given, same⟩
  · exact stands
  · exact absurd offered (untried result)
  · exact absurd same (unused id given)

/-- The first attempt leads from `o` to `q`, the others from there on. -/
theorem cons {result : Except TransportFault PacketId} (front : o.queue = m :: rest)
    (queue : q.queue = rest) (absent : m ∉ rest)
    (arrives : ∀ x st, q.Stands x st → o.Stands x st ∨ x = m ∧ st = .ofAttempt result)
    (stays : ∀ x st, o.Stands x st → q.Stands x st ∨ x = m ∨
      ∃ id, result = .ok id ∧ st = .flying id)
    (failed : ∀ fault, result = .error fault → m.sync = true → q.Stands m (.ended .sendFailed))
    (launched : ∀ id, result = .ok id →
      q.Stands m (.flying id) ∧ q.inFlight = o.inFlight.insert id m)
    (unlaunched : ∀ fault, result = .error fault → q.inFlight = o.inFlight)
    (others : Drained q attempts p) : Drained o ((m.publication, result) :: attempts) p := by
  have offers : ∀ x result', o.Offers ((m.publication, result) :: attempts) x result' ↔
      x = m ∧ result' = result ∨ q.Offers attempts x result' :=
    fun x result' => offers_cons front queue
  -- a message that has been tried is not tried again
  have once : ∀ result', ¬q.Offers attempts m result' := by
    intro result' offered
    have member := (List.of_mem_zip offered).1
    rw [queue] at member
    exact absent member
  refine ⟨?_, ?_, ?_, ?_, ?_, ?_⟩
  · rw [others.queue, queue, front, List.length_cons, List.drop_succ_cons]
  · rw [front, List.length_cons, List.take_succ_cons, List.map_cons, List.map_cons,
      others.requests, queue]
  · intro x st stands
    rcases others.arrives x st stands with before | ⟨result', offered, same⟩
    · rcases arrives x st before with before | ⟨rfl, same⟩
      · exact .inl before
      · exact .inr ⟨result, (offers x result).mpr (.inl ⟨rfl, rfl⟩), same⟩
    · exact .inr ⟨result', (offers x result').mpr (.inr offered), same⟩
  · intro x st stands
    rcases stays x st stands with kept | rfl | ⟨id, sent, same⟩
    · rcases others.stays x st kept with kept | ⟨result', offered⟩ | ⟨id, given, same⟩
      · exact .inl kept
      · exact .inr (.inl ⟨result', (offers x result').mpr (.inr offered)⟩)
      · refine .inr (.inr ⟨id, ?_, same⟩)
        cases result with
        | ok _ => exact List.mem_cons_of_mem _ given
        | error _ => exact given
    · exact .inr (.inl ⟨result, (offers x result).mpr (.inl ⟨rfl, rfl⟩)⟩)
    · subst sent
      exact .inr (.inr ⟨id, List.mem_cons_self, same⟩)
  · intro x fault offered sync
    rcases (offers x _).mp offered with ⟨rfl, same⟩ | offered
    · exact others.persists once (failed fault same.symm sync) fun id _ => by simp
    · exact others.failed x fault offered sync
  · intro fresh x id offered
    cases result with
    | error fault =>
      rcases (offers x _).mp offered with ⟨_, same⟩ | offered
      · contradiction
      · refine others.launched ?_ x id offered
        rw [unlaunched fault rfl]
        exact fresh
    | ok number =>
      obtain ⟨flies, inFlight⟩ := launched number rfl
      change (o.inFlight.keys ++ number :: numbersOf attempts).Nodup at fresh
      have unused : number ∉ o.inFlight.keys := fun key =>
        (List.nodup_append.mp fresh).2.2 number key number List.mem_cons_self rfl
      have later : number ∉ numbersOf attempts :=
        (List.nodup_cons.mp (List.nodup_append.mp fresh).2.1).1
      rcases (offers x _).mp offered with ⟨rfl, same⟩ | offered
      · cases same
        apply others.persists once flies
        intro j given same
        cases same
        exact later given
      · refine others.launched ?_ x id offered
        rw [inFlight, Table.keys_insert, if_neg unused, List.append_assoc]
        exact fresh

end Drained

theorem releaseEach_requeue (o : Outbox) (queue ms : List Message) :
    ({ o with queue } : Outbox).releaseEach ms = { o.releaseEach ms with queue } := by
  induction ms generalizing o with
  | nil => rfl
  | cons m ms ih => exact ih (o.release m)

theorem launch_requeue (o : Outbox) (queue : List Message) (m : Message) (id : PacketId) :
    ({ o with queue } : Outbox).launch m id = { o.launch m id with queue } :=
  releaseEach_requeue { (o.number m id).share m with inFlight := o.inFlight.insert id m } queue _

theorem finish_requeue (o : Outbox) (queue : List Message) (m : Message) (outcome : Outcome) :
    ({ o with queue } : Outbox).finish m outcome = { o.finish m outcome with queue } := by
  unfold finish
  split
  · exact releaseEach_requeue
      { o.conclude m outcome with finished := o.finished.insert m.seq m } queue _
  · rfl

theorem launch_inFlight (o : Outbox) (m : Message) (id : PacketId) :
    (o.launch m id).inFlight = o.inFlight.insert id m :=
  releaseEach_inFlight _

theorem launch_queue (o : Outbox) (m : Message) (id : PacketId) :
    (o.launch m id).queue = o.queue :=
  releaseEach_queue _

theorem finish_inFlight (o : Outbox) (m : Message) (outcome : Outcome) :
    (o.finish m outcome).inFlight = o.inFlight := by
  unfold finish
  split
  · exact releaseEach_inFlight _
  · rfl

theorem finish_queue (o : Outbox) (m : Message) (outcome : Outcome) :
    (o.finish m outcome).queue = o.queue := by
  unfold finish
  split
  · exact releaseEach_queue _
  · rfl

/-- The front of the queue was sent, under a number. -/
theorem Drained.sent (id : PacketId) (sound : o.Sound held next) (front : o.queue = m :: rest) :
    ((({ o with queue := rest } : Outbox).launch m id).release m).Sound held next ∧
      ∀ attempts p,
        Drained ((({ o with queue := rest } : Outbox).launch m id).release m) attempts p →
          Drained o ((m.publication, .ok id) :: attempts) p := by
  have blank := sound.waiting m (front ▸ List.mem_cons_self)
  obtain ⟨popped, absent, stands⟩ := sound.pop front
  obtain ⟨flown, flies⟩ := popped.launch absent blank id
  have after : ∀ x st, ((({ o with queue := rest } : Outbox).launch m id).release m).Stands x st ↔
      x = m ∧ st = .flying id ∨ (o.Stands x st ∧ x ≠ m) ∧ st ≠ .flying id := by
    intro x st
    rw [flown.stands_release, flies, stands]
  have inFlight := launch_inFlight { o with queue := rest } m id
  refine ⟨flown.release, ?_⟩
  intro attempts p others
  refine Drained.cons front ?_ ?_ ?_ ?_ ?_ ?_ ?_ others
  · exact releaseEach_queue _
  · exact fun member => absent (mem_places_of_queue member)
  · intro x st here
    rcases (after x st).mp here with ⟨rfl, rfl⟩ | ⟨⟨before, _⟩, _⟩
    · exact .inr ⟨rfl, rfl⟩
    · exact .inl before
  · intro x st before
    by_cases same : x = m
    · exact .inr (.inl same)
    · by_cases number : st = .flying id
      · exact .inr (.inr ⟨id, rfl, number⟩)
      · exact .inl ((after x st).mpr (.inr ⟨⟨before, same⟩, number⟩))
  · intro fault same
    contradiction
  · intro number same
    cases same
    exact ⟨(after m _).mpr (.inl ⟨rfl, rfl⟩), inFlight⟩
  · intro fault same
    contradiction

/-- The transport refused the front of the queue. -/
theorem Drained.refused (fault : TransportFault) (sound : o.Sound held next)
    (front : o.queue = m :: rest) :
    (({ o with queue := rest } : Outbox).finish m .sendFailed).Sound held next ∧
      ∀ attempts p, Drained (({ o with queue := rest } : Outbox).finish m .sendFailed) attempts p →
        Drained o ((m.publication, .error fault) :: attempts) p := by
  have blank := sound.waiting m (front ▸ List.mem_cons_self)
  obtain ⟨popped, absent, stands⟩ := sound.pop front
  have unsettled : (({ o with queue := rest } : Outbox).progress m).outcome = none :=
    congrArg Progress.outcome blank
  obtain ⟨ended, ends, _⟩ := popped.finish absent unsettled .sendFailed
  have after : ∀ x st, (({ o with queue := rest } : Outbox).finish m .sendFailed).Stands x st ↔
      x = m ∧ m.sync = true ∧ st = .ended .sendFailed ∨ o.Stands x st ∧ x ≠ m := by
    intro x st
    rw [ends, stands]
  have inFlight := finish_inFlight { o with queue := rest } m .sendFailed
  refine ⟨ended, ?_⟩
  intro attempts p others
  refine Drained.cons front (finish_queue _ _ _) ?_ ?_ ?_ ?_ ?_ ?_ others
  · exact fun member => absent (mem_places_of_queue member)
  · intro x st here
    rcases (after x st).mp here with ⟨rfl, _, rfl⟩ | ⟨before, _⟩
    · exact .inr ⟨rfl, rfl⟩
    · exact .inl before
  · intro x st before
    by_cases same : x = m
    · exact .inr (.inl same)
    · exact .inl ((after x st).mpr (.inr ⟨before, same⟩))
  · intro _ _ sync
    exact (after m _).mpr (.inl ⟨rfl, sync, rfl⟩)
  · intro number same
    contradiction
  · exact fun _ _ => inFlight

theorem sendQueue_drained (ms : List Message) (o : Outbox) (w : Wire σ)
    (sound : ({ o with queue := ms } : Outbox).Sound held next) :
    ∃ attempts, (sendQueue ms o w).2.calls = w.calls ++ attempts.map Attempt.call ∧
      (sendQueue ms o w).1.Sound held next ∧
      Drained { o with queue := ms } attempts (sendQueue ms o w).1 := by
  induction ms generalizing o w with
  | nil => exact ⟨[], (List.append_nil _).symm, sound, .nil _⟩
  | cons m rest ih =>
    unfold sendQueue
    split
    · exact ⟨[], (List.append_nil _).symm, sound, .nil _⟩
    · unfold send Wire.publish
      obtain ⟨result, state⟩ := w.transport.publish m.publication w.state
      cases result with
      | ok id =>
        obtain ⟨after, extend⟩ := Drained.sent id sound rfl
        rw [launch_requeue, launch_requeue] at after extend
        obtain ⟨attempts, calls, last, drained⟩ :=
          ih ((o.launch m id).release m) (w.after state (.publish m.publication (.ok id))) after
        refine ⟨(m.publication, .ok id) :: attempts, ?_, last, extend attempts _ drained⟩
        rw [calls, Wire.after, List.append_assoc]
        rfl
      | error fault =>
        obtain ⟨after, extend⟩ := Drained.refused fault sound rfl
        rw [finish_requeue, finish_requeue] at after extend
        obtain ⟨attempts, calls, last, drained⟩ :=
          ih (o.finish m .sendFailed) (w.after state (.publish m.publication (.error fault))) after
        refine ⟨(m.publication, .error fault) :: attempts, ?_, last, extend attempts _ drained⟩
        rw [calls, Wire.after, List.append_assoc]
        rfl

theorem pump_drained (w : Wire σ) (sound : o.Sound held next) :
    ∃ attempts, (o.pump w).2.calls = w.calls ++ attempts.map Attempt.call ∧
      (o.pump w).1.Sound held next ∧ Drained o attempts (o.pump w).1 := by
  unfold pump
  split
  · exact sendQueue_drained o.queue o w sound
  · exact ⟨[], (List.append_nil _).symm, sound, .nil o⟩

end Outbox

end Courier
