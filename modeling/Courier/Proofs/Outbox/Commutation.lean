import Courier.Proofs.Outbox.Pumping
import Mathlib.Order.Bounds.Basic

/-! Acknowledgements in either order. Each settles one message and fills the room that it
leaves. Messages may be settled in either order, and room that is filled in between comes
to the same as room that is filled once, at the end. -/
namespace Courier

variable {σ : Type}

/-- The transport gives this number to none of the messages when they are tried in turn, as
one that never gives it out does not. -/
def Wire.Withholds (w : Wire σ) (id : PacketId) (ms : List Message) : Prop :=
  ∀ m, (m, .ok id) ∉ (w.tryEach ms).1

namespace Outbox

variable {o o' p p' q q' : Outbox} {w : Wire σ} {held : Multiset Message} {id id' : PacketId}
  {reason reason' : Reason} {ts ts' : List Trial}

def settle (o : Outbox) (id : PacketId) (reason : Reason) : Outbox :=
  match o.inFlight.get? id with
  | some m => { o with inFlight := o.inFlight.erase id }.finish m (.ofReason reason)
  | none => o

theorem acknowledge_eq (o : Outbox) (w : Wire σ) (id : PacketId) (reason : Reason) :
    o.acknowledge w id reason = (o.settle id reason).pump w := by
  rw [acknowledge, settle]
  cases o.inFlight.get? id <;> rfl

theorem trials_congr (queue : p.queue = o.queue) (w : Wire σ) (k : Nat) :
    p.trials w k = o.trials w k := by
  rw [trials, trials, queue]

/-- What an answer notes of a message: its outcome, if it is in flight under the number. -/
def answered (o : Outbox) (id : PacketId) (reason : Reason) (m : Message) (p : Progress) :
    Progress :=
  if o.inFlight.get? id = some m then m.settle (.ofReason reason) p else p

structure Settled (o : Outbox) (held : Multiset Message) (id : PacketId) (reason : Reason)
    (p : Outbox) : Prop where
  becomes : o.Becomes held (o.answered id reason) p held
  queue : p.queue = o.queue
  inFlight : ∀ j, p.inFlight.get? j = (o.inFlight.erase id).get? j
  finished : p.finished =
    o.finished.insertEach ((o.inFlight.get? id).toList.flatMap Message.filed)
  setup : p.setup = o.setup

theorem Owned.settle (owned : o.Owned held) (id : PacketId) (reason : Reason) :
    Settled o held id reason (o.settle id reason) := by
  cases flight : o.inFlight.get? id with
  | none =>
    have unchanged : o.settle id reason = o := by rw [Outbox.settle, flight]
    rw [unchanged]
    refine ⟨owned.refl.congr fun m _ => ?_, rfl, fun j => ?_, ?_, rfl⟩
    · rw [answered, flight]
      rfl
    · rw [Table.get?_erase]
      split
      · rename_i same
        rw [← same, flight]
      · rfl
    · rw [flight]
      rfl
  | some m =>
    have ended : o.settle id reason =
        ({ o with inFlight := o.inFlight.erase id } : Outbox).finish m (.ofReason reason) := by
      rw [Outbox.settle, flight]
    rw [ended]
    have landed := owned.without (p := { o with inFlight := o.inFlight.erase id }) rfl
      (places_land flight)
    refine ⟨(landed.trans (landed.owned.finish _)).congr fun n _ => ?_, finish_queue _ _ _,
      fun j => ?_, ?_, finish_setup _ _ _⟩
    · simp only [answered, flight, noting, Option.some.injEq]
      split
      · rename_i same
        rw [same]
      · rfl
    · rw [finish_inFlight]
    · rw [finish_finished, flight, Option.toList_some, List.flatMap_singleton]

theorem Owned.acknowledge (owned : o.Owned held) (w : Wire σ) (id : PacketId)
    (reason : Reason) : (o.acknowledge w id reason).1.Owned held := by
  rw [acknowledge_eq]
  exact (owned.settle id reason).becomes.owned.pump w

/-- The same to everybody who looks from outside: the same messages under the same keys,
each come as far. -/
structure Alike (o : Outbox) (held : Multiset Message) (p : Outbox) : Prop where
  queue : o.queue = p.queue
  inFlight : ∀ id, o.inFlight.get? id = p.inFlight.get? id
  finished : ∀ seq, o.finished.get? seq = p.finished.get? seq
  progress : ∀ m ∈ o.places + held, o.progress m = p.progress m
  setup : o.setup = p.setup

namespace Alike

theorem refl (o : Outbox) : o.Alike held o :=
  ⟨rfl, fun _ => rfl, fun _ => rfl, fun _ _ => rfl, rfl⟩

theorem places_eq (alike : o.Alike held p) : o.places = p.places := by
  rw [places, places, alike.queue, Table.contents_congr alike.inFlight,
    Table.contents_congr alike.finished]

/-- Messages that are kept under the same keys need to be compared only where they are kept. -/
theorem of_kept (queue : o.queue = p.queue)
    (inFlight : ∀ id, o.inFlight.get? id = p.inFlight.get? id)
    (finished : ∀ seq, o.finished.get? seq = p.finished.get? seq) (setup : o.setup = p.setup)
    (progress : ∀ m ∈ o.places + held, m ∈ p.places + held → o.progress m = p.progress m) :
    o.Alike held p := by
  have places : o.places = p.places := by
    rw [Outbox.places, Outbox.places, queue, Table.contents_congr inFlight,
      Table.contents_congr finished]
  exact ⟨queue, inFlight, finished, fun m kept => progress m kept (places ▸ kept), setup⟩

theorem symm (alike : o.Alike held p) : p.Alike held o where
  queue := alike.queue.symm
  inFlight id := (alike.inFlight id).symm
  finished seq := (alike.finished seq).symm
  progress m kept := (alike.progress m (alike.places_eq ▸ kept)).symm
  setup := alike.setup.symm

theorem trans (first : o.Alike held p) (second : p.Alike held q) : o.Alike held q where
  queue := first.queue.trans second.queue
  inFlight id := (first.inFlight id).trans (second.inFlight id)
  finished seq := (first.finished seq).trans (second.finished seq)
  progress m kept := (first.progress m kept).trans (second.progress m (first.places_eq ▸ kept))
  setup := first.setup.trans second.setup

theorem inUse_eq (alike : o.Alike held p) (owned : o.Owned held) (owned' : p.Owned held) :
    o.slots.inUse = p.slots.inUse := by
  rw [owned.inUse_eq, owned'.inUse_eq, alike.places_eq]

/-- The same answers do the same. -/
theorem tried (alike : o.Alike held p) (left : Tried o held ts o') (right : Tried p held ts p') :
    o'.Alike held p' := by
  refine of_kept ?_ ?_ ?_ ?_ fun m kept kept' => ?_
  · exact List.append_cancel_left (left.queue.symm.trans (alike.queue.trans right.queue))
  · rw [left.inFlight, right.inFlight]
    exact Table.get?_insertEach_congr alike.inFlight
  · rw [left.finished, right.finished]
    exact Table.get?_insertEach_congr alike.finished
  · rw [left.setup, right.setup, alike.setup]
  · rw [left.becomes.progress m kept, right.becomes.progress m kept',
      alike.progress m (left.becomes.known kept)]

theorem stops_iff (alike : o.Alike held p) (w : Wire σ) (k : Nat) :
    o.Stops w k ↔ p.Stops w k := by
  have limit := (setup_eq_iff.mp alike.setup).2.1
  have size := Table.size_congr (Table.get?_insertEach_congr (l := launches (p.trials w k))
    alike.inFlight)
  rw [Stops, Stops, trials_congr alike.queue, alike.queue, limit, size]

/-- Outboxes that are alike send the same and stay alike. -/
theorem pump (alike : o.Alike held p) (owned : o.Owned held) (owned' : p.Owned held)
    (w : Wire σ) : (o.pump w).1.Alike held (p.pump w).1 ∧ (o.pump w).2 = (p.pump w).2 := by
  have connected := (setup_eq_iff.mp alike.setup).1
  cases online : p.connected with
  | false =>
    rw [online] at connected
    rw [pump_of_offline connected, pump_of_offline online]
    exact ⟨alike, rfl⟩
  | true =>
    rw [online] at connected
    obtain ⟨k, left⟩ := pump_pumps owned connected w
    obtain ⟨j, right⟩ := pump_pumps owned' online w
    have least := left.least
    simp only [alike.stops_iff] at least
    obtain rfl := least.unique right.least
    have tried := left.tried
    rw [trials_congr alike.queue] at tried
    refine ⟨alike.tried tried right.tried, ?_⟩
    rw [left.wire, right.wire, alike.queue]

end Alike

/-- Messages in flight under different numbers. -/
theorem landing_distinct (distinct : (o.inFlight.contents.map Message.seq).Nodup)
    (apart : id ≠ id') :
    (((o.inFlight.get? id).toList ++ (o.inFlight.get? id').toList).map Message.seq).Nodup := by
  cases first : o.inFlight.get? id with
  | none => cases o.inFlight.get? id' <;> simp
  | some m =>
    cases second : o.inFlight.get? id' with
    | none => simp
    | some n =>
      have seqs : m.seq ≠ n.seq := Table.apart_of_distinct distinct apart first second
      simpa using seqs

/-- Two messages are settled in either order. -/
theorem Settled.swap (apart : id ≠ id') (distinct : (o.inFlight.contents.map Message.seq).Nodup)
    (left : Settled o held id reason p) (left' : Settled p held id' reason' p')
    (right : Settled o held id' reason' q) (right' : Settled q held id reason q') :
    p'.Alike held q' := by
  have later : p.inFlight.get? id' = o.inFlight.get? id' := by
    rw [left.inFlight, Table.get?_erase, if_neg apart]
  have earlier : q.inFlight.get? id = o.inFlight.get? id := by
    rw [right.inFlight, Table.get?_erase, if_neg (Ne.symm apart)]
  refine .of_kept ?_ (fun j => ?_) (fun seq => ?_) ?_ fun m kept kept' => ?_
  · rw [left'.queue, left.queue, right'.queue, right.queue]
  · simp only [left'.inFlight, right'.inFlight, Table.get?_erase, left.inFlight, right.inFlight]
    by_cases mine : id = j
    · simp only [if_pos mine, ite_self]
    · simp only [if_neg mine]
  · rw [left'.finished, left.finished, right'.finished, right.finished, later, earlier,
      ← Table.insertEach_append, ← Table.insertEach_append, ← List.flatMap_append,
      ← List.flatMap_append]
    refine Table.get?_insertEach_perm (List.perm_append_comm.flatMap_right _) ?_
    exact (landing_distinct distinct apart).sublist (Message.flatMap_filed_keys _)
  · rw [left'.setup, left.setup, right'.setup, right.setup]
  · rw [left'.becomes.progress m kept, left.becomes.progress m (left'.becomes.known kept),
      right'.becomes.progress m kept', right.becomes.progress m (right'.becomes.known kept')]
    simp only [answered, later, earlier]
    by_cases here : o.inFlight.get? id = some m
    · have elsewhere : o.inFlight.get? id' ≠ some m := fun there =>
        Table.apart_of_distinct distinct apart here there rfl
      simp only [if_neg elsewhere]
    · simp only [if_neg here]

/-- A message may be settled before others are sent, unless one of them gets its number. -/
theorem Tried.settled_inFlight (tried : Tried o held ts p) (unused : ∀ m, (m, .ok id) ∉ ts)
    (settled : Settled p held id reason p') (settled' : Settled o held id reason o')
    (j : PacketId) :
    p'.inFlight.get? j = (o'.inFlight.insertEach (launches ts)).get? j := by
  rw [settled.inFlight, tried.inFlight, Table.get?_insertEach_erase (not_mem_launches unused)]
  exact (Table.get?_insertEach_congr settled'.inFlight j).symm

/-- What was sent before a message is settled may as well be sent afterwards, if it is
neither that message nor given its number. -/
theorem Tried.settled (tried : Tried o held ts p) (unused : ∀ m, (m, .ok id) ∉ ts)
    (distinct : (((o.inFlight.get? id).toList ++ ts.map Prod.fst).map Message.seq).Nodup)
    (settled : Settled p held id reason p') (rest : Tried p' held ts' q)
    (settled' : Settled o held id reason o') (all : Tried o' held (ts ++ ts') q') :
    q.Alike held q' := by
  have flight : p.inFlight.get? id = o.inFlight.get? id := by
    rw [tried.inFlight, Table.get?_insertEach_of_absent (not_mem_launches unused)]
  refine .of_kept ?_ (fun j => ?_) (fun seq => ?_) ?_ fun m kept kept' => ?_
  · have split := all.queue
    rw [settled'.queue, tried.queue, ← settled.queue, rest.queue, List.map_append,
      List.append_assoc] at split
    exact List.append_cancel_left (List.append_cancel_left split)
  · rw [rest.inFlight, all.inFlight, launches_append, Table.insertEach_append]
    exact Table.get?_insertEach_congr (tried.settled_inFlight unused settled settled') j
  · rw [rest.finished, all.finished, filings_append, Table.insertEach_append]
    refine Table.get?_insertEach_congr (fun i => ?_) seq
    rw [settled.finished, tried.finished, settled'.finished, flight, ← Table.insertEach_append,
      ← Table.insertEach_append]
    refine (Table.get?_insertEach_perm List.perm_append_comm ?_).symm
    rw [List.map_append] at distinct ⊢
    exact distinct.sublist ((Message.flatMap_filed_keys _).append (filings_keys ts))
  · rw [rest.setup, settled.setup, tried.setup, all.setup, settled'.setup]
  · have before := rest.becomes.known kept
    rw [rest.becomes.progress m kept, settled.becomes.progress m before,
      tried.becomes.progress m (settled.becomes.known before), all.becomes.progress m kept',
      settled'.becomes.progress m (all.becomes.known kept'), noted_append]
    simp only [answered, flight]
    by_cases here : o.inFlight.get? id = some m
    · have untried : m ∉ ts.map Prod.fst := by
        rw [here, Option.toList_some, List.singleton_append, List.map_cons] at distinct
        exact fun member => (List.nodup_cons.mp distinct).1 (List.mem_map_of_mem member)
      simp only [if_pos here, noted_of_untried untried]
    · simp only [if_neg here]

theorem not_mem_trials (withheld : w.Withholds id o.queue) (k : Nat) (m : Message) :
    (m, .ok id) ∉ o.trials w k := by
  intro sent
  refine withheld m ?_
  rw [← List.take_append_drop k o.queue, Wire.tryEach_append]
  exact List.mem_append_left _ sent

section Refill

variable {k j : Nat} {r s : Outbox × Wire σ}

/-- With one message less in flight the queue does not stop any earlier. -/
theorem Settled.stops (settled : Settled o held id reason o')
    (unused : ∀ m, (m, .ok id) ∉ o.trials w k) (stops : o'.Stops w k) : o.Stops w k := by
  have limit := (setup_eq_iff.mp settled.setup).2.1
  refine stops.imp (fun drained => settled.queue ▸ drained) fun full => ?_
  have size : (o'.inFlight.insertEach (launches (o.trials w k))).size =
      ((o.inFlight.insertEach (launches (o.trials w k))).erase id).size := by
    refine Table.size_congr fun j => ?_
    rw [Table.get?_insertEach_erase (not_mem_launches unused)]
    exact Table.get?_insertEach_congr settled.inFlight j
  rw [limit, trials_congr settled.queue, size] at full
  exact full.trans (Table.size_retain_le _ _)

/-- The answers that are due behind the messages that were tried before the settlement. -/
theorem Pumps.trials_settled (before : Pumps o held w k r)
    (settled : Settled r.1 held id reason p') (settled' : Settled o held id reason o') (n : Nat) :
    o'.trials w (k + n) = o.trials w k ++ p'.trials r.2 n := by
  rw [trials_congr settled'.queue, trials_congr settled.queue, before.tried.trials_add,
    ← before.wire]

/-- As many are sent before and after the settlement together as at once after it. -/
theorem Pumps.least_settled (before : Pumps o held w k r) (withheld : w.Withholds id o.queue)
    (settled : Settled r.1 held id reason p') (after : Pumps p' held r.2 j s)
    (settled' : Settled o held id reason o') : IsLeast {n | o'.Stops w n} (k + j) := by
  have limit := (setup_eq_iff.mp settled.setup).2.1
  have limit' := (setup_eq_iff.mp settled'.setup).2.1
  have unlimited := (setup_eq_iff.mp before.tried.setup).2.1
  refine isLeast_add (fun n early stops => ?_) (fun n => ?_) after.least
  · have := before.least.2 (settled'.stops (not_mem_trials withheld n) stops)
    omega
  · have size := Table.size_congr (Table.get?_insertEach_congr (l := launches (p'.trials r.2 n))
      (before.tried.settled_inFlight (not_mem_trials withheld k) settled settled'))
    rw [Stops, Stops, settled'.queue, settled.queue, before.tried.queue_eq, List.drop_drop,
      before.trials_settled settled settled', launches_append, Table.insertEach_append, size,
      limit, limit', unlimited]

/-- Room that is filled before a message is settled and again afterwards is filled as if
it had been filled once, afterwards. -/
theorem pump_settle_pump (owned : o.Owned held) (w : Wire σ) (withheld : w.Withholds id o.queue)
    (distinct : (((o.inFlight.get? id).toList ++ o.queue).map Message.seq).Nodup)
    (reason : Reason) :
    (((o.pump w).1.settle id reason).pump (o.pump w).2).1.Alike held
        ((o.settle id reason).pump w).1 ∧
      (((o.pump w).1.settle id reason).pump (o.pump w).2).2 =
        ((o.settle id reason).pump w).2 := by
  cases online : o.connected with
  | false =>
    rw [pump_of_offline online]
    exact ⟨.refl _, rfl⟩
  | true =>
    obtain ⟨k, before⟩ := pump_pumps owned online w
    have settled := before.tried.becomes.owned.settle id reason
    have settled' := owned.settle id reason
    have connected' := (setup_eq_iff.mp settled'.setup).1.trans online
    have connected := ((setup_eq_iff.mp settled.setup).1.trans
      (setup_eq_iff.mp before.tried.setup).1).trans online
    obtain ⟨j, after⟩ := pump_pumps settled.becomes.owned connected (o.pump w).2
    obtain ⟨i, all⟩ := pump_pumps settled'.becomes.owned connected' w
    obtain rfl := all.least.unique (before.least_settled withheld settled after settled')
    have tried := all.tried
    rw [before.trials_settled settled settled'] at tried
    refine ⟨before.tried.settled (not_mem_trials withheld k) ?_ settled after.tried settled' tried,
      ?_⟩
    · rw [trials_messages]
      refine distinct.sublist ?_
      exact ((List.Sublist.refl _).append (List.take_sublist k o.queue)).map Message.seq
    · rw [after.wire, all.wire, settled.queue, before.tried.queue_eq, settled'.queue, List.take_add,
        Wire.tryEach_append, before.wire]

end Refill

/-- Messages of which no two have a number in common wait, or are in flight. -/
theorem waiting_distinct (distinct : (o.places.map Message.seq).Nodup) (id : PacketId) :
    (((o.inFlight.get? id).toList ++ o.queue).map Message.seq).Nodup := by
  let landing : Multiset Message := (o.inFlight.get? id).toList
  have flies : landing ≤ o.inFlight.contents := by
    rw [← o.inFlight.contents_erase id]
    exact Multiset.le_add_left _ _
  have within : landing + (o.queue : Multiset Message) ≤ o.places := by
    rw [places, Multiset.add_comm]
    exact (Multiset.add_le_add_left flies).trans (Multiset.le_add_right _ _)
  exact Multiset.coe_nodup.mp (Multiset.nodup_of_le (Multiset.map_le_map within) distinct)

/-- Whatever is sent between two acknowledgements, both messages might have been settled
first. -/
theorem acknowledge_acknowledge (owned : o.Owned held)
    (distinct : (o.places.map Message.seq).Nodup) (apart : id ≠ id') (w : Wire σ)
    (withheld : w.Withholds id' o.queue) (reason reason' : Reason) :
    ((o.acknowledge w id reason).1.acknowledge (o.acknowledge w id reason).2 id' reason').1.Alike
        held (((o.settle id reason).settle id' reason').pump w).1 ∧
      ((o.acknowledge w id reason).1.acknowledge (o.acknowledge w id reason).2 id' reason').2 =
        (((o.settle id reason).settle id' reason').pump w).2 := by
  have settled := owned.settle id reason
  have flight : (o.settle id reason).inFlight.get? id' = o.inFlight.get? id' := by
    rw [settled.inFlight, Table.get?_erase, if_neg apart]
  rw [acknowledge_eq, acknowledge_eq]
  refine pump_settle_pump settled.becomes.owned w ?_ ?_ reason'
  · rw [settled.queue]
    exact withheld
  · rw [flight, settled.queue]
    exact waiting_distinct distinct id'

/-- Known numbers and unknown ones, whatever else the transport answers. -/
theorem acknowledgements_commute (owned : o.Owned held)
    (distinct : (o.places.map Message.seq).Nodup) (apart : id ≠ id') (w : Wire σ)
    (withheld : w.Withholds id o.queue) (withheld' : w.Withholds id' o.queue)
    (reason reason' : Reason) :
    let first := o.acknowledge w id reason
    let both := first.1.acknowledge first.2 id' reason'
    let first' := o.acknowledge w id' reason'
    let both' := first'.1.acknowledge first'.2 id reason
    both.1.Alike held both'.1 ∧ both.1.slots.inUse = both'.1.slots.inUse ∧ both.2 = both'.2 := by
  intro first both first' both'
  have settled := owned.settle id reason
  have settled' := owned.settle id' reason'
  have last := settled.becomes.owned.settle id' reason'
  have last' := settled'.becomes.owned.settle id reason
  have flights : (o.inFlight.contents.map Message.seq).Nodup := by
    refine Multiset.nodup_of_le (Multiset.map_le_map ?_) distinct
    exact (Multiset.le_add_left _ _).trans (Multiset.le_add_right _ _)
  have swapped := settled.swap apart flights last settled' last'
  obtain ⟨alike, wire⟩ := acknowledge_acknowledge owned distinct apart w withheld' reason reason'
  obtain ⟨alike', wire'⟩ :=
    acknowledge_acknowledge owned distinct (Ne.symm apart) w withheld reason' reason
  obtain ⟨pumped, sent⟩ := swapped.pump last.becomes.owned last'.becomes.owned w
  have same : both.1.Alike held both'.1 := (alike.trans pumped).trans alike'.symm
  refine ⟨same, same.inUse_eq ?_ ?_, (wire.trans sent).trans wire'.symm⟩
  · exact (owned.acknowledge w id reason).acknowledge _ id' reason'
  · exact (owned.acknowledge w id' reason').acknowledge _ id reason

open Rehearsal in
/-- One message is rejected and one delivered, and of the messages that wait one is refused,
two take their places in flight, and one goes on waiting. -/
theorem acknowledgements_commute_refilled :
    ∃ (o : Outbox) (held : Multiset Message) (w : Wire Line), o.Owned held ∧
      (o.places.map Message.seq).Nodup ∧ (1 : PacketId) ≠ 2 ∧ w.Withholds 1 o.queue ∧
      w.Withholds 2 o.queue ∧
      (let first := o.acknowledge w 1 .quotaExceeded
       let both := first.1.acknowledge first.2 2 .success
       let first' := o.acknowledge w 2 .success
       let both' := first'.1.acknowledge first'.2 1 .quotaExceeded
       both.1.queue.length = 1 ∧ both.1.inFlight.size = 2 ∧ both.1.finished.size = 2 ∧
         first.1.finished.size ≠ first'.1.finished.size ∧
         both.1.Alike held both'.1 ∧ both.1.slots.inUse = both'.1.slots.inUse ∧
         both.2 = both'.2) := by
  let message (slot : Nat) (topic : String) (sync : Bool) : Message :=
    .parked slot slot ⟨topic, [], .atLeastOnce, none⟩ .low sync
  let held : Multiset Message := {message 0 "a" true, message 2 "b" true}
  let taken : Table Nat (Holding Progress) :=
    ⟨[(0, ⟨2, { id := some 1 }⟩), (1, ⟨1, { id := some 2 }⟩), (2, ⟨2, {}⟩), (3, ⟨1, {}⟩),
      (4, ⟨1, {}⟩), (5, ⟨1, {}⟩)], by decide⟩
  let o : Outbox :=
    { slots := ⟨7, [6], taken⟩
      connected := true
      inFlightLimit := 2
      queue := [message 2 "b" true, message 3 "a" false, message 4 "a" false, message 5 "a" false]
      inFlight := ⟨[(1, message 0 "a" true), (2, message 1 "a" false)], by decide⟩ }
  let refuses : Line :=
    { nextId := 3
      trouble := fun target =>
        if target = .publish then some ⟨.notConnected, some ["b"]⟩ else none }
  let w : Wire Line := { Line.wire with state := refuses }
  have owned : o.Owned held := by decide +kernel
  have distinct : (o.places.map Message.seq).Nodup := by decide +kernel
  have answers : (w.tryEach o.queue).1 = [(message 2 "b" true, .error .notConnected),
      (message 3 "a" false, .ok 3), (message 4 "a" false, .ok 4), (message 5 "a" false, .ok 5)] :=
    rfl
  have withheld : w.Withholds 1 o.queue := by
    intro m
    rw [answers]
    simp
  have withheld' : w.Withholds 2 o.queue := by
    intro m
    rw [answers]
    simp
  refine ⟨o, held, w, owned, distinct, by decide, withheld, withheld', ?_, ?_, ?_, ?_,
    acknowledgements_commute owned distinct (by decide) w withheld withheld' .quotaExceeded
      .success⟩
  · decide +kernel
  · decide +kernel
  · decide +kernel
  · decide +kernel

end Outbox

end Courier
