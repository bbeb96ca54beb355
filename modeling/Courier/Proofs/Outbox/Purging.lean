import Courier.Proofs.Outbox.Order
import Courier.Proofs.Outbox.Owners

/-! The end of a session, exactly: what it takes out of flight and out of the queue, what
it hands over to those who wait, which slots come free, and all that it leaves alone. None
of it depends on the order in which the messages in flight are enumerated. -/
namespace Courier.Outbox

variable {o : Outbox} {held : Multiset Message} {m : Message}

structure Purged (o : Outbox) (held : Multiset Message) (p : Outbox) : Prop where
  inFlight : ∀ id m, p.inFlight.get? id = some m ↔
    o.inFlight.get? id = some m ∧ m.qos ≠ .atMostOnce
  queue : p.queue = o.queue.filter (·.qos ≠ .atMostOnce)
  finished : ∀ seq m, p.finished.get? seq = some m ↔
    o.finished.get? seq = some m ∨ o.Loses m ∧ m.sync = true ∧ seq = m.seq
  concluded : ∀ m, o.Loses m → m.sync = true →
    p.progress m = { o.progress m with outcome := some .connectionLost }
  others : ∀ m ∈ p.places + held, (o.Loses m → m.sync = false) → p.progress m = o.progress m
  /-- A slot comes free with a message nobody waits for and nobody else owns. -/
  freed : ∀ slot, slot ∈ p.slots.free ↔ slot ∈ o.slots.free ∨
    ∃ m, o.Loses m ∧ m.sync = false ∧ o.slots.owners m.slot = 1 ∧ m.slot = slot
  again : p.purge = p
  setup : p.setup = o.setup
  owned : p.Owned held

theorem purge_eq (o : Outbox) : o.purge = o.remaining.finishEach o.leaving .connectionLost := rfl

theorem purge_finished (o : Outbox) :
    o.purge.finished = o.finished.insertEach (o.leaving.flatMap Message.filed) :=
  finishEach_finished _ _ _

/-- The end of a session takes its messages out and lets them go. -/
theorem Owned.purge (owned : o.Owned held) :
    o.Becomes held (fun m progress =>
      if m ∈ o.leaving then m.settle .connectionLost progress else progress) o.purge held := by
  have refs : o.remaining.places + (o.leaving + held) = o.places + held := by
    rw [o.places_leaving, ← Multiset.add_assoc, Multiset.add_comm o.remaining.places]
  have taken := owned.rearrange (p := o.remaining) rfl refs
  exact taken.trans (taken.owned.finishEach .connectionLost)

/-- Where every message outlives the session its end changes nothing. -/
theorem purge_of_lasting (flights : ∀ m ∈ o.inFlight.values, m.qos.outlivesSession = true)
    (waits : ∀ m ∈ o.queue, m.qos.outlivesSession = true) : o.purge = o := by
  have nobody : ∀ ms : List Message, (∀ m ∈ ms, m.qos.outlivesSession = true) →
      ms.filter (!·.qos.outlivesSession) = [] := by
    intro ms lasting
    rw [List.filter_eq_nil_iff]
    intro m member
    simp only [lasting m member, Bool.not_true, Bool.false_eq_true, not_false_eq_true]
  have leaving : o.leaving = [] := by
    rw [Outbox.leaving, nobody _ flights, nobody _ waits, List.nil_append]
  have remaining : o.remaining = o := by
    have table : (o.inFlight.retain fun _ m => m.qos.outlivesSession) = o.inFlight :=
      Table.retain_of_all fun entry member => flights _ (List.mem_map_of_mem member)
    rw [Outbox.remaining, table, List.filter_eq_self.mpr waits]
  rw [purge_eq, leaving, remaining]
  rfl

theorem purge_purge (o : Outbox) : o.purge.purge = o.purge := by
  refine purge_of_lasting (fun m flies => ?_) fun m waits => ?_
  · rw [purge_eq, finishEach_inFlight] at flies
    obtain ⟨id, found⟩ := Table.mem_contents.mp flies
    exact (Table.get?_retain.mp found).2
  · rw [purge_eq, finishEach_queue] at waits
    exact (List.mem_filter.mp waits).2

theorem purge_inFlight_iff {id : PacketId} : o.purge.inFlight.get? id = some m ↔
    o.inFlight.get? id = some m ∧ m.qos ≠ .atMostOnce := by
  rw [purge_eq, finishEach_inFlight]
  refine Table.get?_retain.trans (and_congr_right fun _ => ?_)
  exact decide_eq_true_iff

theorem purge_queue_eq (o : Outbox) :
    o.purge.queue = o.queue.filter (·.qos ≠ .atMostOnce) := by
  rw [purge_eq, finishEach_queue]
  rfl

/-- What ends with a session has not ended before. -/
theorem Loses.unended (loses : o.Loses m) (once : o.places.Nodup) :
    m ∉ o.finished.contents := by
  have underway : m ∈ (o.queue : Multiset Message) + o.inFlight.contents := by
    rw [Multiset.mem_add]
    exact loses.2.imp Multiset.mem_coe.mpr Table.mem_contents.mpr
  exact Multiset.disjoint_left.mp (Multiset.nodup_add.mp once).2.2 underway

theorem Loses.kept (loses : o.Loses m) : m ∈ o.places := by
  rcases loses.2 with waits | ⟨id, flies⟩
  · exact waits.kept
  · exact flies.kept

section Exactly

variable (distinct : (o.places.map Message.seq).Nodup)
  (keyed : ∀ seq m, o.finished.get? seq = some m → seq = m.seq)

include distinct

include keyed in
/-- Nothing has ended under the number of a message that ends with the session. -/
theorem Loses.unkeyed (loses : o.Loses m) : o.finished.get? m.seq = none := by
  rw [Option.eq_none_iff_forall_ne_some]
  intro n found
  have same : m = n := Multiset.inj_on_of_nodup_map distinct m loses.kept n
    (mem_places_of_finished found) (keyed _ n found)
  subst same
  exact loses.unended distinct.of_map (Table.mem_contents.mpr ⟨_, found⟩)

include keyed in
theorem purge_finished_iff {seq : Nat} : o.purge.finished.get? seq = some m ↔
    o.finished.get? seq = some m ∨ o.Loses m ∧ m.sync = true ∧ seq = m.seq := by
  have within : (o.leaving.map Message.seq).Nodup := by
    rw [o.places_leaving, Multiset.map_add] at distinct
    exact Multiset.coe_nodup.mp (Multiset.nodup_add.mp distinct).1
  have keys := Message.flatMap_filed_keys o.leaving
  have filed : (seq, m) ∈ o.leaving.flatMap Message.filed ↔
      o.Loses m ∧ m.sync = true ∧ seq = m.seq := by
    simp only [List.mem_flatMap, Message.mem_filed, mem_leaving_iff]
    constructor
    · rintro ⟨_, loses, rfl, same, sync⟩
      exact ⟨loses, sync, same⟩
    · rintro ⟨loses, sync, same⟩
      exact ⟨m, loses, rfl, same, sync⟩
  have free : ∀ key ∈ (o.leaving.flatMap Message.filed).map Prod.fst,
      o.finished.get? key = none := by
    intro key filed
    obtain ⟨n, leaves, rfl⟩ := List.mem_map.mp (keys.subset filed)
    exact Loses.unkeyed distinct keyed (mem_leaving_iff.mp leaves)
  rw [purge_finished, Table.get?_insertEach_of_free (within.sublist keys) free, filed]

include keyed in
/-- A message is kept unless it ends with the session and nobody waits for it. -/
theorem mem_places_purge_iff :
    m ∈ o.purge.places ↔ m ∈ o.places ∧ (o.Loses m → m.sync = true) := by
  simp only [mem_places (o := o.purge), purge_finished_iff distinct keyed, purge_inFlight_iff,
    purge_queue_eq, List.mem_filter]
  constructor
  · rintro (⟨waits, lasts⟩ | ⟨id, flies, lasts⟩ | ⟨seq, found | ⟨loses, sync, _⟩⟩)
    · exact ⟨mem_places_of_queue waits, fun loses => absurd loses.1 (of_decide_eq_true lasts)⟩
    · exact ⟨mem_places_of_inFlight flies, fun loses => absurd loses.1 lasts⟩
    · exact ⟨mem_places_of_finished found, fun loses =>
        absurd (Table.mem_contents.mpr ⟨_, found⟩) (loses.unended distinct.of_map)⟩
    · exact ⟨loses.kept, fun _ => sync⟩
  · rintro ⟨kept, waited⟩
    by_cases loses : o.Loses m
    · exact .inr (.inr ⟨m.seq, .inr ⟨loses, waited loses, rfl⟩⟩)
    · rcases mem_places.mp kept with waits | ⟨id, flies⟩ | ⟨seq, found⟩
      · have lasts : m.qos ≠ .atMostOnce := fun kind => loses ⟨kind, .inl waits⟩
        exact .inl ⟨waits, decide_eq_true lasts⟩
      · have lasts : m.qos ≠ .atMostOnce := fun kind => loses ⟨kind, .inr ⟨id, flies⟩⟩
        exact .inr (.inl ⟨id, flies, lasts⟩)
      · exact .inr (.inr ⟨seq, .inl found⟩)

include keyed in
theorem Owned.mem_free_purge (owned : o.Owned held) (slot : Nat) :
    slot ∈ o.purge.slots.free ↔ slot ∈ o.slots.free ∨
      ∃ m, o.Loses m ∧ m.sync = false ∧ o.slots.owners m.slot = 1 ∧ m.slot = slot := by
  have once : o.places.Nodup := distinct.of_map
  have sole : ∀ m, o.Loses m → (o.slots.owners m.slot = 1 ↔ m ∉ held) := by
    intro m loses
    rw [owned.owners_eq (Multiset.mem_add.mpr (.inl loses.kept)), Multiset.count_add,
      Multiset.count_eq_one_of_mem once loses.kept, ← Multiset.count_eq_zero]
    omega
  rw [owned.purge.mem_free_iff owned (purge_setup o)]
  simp only [Multiset.mem_add, mem_places_purge_iff distinct keyed]
  refine or_congr_right (exists_congr fun m => ?_)
  constructor
  · rintro ⟨known, gone, mine⟩
    obtain ⟨unkept, unheld⟩ := not_or.mp gone
    have kept := known.resolve_right unheld
    obtain ⟨loses, unwaited⟩ := Classical.not_imp.mp (fun waited => unkept ⟨kept, waited⟩)
    exact ⟨loses, Bool.eq_false_iff.mpr unwaited, (sole m loses).mpr unheld, mine⟩
  · rintro ⟨loses, async, single, mine⟩
    refine ⟨.inl loses.kept, ?_, mine⟩
    rintro (⟨_, waited⟩ | keeps)
    · rw [waited loses] at async
      contradiction
    · exact (sole m loses).mp single keeps

include keyed in
theorem Owned.purged (owned : o.Owned held)
    (unsettled : ∀ m, o.Underway m → (o.progress m).outcome = none) :
    Purged o held o.purge := by
  refine ⟨fun _ _ => purge_inFlight_iff, purge_queue_eq o,
    fun _ _ => purge_finished_iff distinct keyed, ?_, ?_, owned.mem_free_purge distinct keyed,
    purge_purge o, purge_setup o, owned.purge.owned⟩
  · intro m loses sync
    have kept : m ∈ o.purge.places :=
      (mem_places_purge_iff distinct keyed).mpr ⟨loses.kept, fun _ => sync⟩
    rw [owned.purge.progress m (Multiset.mem_add.mpr (.inl kept)),
      if_pos (mem_leaving_iff.mpr loses), Message.settle, if_pos sync, Progress.conclude,
      unsettled m loses.2, Option.none_or]
  · intro m kept unwaited
    rw [owned.purge.progress m kept]
    split
    · rename_i leaves
      simp only [Message.settle, unwaited (mem_leaving_iff.mp leaves), Bool.false_eq_true, if_false]
    · rfl

end Exactly

/-- In whatever order the messages in flight are listed. What has ended is kept under its
sequence number, so nothing that has ended gives way. -/
theorem purge_exactly (owned : o.Owned held) (distinct : (o.places.map Message.seq).Nodup)
    (keyed : ∀ seq m, o.finished.get? seq = some m → seq = m.seq)
    (unsettled : ∀ m, o.Underway m → (o.progress m).outcome = none)
    {listed : Table PacketId Message} (same : listed.entries.Perm o.inFlight.entries) :
    Purged o held ({ o with inFlight := listed } : Outbox).purge := by
  let q : Outbox := { o with inFlight := listed }
  have flights : ∀ id, q.inFlight.get? id = o.inFlight.get? id := Table.get?_of_perm same
  have underway : ∀ m, q.Underway m ↔ o.Underway m := fun m => by
    simp only [Underway, Stands, flights, q]
  have loses : ∀ m, q.Loses m ↔ o.Loses m := fun m => and_congr_right fun _ => underway m
  have places : q.places = o.places := by
    rw [Outbox.places, Table.contents_congr flights]
    rfl
  have owned' : q.Owned held := by
    rw [Owned, places]
    exact owned
  have purged : Purged q held q.purge :=
    owned'.purged (places ▸ distinct) keyed fun m here => unsettled m ((underway m).mp here)
  refine ⟨?_, purged.queue, ?_, ?_, ?_, ?_, purged.again, purged.setup, purged.owned⟩
  · simpa only [flights] using purged.inFlight
  · simpa only [loses] using purged.finished
  · exact fun m here => purged.concluded m ((loses m).mpr here)
  · exact fun m kept unwaited =>
      purged.others m kept fun here => unwaited ((loses m).mp here)
  · simpa only [loses] using purged.freed

/-- Of the messages in flight, listed the other way round, one outlives the session, one has
another owner and for one somebody waits; of those that wait one stays, one is handed over
and one frees its slot. -/
theorem purge_exactly_reordered :
    ∃ (o : Outbox) (held : Multiset Message) (listed : Table PacketId Message), o.Owned held ∧
      (o.places.map Message.seq).Nodup ∧
      (∀ seq m, o.finished.get? seq = some m → seq = m.seq) ∧
      (∀ m, o.Underway m → (o.progress m).outcome = none) ∧
      listed.entries.Perm o.inFlight.entries ∧ listed.entries ≠ o.inFlight.entries ∧
      ({ o with inFlight := listed } : Outbox).purge.inFlight.size = 1 ∧
      ({ o with inFlight := listed } : Outbox).purge.queue.length = 1 ∧
      ({ o with inFlight := listed } : Outbox).purge.finished.size = 3 ∧
      ({ o with inFlight := listed } : Outbox).purge.slots.free = [5, 7] ∧
      Purged o held ({ o with inFlight := listed } : Outbox).purge := by
  let message (slot : Nat) (qos : QoS) (sync : Bool) : Message :=
    .parked slot slot ⟨"a", [], qos, none⟩ .low sync
  let shared := message 0 .atMostOnce false
  let lasting := message 1 .atLeastOnce false
  let awaited := message 2 .atMostOnce true
  let ended := message 6 .atMostOnce true
  let held : Multiset Message := {shared, awaited, message 4 .atMostOnce true, ended}
  let taken : Table Nat (Holding Progress) :=
    ⟨[(0, ⟨2, { id := some 7 }⟩), (1, ⟨1, { id := some 8 }⟩), (2, ⟨2, { id := some 9 }⟩),
      (3, ⟨1, {}⟩), (4, ⟨2, {}⟩), (5, ⟨1, {}⟩), (6, ⟨2, ⟨none, some .delivered⟩⟩)], by decide⟩
  let o : Outbox :=
    { slots := ⟨8, [7], taken⟩
      inFlightLimit := 3
      queue := [message 3 .exactlyOnce false, message 4 .atMostOnce true,
        message 5 .atMostOnce false]
      inFlight := ⟨[(7, shared), (8, lasting), (9, awaited)], by decide⟩
      finished := ⟨[(6, ended)], by decide⟩ }
  let listed : Table PacketId Message := ⟨[(9, awaited), (8, lasting), (7, shared)], by decide⟩
  have owned : o.Owned held := by decide +kernel
  have distinct : (o.places.map Message.seq).Nodup := by decide +kernel
  have same : listed.entries.Perm o.inFlight.entries := by decide +kernel
  have keyed : ∀ seq m, o.finished.get? seq = some m → seq = m.seq := by
    intro seq m found
    obtain ⟨rfl, rfl⟩ : seq = 6 ∧ m = ended := by
      simpa [o] using Table.get?_eq_some_iff.mp found
    rfl
  have unsettled : ∀ m, o.Underway m → (o.progress m).outcome = none := by
    have all : ∀ m ∈ o.queue ++ o.inFlight.values, (o.progress m).outcome = none := by
      decide +kernel
    intro m underway
    refine all m (List.mem_append.mpr ?_)
    exact underway.imp_right Table.mem_contents.mpr
  refine ⟨o, held, listed, owned, distinct, keyed, unsettled, same, by decide +kernel, ?_, ?_, ?_,
    ?_, purge_exactly owned distinct keyed unsettled same⟩
  · decide +kernel
  · decide +kernel
  · decide +kernel
  · decide +kernel

end Courier.Outbox
