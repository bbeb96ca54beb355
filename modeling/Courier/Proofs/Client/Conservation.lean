import Courier.Proofs.Client.Live

/-! Conservation. As long as the transport gives out no number that is in use,
every message that was taken in and not released is in one place of the outbox,
once, and the slots of these messages and the free slots are all slots. -/
namespace Courier

variable {σ : Type}

/-- Publishers wait for what the outbox keeps, and the outbox keeps the last
message of each slot. -/
structure Accounted (history : History σ) (c : Client σ) : Prop where
  kept : ∀ m ∈ c.awaited, m ∈ c.outbox.places
  submitted : ∀ m ∈ c.outbox.places, ∃ p, history.Submitted p m
  latest : ∀ p m, history.Submitted p m → ∀ n ∈ c.outbox.places, n.slot = m.slot →
    n = m ∨ m.seq < n.seq

namespace Accounted

variable {history : History σ} {s : Step σ} {c : Client σ} {m : Message}

/-- Under new numbers a publisher never waits in vain. -/
theorem kept_after (recorded : Recorded history s.before)
    (kept : ∀ m ∈ s.before.awaited, m ∈ s.before.outbox.places) (fresh : s.Fresh)
    (waits : m ∈ s.after.awaited) : m ∈ s.after.outbox.places := by
  have sound := recorded.sound
  have sync := (Step.sound_after sound).synchronous m waits
  rcases Step.awaited_arrives sound waits with waited | ⟨p, accepts⟩
  · obtain ⟨st, stood⟩ := sound.outbox.stands (kept m waited)
    rcases Step.stays sound stood with stands | displaces
    · exact stands.kept
    · cases displaces with
      | taken offered => exact (offered.flies sound fresh).kept
      | ended ends => exact ((ends.stands_iff sound).mpr ⟨sync, rfl⟩).kept
      | told answers => exact absurd waits (answers.unawaited sound)
      | cleared clears =>
        obtain ⟨_, _, _, closing, _⟩ := Step.cleared sound clears.1
        have none := recorded.quiet.unawaited (by rw [closing]; simp)
        rw [none] at waited
        exact absurd waited (Multiset.notMem_zero m)
      | overwritten used given => exact (fresh.unused used given).elim
  · obtain ⟨_, _, _, _, taken⟩ := accepts.taken sound
    obtain ⟨place, _, all⟩ := taken.placed
    have waiting : ¬s.GivesUp m := fun gave => gave.unawaited sound waits
    exact ((all m place).mpr (.inl ⟨rfl, rfl, waiting⟩)).kept

/-- A slot with owners belongs to a message the outbox keeps. -/
theorem mem_slots_iff (accounted : Accounted history c) (slot : Nat) :
    slot ∈ (c.outbox.places + c.awaited).map Message.slot ↔
      slot ∈ c.outbox.places.map Message.slot := by
  rw [Multiset.mem_map, Multiset.mem_map]
  constructor
  · rintro ⟨m, held, same⟩
    rcases Multiset.mem_add.mp held with kept | waits
    · exact ⟨m, kept, same⟩
    · exact ⟨m, accounted.kept m waits, same⟩
  · rintro ⟨m, kept, same⟩
    exact ⟨m, Multiset.mem_add.mpr (.inl kept), same⟩

theorem slots_nodup (sound : c.Sound) : (c.outbox.places.map Message.slot).Nodup := by
  refine Multiset.Nodup.map_on ?_ sound.outbox.once
  intro m first n second same
  exact sound.outbox.carry.apart m (Multiset.mem_add.mpr (.inl first)) n
    (Multiset.mem_add.mpr (.inl second)) (.inl same)

theorem seqs_nodup (sound : c.Sound) : (c.outbox.places.map Message.seq).Nodup := by
  refine Multiset.Nodup.map_on ?_ sound.outbox.once
  intro m first n second same
  exact sound.outbox.carry.apart m (Multiset.mem_add.mpr (.inl first)) n
    (Multiset.mem_add.mpr (.inl second)) (.inr same)

/-- The slots of what the outbox keeps and the free slots are all slots. -/
theorem partition (sound : c.Sound) (accounted : Accounted history c) :
    c.outbox.places.map Message.slot + c.outbox.slots.free =
      Multiset.range c.outbox.slots.capacity := by
  have keys : (c.outbox.slots.taken.keys : Multiset Nat) = c.outbox.places.map Message.slot := by
    refine (Multiset.Nodup.ext ?_ (slots_nodup sound)).mpr ?_
    · exact Multiset.coe_nodup.mpr c.outbox.slots.taken.keys_nodup
    · intro slot
      rw [← accounted.mem_slots_iff]
      exact sound.outbox.carry.counts.mem_keys_iff
  rw [← keys, Multiset.add_comm]
  exact sound.outbox.carry.counts.partition

theorem live_iff (sound : c.Sound) (accounted : Accounted history c) :
    history.Live c m ↔ m ∈ c.outbox.places := by
  refine History.live_iff ?_ accounted.submitted accounted.latest
  intro slot
  rw [sound.outbox.carry.counts.owners, Multiset.count_pos, accounted.mem_slots_iff]

end Accounted

namespace Client

variable {c d : Client σ} {options : Options} {wire : Wire σ} {actions : List (Action σ)}

theorem Reaches.accounted (created : create options wire = .ok c) (run : Reaches c actions d)
    (fresh : ∀ s ∈ c.trace actions, s.Fresh) : Accounted (c.trace actions) d := by
  have traced := run.traced (pristine_of_create created)
  have start : ∀ m ∈ c.awaited, m ∈ c.outbox.places := by
    intro m waits
    rw [awaited_of_create created] at waits
    exact absurd waits (Multiset.notMem_zero m)
  refine ⟨?_, ?_, ?_⟩
  · exact run.induct_recorded (P := fun _ d => ∀ m ∈ d.awaited, m ∈ d.outbox.places) created start
      (fun _ _ recorded fresh before _ => Accounted.kept_after recorded before fresh) fresh
  · intro m kept
    exact traced.submitted m (Multiset.mem_add.mpr (.inl kept))
  · intro p m submitted n kept
    exact traced.latest p m submitted n (Multiset.mem_add.mpr (.inl kept))

/-- Nothing is lost and nothing is held twice. -/
structure Conserved (history : History σ) (c : Client σ) : Prop where
  /-- A message that was taken in and not released waits, is in flight or has ended:
  one of these, and once. -/
  once : ∀ m, history.Live c m ↔ c.outbox.queue.count m + c.outbox.inFlight.values.count m +
    c.outbox.finished.values.count m = 1
  numbers : (c.outbox.places.map Message.seq).Nodup
  slots : c.outbox.places.map Message.slot + c.outbox.slots.free =
    Multiset.range c.outbox.slots.capacity
  inUse : c.shared.stats.inUse =
    c.shared.stats.queued + c.shared.stats.inFlight + c.shared.stats.finished
  withinCapacity : c.shared.stats.inUse ≤ c.shared.stats.capacity

/-- Whatever fails, and in whatever order callers, handlers and the network thread
take their turns. -/
theorem messages_conserved (created : create options wire = .ok c) (run : Reaches c actions d)
    (fresh : ∀ s ∈ c.trace actions, s.Fresh) : Conserved (c.trace actions) d := by
  have sound := run.sound created
  have accounted := run.accounted created fresh
  have partition := accounted.partition sound
  have counted : d.outbox.places.card + d.outbox.slots.free.length = d.outbox.slots.capacity := by
    have cards := congrArg Multiset.card partition
    rwa [Multiset.card_add, Multiset.card_map, Multiset.coe_card, Multiset.card_range] at cards
  have places : d.outbox.places.card =
      d.shared.stats.queued + d.shared.stats.inFlight + d.shared.stats.finished := by
    rw [Outbox.places, Multiset.card_add, Multiset.card_add, Multiset.coe_card,
      Table.card_contents, Table.card_contents]
    rfl
  have used : d.shared.stats.inUse = d.outbox.slots.capacity - d.outbox.slots.free.length := rfl
  have limit : d.shared.stats.capacity = d.outbox.slots.capacity := rfl
  refine ⟨?_, Accounted.seqs_nodup sound, partition, by omega, by omega⟩
  intro m
  rw [accounted.live_iff sound]
  have split : d.outbox.places.count m = d.outbox.queue.count m +
      d.outbox.inFlight.values.count m + d.outbox.finished.values.count m := by
    simp only [Outbox.places, Multiset.count_add, Table.contents, Multiset.coe_count]
  rw [← split]
  exact ⟨Multiset.count_eq_one_of_mem sound.outbox.once, fun one =>
    Multiset.count_pos.mp (by omega)⟩

open Rehearsal in
/-- One message is in flight and one waits behind it. -/
theorem messages_conserved_full :
    ∃ actions, create settings Line.wire = .ok client ∧
      Reaches client actions (client.after actions) ∧
      (∀ s ∈ client.trace actions, s.Fresh) ∧
      Conserved (client.trace actions) (client.after actions) := by
  let actions := connects ++ [.enter 0 publication false, .publish publication .high]
  have created : create settings Line.wire = .ok client := rfl
  have run : Reaches client actions (client.after actions) := reaches_after (by decide +kernel)
  have fresh : ∀ s ∈ client.trace actions, s.Fresh := by decide +kernel
  exact ⟨actions, created, run, fresh, messages_conserved created run fresh⟩

end Client

end Courier
