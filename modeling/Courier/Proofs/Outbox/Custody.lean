import Courier.Outbox.Sending
import Courier.Proofs.SlotOwners

/-! Who holds a message. Every place of an outbox in which a message is kept is
one owner of its slot, and so is everybody who holds on to it outside. `Sound`
says so of an outbox and the messages held outside, and that the places agree
with how far their messages have come. Each operation moves one holder. -/
namespace Courier

structure Slots.HeldBy (s : Slots Progress) (refs : Multiset Message) : Prop where
  counts : s.Counts (refs.map Message.slot)
  apart : ∀ m ∈ refs, ∀ n ∈ refs, m.slot = n.slot → m = n

namespace Slots.HeldBy

variable {s : Slots Progress} {refs : Multiset Message} {m : Message}

theorem share (heldBy : s.HeldBy refs) (held : m ∈ refs) :
    (s.share m.slot).HeldBy (m ::ₘ refs) := by
  have within : ∀ n ∈ m ::ₘ refs, n ∈ refs := by
    intro n member
    rcases Multiset.mem_cons.mp member with rfl | member
    · exact held
    · exact member
  refine ⟨?_, ?_⟩
  · rw [Multiset.map_cons]
    exact heldBy.counts.share (Multiset.mem_map_of_mem _ held)
  · intro n first k second
    exact heldBy.apart n (within n first) k (within k second)

theorem release (heldBy : s.HeldBy (m ::ₘ refs)) : (s.release m.slot).HeldBy refs := by
  have within : ∀ n ∈ refs, n ∈ m ::ₘ refs := fun n => Multiset.mem_cons_of_mem
  refine ⟨?_, ?_⟩
  · have counts := heldBy.counts
    rw [Multiset.map_cons] at counts
    exact counts.release
  · intro n first k second
    exact heldBy.apart n (within n first) k (within k second)

theorem update (heldBy : s.HeldBy refs) (slot : Nat) (f : Progress → Progress) :
    (s.update slot f).HeldBy refs :=
  ⟨heldBy.counts.update f, heldBy.apart⟩

/-- A slot is owned as often as its message is held. -/
theorem owners_eq (heldBy : s.HeldBy refs) (held : m ∈ refs) :
    s.owners m.slot = refs.count m := by
  rw [heldBy.counts.owners, Multiset.count_map, Multiset.count_eq_card_filter_eq]
  refine congrArg Multiset.card (Multiset.filter_congr fun n member => ?_)
  exact ⟨heldBy.apart m held n member, congrArg Message.slot⟩

instance (s : Slots Progress) (refs : Multiset Message) : Decidable (s.HeldBy refs) :=
  decidable_of_iff (s.Counts (refs.map Message.slot) ∧
      ∀ m ∈ refs, ∀ n ∈ refs, m.slot = n.slot → m = n)
    ⟨fun ⟨counts, apart⟩ => ⟨counts, apart⟩, fun heldBy => ⟨heldBy.counts, heldBy.apart⟩⟩

end Slots.HeldBy

/-- The slots are held by these messages, no two of which share a slot or a
sequence number; numbers from `next` on are still to be drawn. -/
structure Slots.Carry (s : Slots Progress) (refs : Multiset Message) (next : Nat) : Prop where
  counts : s.Counts (refs.map Message.slot)
  apart : ∀ m ∈ refs, ∀ n ∈ refs, m.slot = n.slot ∨ m.seq = n.seq → m = n
  drawn : ∀ m ∈ refs, m.seq < next

namespace Slots.Carry

variable {s t : Slots Progress} {refs : Multiset Message} {m : Message} {next : Nat}

theorem heldBy (carry : s.Carry refs next) : s.HeldBy refs :=
  ⟨carry.counts, fun m first n second same => carry.apart m first n second (.inl same)⟩

theorem share (carry : s.Carry refs next) (held : m ∈ refs) :
    (s.share m.slot).Carry (m ::ₘ refs) next := by
  have within : ∀ n ∈ m ::ₘ refs, n ∈ refs := by
    intro n member
    rcases Multiset.mem_cons.mp member with rfl | member
    · exact held
    · exact member
  refine ⟨(carry.heldBy.share held).counts, ?_, fun n member => carry.drawn n (within n member)⟩
  intro n first k second
  exact carry.apart n (within n first) k (within k second)

theorem release (carry : s.Carry (m ::ₘ refs) next) : (s.release m.slot).Carry refs next := by
  have within : ∀ n ∈ refs, n ∈ m ::ₘ refs := fun n => Multiset.mem_cons_of_mem
  refine ⟨carry.heldBy.release.counts, ?_, fun n member => carry.drawn n (within n member)⟩
  intro n first k second
  exact carry.apart n (within n first) k (within k second)

theorem update (carry : s.Carry refs next) (slot : Nat) (f : Progress → Progress) :
    (s.update slot f).Carry refs next :=
  ⟨carry.counts.update f, carry.apart, carry.drawn⟩

theorem take (carry : s.Carry refs next) (took : s.take? {} = some (m.slot, t))
    (newest : m.seq = next) : t.Carry (m ::ₘ refs) (next + 1) ∧ m ∉ refs := by
  obtain ⟨counts, free, _⟩ := carry.counts.take took
  have fresh : ∀ n ∈ refs, ¬(m.slot = n.slot ∨ m.seq = n.seq) := by
    rintro n member (slot | seq)
    · exact carry.counts.free_not_mem free (slot ▸ Multiset.mem_map_of_mem _ member)
    · have := carry.drawn n member
      omega
  refine ⟨⟨?_, ?_, ?_⟩, fun member => fresh m member (.inl rfl)⟩
  · rw [Multiset.map_cons]
    exact counts
  · intro n first k second same
    rcases Multiset.mem_cons.mp first with rfl | old <;>
      rcases Multiset.mem_cons.mp second with rfl | older
    · rfl
    · exact absurd same (fresh k older)
    · exact absurd (same.imp Eq.symm Eq.symm) (fresh n old)
    · exact carry.apart n old k older same
  · intro n member
    rcases Multiset.mem_cons.mp member with rfl | member
    · omega
    · have := carry.drawn n member
      omega

end Slots.Carry

namespace Outbox

def places (o : Outbox) : Multiset Message :=
  (o.queue : Multiset Message) + o.inFlight.contents + o.finished.contents

/-- An outbox, the messages held outside of it, and the next sequence number. -/
structure Sound (o : Outbox) (held : Multiset Message) (next : Nat) : Prop where
  carry : o.slots.Carry (o.places + held) next
  once : o.places.Nodup
  waiting : ∀ m ∈ o.queue, o.progress m = {}
  flying : ∀ id m, o.inFlight.get? id = some m → o.progress m = { id := some id }
  ended : ∀ seq m, o.finished.get? seq = some m →
    seq = m.seq ∧ m.sync = true ∧ ∃ outcome, (o.progress m).outcome = some outcome

variable {o p : Outbox} {held rest : Multiset Message} {m n : Message} {next : Nat}

theorem mem_places :
    m ∈ o.places ↔ m ∈ o.queue ∨ (∃ id, o.inFlight.get? id = some m) ∨
      ∃ seq, o.finished.get? seq = some m := by
  simp only [places, Multiset.mem_add, Multiset.mem_coe, Table.mem_contents, or_assoc]

theorem mem_places_of_queue (member : m ∈ o.queue) : m ∈ o.places := mem_places.mpr (.inl member)

theorem mem_places_of_inFlight {id : PacketId} (found : o.inFlight.get? id = some m) :
    m ∈ o.places :=
  mem_places.mpr (.inr (.inl ⟨id, found⟩))

theorem mem_places_of_finished {seq : Nat} (found : o.finished.get? seq = some m) :
    m ∈ o.places :=
  mem_places.mpr (.inr (.inr ⟨seq, found⟩))

/-- The front of the queue is taken out. -/
theorem places_pop {rest : List Message} (front : o.queue = m :: rest) :
    o.places = m ::ₘ ({ o with queue := rest } : Outbox).places := by
  simp only [places, front, ← Multiset.cons_coe, Multiset.cons_add]

/-- A waiting message is taken out. -/
theorem places_leave (waits : m ∈ o.queue) :
    o.places = m ::ₘ ({ o with queue := o.queue.erase m } : Outbox).places := by
  have counted : (o.queue : Multiset Message) = m ::ₘ (o.queue.erase m : List Message) :=
    Multiset.coe_eq_coe.mpr (List.perm_cons_erase waits)
  simp only [places, counted, Multiset.cons_add]

/-- A message in flight is taken out. -/
theorem places_land {id : PacketId} (flies : o.inFlight.get? id = some m) :
    o.places = m ::ₘ ({ o with inFlight := o.inFlight.erase id } : Outbox).places := by
  simp only [places, Table.contents_erase_of_some flies, Multiset.cons_add, Multiset.add_cons]

/-- A message that has ended is taken out. -/
theorem places_collect {seq : Nat} (found : o.finished.get? seq = some m) :
    o.places = m ::ₘ ({ o with finished := o.finished.erase seq } : Outbox).places := by
  simp only [places, Table.contents_erase_of_some found, Multiset.add_cons]

@[simp]
theorem progress_share (o : Outbox) (m n : Message) : (o.share m).progress n = o.progress n := by
  simp only [progress, share, Slots.value?_share]

theorem progress_release (heldBy : o.slots.HeldBy (m ::ₘ rest)) (member : n ∈ rest) :
    (o.release m).progress n = o.progress n := by
  have counts := heldBy.counts
  rw [Multiset.map_cons] at counts
  have kept := counts.value?_release (Multiset.mem_map_of_mem Message.slot member)
  simp only [progress, release, kept]

theorem progress_update (heldBy : o.slots.HeldBy rest) (changed : m ∈ rest) (member : n ∈ rest)
    (f : Progress → Progress) :
    ({ o with slots := o.slots.update m.slot f } : Outbox).progress n =
      if m = n then f (o.progress n) else o.progress n := by
  obtain ⟨h, found⟩ := heldBy.counts.mem_iff.mp (Multiset.mem_map_of_mem Message.slot member)
  have valued : o.slots.value? n.slot = some h.value := by
    rw [Slots.value?, found, Option.map_some]
  simp only [progress, Slots.value?_update, valued]
  by_cases same : m = n
  · subst same
    simp only [ite_true, Option.map_some, Option.getD_some]
  · have slots : m.slot ≠ n.slot :=
      fun eq => same (heldBy.apart m changed n member eq)
    simp only [if_neg slots, if_neg same]

theorem progress_number (heldBy : o.slots.HeldBy rest) (changed : m ∈ rest) (member : n ∈ rest)
    (id : PacketId) :
    (o.number m id).progress n = if m = n then (o.progress n).number id else o.progress n :=
  progress_update heldBy changed member _

theorem progress_conclude (heldBy : o.slots.HeldBy rest) (changed : m ∈ rest)
    (member : n ∈ rest) (outcome : Outcome) :
    (o.conclude m outcome).progress n =
      if m = n then (o.progress n).conclude outcome else o.progress n :=
  progress_update heldBy changed member _

namespace Sound

/-- Other slots, with the same progress of everything that is kept. -/
theorem of_slots {slots : Slots Progress} {held' : Multiset Message} {next' : Nat}
    (sound : o.Sound held next) (carry : slots.Carry (o.places + held') next')
    (same : ∀ m ∈ o.places, ({ o with slots } : Outbox).progress m = o.progress m) :
    ({ o with slots } : Outbox).Sound held' next' := by
  refine ⟨carry, sound.once, ?_, ?_, ?_⟩
  · intro m member
    rw [same m (mem_places_of_queue member)]
    exact sound.waiting m member
  · intro id m found
    rw [same m (mem_places_of_inFlight found)]
    exact sound.flying id m found
  · intro seq m found
    rw [same m (mem_places_of_finished found)]
    exact sound.ended seq m found

/-- Other places for the same messages: what is new in a place has come as far
as that place says. -/
theorem rearrange {held' : Multiset Message} (sound : o.Sound held next) (slots : p.slots = o.slots)
    (refs : p.places + held' = o.places + held) (once : p.places.Nodup)
    (waiting : ∀ m ∈ p.queue, m ∈ o.queue ∨ o.progress m = {})
    (flying : ∀ id m, p.inFlight.get? id = some m →
      o.inFlight.get? id = some m ∨ o.progress m = { id := some id })
    (ended : ∀ seq m, p.finished.get? seq = some m → o.finished.get? seq = some m ∨
      seq = m.seq ∧ m.sync = true ∧ ∃ outcome, (o.progress m).outcome = some outcome) :
    p.Sound held' next := by
  have progress : ∀ m, p.progress m = o.progress m := fun m => by
    simp only [Outbox.progress, slots]
  refine ⟨by rw [slots, refs]; exact sound.carry, once, ?_, ?_, ?_⟩
  · intro m member
    rw [progress]
    exact (waiting m member).elim (sound.waiting m) id
  · intro number m found
    rw [progress]
    exact (flying number m found).elim (sound.flying number m) id
  · intro seq m found
    rw [progress]
    exact (ended seq m found).elim (sound.ended seq m) id

theorem share (sound : o.Sound held next) (member : m ∈ o.places + held) :
    (o.share m).Sound (m ::ₘ held) next := by
  refine sound.of_slots ?_ fun n _ => progress_share o m n
  rw [Multiset.add_cons]
  exact sound.carry.share member

theorem release (sound : o.Sound (m ::ₘ held) next) : (o.release m).Sound held next := by
  have carry := sound.carry
  rw [Multiset.add_cons] at carry
  exact sound.of_slots carry.release fun n member =>
    progress_release carry.heldBy (Multiset.mem_add.mpr (.inl member))

theorem releaseEach {ms : List Message} (sound : o.Sound (ms + held) next) :
    (o.releaseEach ms).Sound held next := by
  induction ms generalizing o with
  | nil =>
    rw [Multiset.coe_nil, Multiset.zero_add] at sound
    exact sound
  | cons m ms ih =>
    rw [← Multiset.cons_coe, Multiset.cons_add] at sound
    exact ih sound.release

/-- Progress may be noted of a message that is in no place. -/
theorem update (sound : o.Sound held next) (member : m ∈ held) (absent : m ∉ o.places)
    (f : Progress → Progress) :
    ({ o with slots := o.slots.update m.slot f } : Outbox).Sound held next := by
  refine sound.of_slots (sound.carry.update _ _) ?_
  intro n kept
  have apart : m ≠ n := fun same => absent (same ▸ kept)
  rw [progress_update sound.carry.heldBy (Multiset.mem_add.mpr (.inr member))
    (Multiset.mem_add.mpr (.inl kept)), if_neg apart]

theorem number (sound : o.Sound held next) (member : m ∈ held) (absent : m ∉ o.places)
    (id : PacketId) : (o.number m id).Sound held next :=
  sound.update member absent _

theorem conclude (sound : o.Sound held next) (member : m ∈ held) (absent : m ∉ o.places)
    (outcome : Outcome) : (o.conclude m outcome).Sound held next :=
  sound.update member absent _

theorem take {slots : Slots Progress} (sound : o.Sound held next)
    (took : o.slots.take? {} = some (m.slot, slots)) (newest : m.seq = next) :
    ({ o with slots } : Outbox).Sound (m ::ₘ held) (next + 1) ∧ m ∉ o.places + held ∧
      ({ o with slots } : Outbox).progress m = {} ∧
      ∀ n ∈ o.places, ({ o with slots } : Outbox).progress n = o.progress n := by
  obtain ⟨carry, absent⟩ := sound.carry.take took newest
  obtain ⟨_, free, values⟩ := sound.carry.counts.take took
  have same : ∀ n ∈ o.places, ({ o with slots } : Outbox).progress n = o.progress n := by
    intro n kept
    have apart : m.slot ≠ n.slot := by
      intro eq
      refine sound.carry.counts.free_not_mem free (eq ▸ Multiset.mem_map_of_mem _ ?_)
      exact Multiset.mem_add.mpr (.inl kept)
    simp only [progress, values, if_neg apart]
  refine ⟨sound.of_slots ?_ same, absent, ?_, same⟩
  · rw [Multiset.add_cons]
    exact carry
  · simp only [progress, values, ite_true, Option.getD_some]

end Sound

end Outbox

end Courier
