import Courier.Proofs.Outbox.Custody

/-! Where a message stands: it waits, it is in flight under a number, or it has
ended and somebody will ask for its outcome. In a sound outbox a message stands
in one place at most, and every operation is known by the standings it changes. -/
namespace Courier

inductive Standing where
  | waiting
  | flying (id : PacketId)
  | ended (outcome : Outcome)

namespace Outbox

def Stands (o : Outbox) (m : Message) : Standing → Prop
  | .waiting => m ∈ o.queue
  | .flying id => o.inFlight.get? id = some m
  | .ended outcome => o.finished.get? m.seq = some m ∧ (o.progress m).outcome = some outcome

def Underway (o : Outbox) (m : Message) : Prop :=
  o.Stands m .waiting ∨ ∃ id, o.Stands m (.flying id)

variable {o p : Outbox} {held out : Multiset Message} {m x : Message} {next : Nat}
  {st st' : Standing} {id : PacketId} {outcome : Outcome}

theorem Stands.kept (stands : o.Stands m st) : m ∈ o.places := by
  cases st with
  | waiting => exact mem_places_of_queue stands
  | flying id => exact mem_places_of_inFlight stands
  | ended outcome => exact mem_places_of_finished stands.1

theorem Sound.stands (sound : o.Sound held next) (kept : m ∈ o.places) : ∃ st, o.Stands m st := by
  rcases mem_places.mp kept with waits | ⟨id, flies⟩ | ⟨seq, found⟩
  · exact ⟨.waiting, waits⟩
  · exact ⟨.flying id, flies⟩
  · obtain ⟨rfl, _, outcome, noted⟩ := sound.ended seq m found
    exact ⟨.ended outcome, found, noted⟩

/-- How far a message has come tells where it stands. -/
theorem Sound.stands_unique (sound : o.Sound held next) (first : o.Stands m st)
    (second : o.Stands m st') : st = st' := by
  have noted : ∀ st, o.Stands m st → match st with
      | .waiting => o.progress m = {}
      | .flying id => o.progress m = { id := some id }
      | .ended outcome => (o.progress m).outcome = some outcome := by
    intro st stands
    cases st with
    | waiting => exact sound.waiting m stands
    | flying id => exact sound.flying id m stands
    | ended outcome => exact stands.2
  have one := noted st first
  have two := noted st' second
  cases st <;> cases st' <;> simp_all

theorem stands_congr (queue : p.queue = o.queue) (inFlight : p.inFlight = o.inFlight)
    (finished : p.finished = o.finished) (same : ∀ n ∈ o.places, p.progress n = o.progress n) :
    p.Stands x st ↔ o.Stands x st := by
  cases st with
  | waiting => simp only [Stands, queue]
  | flying id => simp only [Stands, inFlight]
  | ended outcome =>
    simp only [Stands, finished]
    apply and_congr_right
    intro found
    rw [same x (mem_places_of_finished found)]

theorem releaseEach_eq (o : Outbox) (ms : List Message) :
    o.releaseEach ms = { o with slots := (o.releaseEach ms).slots } := by
  induction ms generalizing o with
  | nil => rfl
  | cons m ms ih => exact ih (o.release m)

@[simp]
theorem releaseEach_queue (ms : List Message) : (o.releaseEach ms).queue = o.queue := by
  rw [releaseEach_eq]

@[simp]
theorem releaseEach_inFlight (ms : List Message) : (o.releaseEach ms).inFlight = o.inFlight := by
  rw [releaseEach_eq]

@[simp]
theorem releaseEach_finished (ms : List Message) : (o.releaseEach ms).finished = o.finished := by
  rw [releaseEach_eq]

theorem Sound.stands_release (sound : o.Sound (m ::ₘ held) next) :
    (o.release m).Stands x st ↔ o.Stands x st := by
  have carry := sound.carry
  rw [Multiset.add_cons] at carry
  exact stands_congr rfl rfl rfl fun n kept =>
    progress_release carry.heldBy (Multiset.mem_add.mpr (.inl kept))

theorem Sound.progress_releaseEach {ms : List Message} (sound : o.Sound (ms + held) next)
    (kept : x ∈ o.places) : (o.releaseEach ms).progress x = o.progress x := by
  induction ms generalizing o with
  | nil => rfl
  | cons m ms ih =>
    rw [← Multiset.cons_coe, Multiset.cons_add] at sound
    have carry := sound.carry
    rw [Multiset.add_cons] at carry
    rw [← progress_release carry.heldBy (Multiset.mem_add.mpr (.inl kept))]
    exact ih sound.release kept

/-- What is taken out of its place is held outside, and nothing else moves. -/
theorem Sound.without (sound : o.Sound held next) (out : Multiset Message)
    (slots : p.slots = o.slots)
    (split : o.places = out + p.places) (queue : ∀ n ∈ p.queue, n ∈ o.queue)
    (inFlight : ∀ id n, p.inFlight.get? id = some n → o.inFlight.get? id = some n)
    (finished : ∀ seq n, p.finished.get? seq = some n → o.finished.get? seq = some n) :
    p.Sound (out + held) next ∧ (∀ n ∈ out, n ∉ p.places) ∧
      ∀ x st, p.Stands x st ↔ o.Stands x st ∧ x ∉ out := by
  have once := sound.once
  rw [split] at once
  obtain ⟨_, kept, apart⟩ := Multiset.nodup_add.mp once
  have taken : ∀ n ∈ out, n ∉ p.places :=
    fun n gone kept => Multiset.disjoint_left.mp apart gone kept
  have after : p.Sound (out + held) next := by
    refine sound.rearrange slots ?_ kept (fun n w => .inl (queue n w))
      (fun id n f => .inl (inFlight id n f)) (fun seq n e => .inl (finished seq n e))
    rw [split, ← Multiset.add_assoc, Multiset.add_comm p.places]
  have back : ∀ x st, p.Stands x st → o.Stands x st := by
    intro x st stands
    cases st with
    | waiting => exact queue x stands
    | flying id => exact inFlight id x stands
    | ended outcome =>
      refine ⟨finished _ x stands.1, ?_⟩
      rw [progress, ← slots]
      exact stands.2
  refine ⟨after, taken, ?_⟩
  intro x st
  constructor
  · intro stands
    exact ⟨back x st stands, fun gone => taken x gone stands.kept⟩
  · rintro ⟨stands, stays⟩
    have member := stands.kept
    rw [split] at member
    have kept := (Multiset.mem_add.mp member).resolve_left stays
    obtain ⟨st', stands'⟩ := after.stands kept
    rw [sound.stands_unique stands (back x st' stands')]
    exact stands'

/-- A single message is taken out of its place. -/
theorem Sound.without_one (sound : o.Sound held next) (slots : p.slots = o.slots)
    (split : o.places = m ::ₘ p.places) (queue : ∀ n ∈ p.queue, n ∈ o.queue)
    (inFlight : ∀ id n, p.inFlight.get? id = some n → o.inFlight.get? id = some n)
    (finished : ∀ seq n, p.finished.get? seq = some n → o.finished.get? seq = some n) :
    p.Sound (m ::ₘ held) next ∧ m ∉ p.places ∧
      ∀ x st, p.Stands x st ↔ o.Stands x st ∧ x ≠ m := by
  obtain ⟨after, absent, stands⟩ := sound.without {m} slots
    (by rw [split, Multiset.singleton_add]) queue inFlight finished
  refine ⟨?_, absent m (Multiset.mem_singleton_self m), ?_⟩
  · rw [Multiset.singleton_add] at after
    exact after
  · intro x st
    rw [stands, Multiset.mem_singleton]

theorem Sound.pop {rest : List Message} (sound : o.Sound held next) (front : o.queue = m :: rest) :
    ({ o with queue := rest } : Outbox).Sound (m ::ₘ held) next ∧
      m ∉ ({ o with queue := rest } : Outbox).places ∧
      ∀ x st, ({ o with queue := rest } : Outbox).Stands x st ↔ o.Stands x st ∧ x ≠ m := by
  refine sound.without_one rfl (places_pop front) ?_ (fun _ _ found => found) fun _ _ found => found
  intro n waits
  rw [front]
  exact List.mem_cons_of_mem m waits

theorem Sound.land (sound : o.Sound held next) (flies : o.inFlight.get? id = some m) :
    ({ o with inFlight := o.inFlight.erase id } : Outbox).Sound (m ::ₘ held) next ∧
      m ∉ ({ o with inFlight := o.inFlight.erase id } : Outbox).places ∧
      ∀ x st, ({ o with inFlight := o.inFlight.erase id } : Outbox).Stands x st ↔
        o.Stands x st ∧ x ≠ m := by
  exact sound.without_one rfl (places_land flies) (fun _ waits => waits)
    (fun _ _ flies => Table.get?_of_erase flies) fun _ _ found => found

theorem Sound.collect (sound : o.Sound held next) (found : o.finished.get? m.seq = some m) :
    ({ o with finished := o.finished.erase m.seq } : Outbox).Sound (m ::ₘ held) next ∧
      m ∉ ({ o with finished := o.finished.erase m.seq } : Outbox).places ∧
      ∀ x st, ({ o with finished := o.finished.erase m.seq } : Outbox).Stands x st ↔
        o.Stands x st ∧ x ≠ m := by
  exact sound.without_one rfl (places_collect found) (fun _ waits => waits)
    (fun _ _ flies => flies) fun _ _ kept => Table.get?_of_erase kept

end Outbox

end Courier
