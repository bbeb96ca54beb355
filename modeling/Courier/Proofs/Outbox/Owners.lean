import Courier.Proofs.Insertions
import Courier.Proofs.Outbox.Session

/-! Any outbox, whatever has been noted of its messages: all that is known of it is who
owns its slots. `Becomes` tells what an operation does to the holders of messages and
what it notes of which message; each operation has one lemma of that kind. -/
namespace Courier

namespace Message

/-- What is noted of a message that ends: its outcome, if somebody waits for it. -/
def settle (m : Message) (outcome : Outcome) (p : Progress) : Progress :=
  if m.sync then p.conclude outcome else p

def filed (m : Message) : List (Nat × Message) := if m.sync then [(m.seq, m)] else []

theorem settle_settle (m : Message) (outcome : Outcome) (p : Progress) :
    m.settle outcome (m.settle outcome p) = m.settle outcome p := by
  unfold settle
  split
  · cases noted : p.outcome <;> simp [Progress.conclude, noted]
  · rfl

theorem mem_filed {m n : Message} {seq : Nat} :
    (seq, n) ∈ m.filed ↔ n = m ∧ seq = m.seq ∧ m.sync = true := by
  cases sync : m.sync <;> simp [filed, sync, and_comm]

/-- A message that has ended is kept under its own sequence number. -/
theorem filed_keys (m : Message) : (m.filed.map Prod.fst).Sublist [m.seq] := by
  unfold filed
  split
  · exact .refl _
  · exact List.nil_sublist _

theorem flatMap_filed_keys (ms : List Message) :
    ((ms.flatMap filed).map Prod.fst).Sublist (ms.map Message.seq) := by
  induction ms with
  | nil => exact .refl _
  | cons m ms ih =>
    rw [List.flatMap_cons, List.map_append, List.map_cons]
    exact m.filed_keys.append ih

end Message

namespace Outbox

variable {o p q : Outbox} {held held' held'' : Multiset Message} {m n : Message} {next : Nat}
  {noted noted' : Message → Progress → Progress}

/-- Every owner of a slot is a place in which its message is kept, or somebody who holds
it outside. -/
abbrev Owned (o : Outbox) (held : Multiset Message) : Prop :=
  o.slots.HeldBy (o.places + held)

theorem Sound.owned (sound : o.Sound held next) : o.Owned held := sound.carry.heldBy

def noting (m : Message) (f : Progress → Progress) (n : Message) (p : Progress) : Progress :=
  if m = n then f p else p

/-- One outbox and what is held outside lead to another. No message is made up, and of
each that is left there is noted what `noted` makes of it. -/
structure Becomes (o : Outbox) (held : Multiset Message) (noted : Message → Progress → Progress)
    (p : Outbox) (held' : Multiset Message) : Prop where
  owned : p.Owned held'
  known : p.places + held' ⊆ o.places + held
  progress : ∀ m ∈ p.places + held', p.progress m = noted m (o.progress m)

theorem Becomes.trans (first : o.Becomes held noted p held')
    (second : p.Becomes held' noted' q held'') :
    o.Becomes held (fun m progress => noted' m (noted m progress)) q held'' where
  owned := second.owned
  known := Multiset.Subset.trans second.known first.known
  progress m member := by
    rw [second.progress m member, first.progress m (second.known member)]

theorem Becomes.congr (becomes : o.Becomes held noted p held')
    (same : ∀ m ∈ p.places + held', noted m (o.progress m) = noted' m (o.progress m)) :
    o.Becomes held noted' p held' :=
  ⟨becomes.owned, becomes.known, fun m member =>
    (becomes.progress m member).trans (same m member)⟩

/-- A slot comes free with the last place or holder of its message. -/
theorem Becomes.mem_free_iff (becomes : o.Becomes held noted p held') (owned : o.Owned held)
    (setup : p.setup = o.setup) (slot : Nat) :
    slot ∈ p.slots.free ↔ slot ∈ o.slots.free ∨
      ∃ m ∈ o.places + held, m ∉ p.places + held' ∧ m.slot = slot := by
  have capacity := (setup_eq_iff.mp setup).2.2
  rw [becomes.owned.counts.mem_free_iff, owned.counts.mem_free_iff, capacity]
  constructor
  · rintro ⟨within, absent⟩
    by_cases taken : slot ∈ (o.places + held).map Message.slot
    · obtain ⟨m, member, mine⟩ := Multiset.mem_map.mp taken
      exact .inr ⟨m, member, fun kept => absent (mine ▸ Multiset.mem_map_of_mem _ kept), mine⟩
    · exact .inl ⟨within, taken⟩
  · rintro (⟨within, absent⟩ | ⟨m, member, gone, rfl⟩)
    · exact ⟨within, fun taken => absent (Multiset.map_subset_map becomes.known taken)⟩
    · refine ⟨owned.counts.lt_capacity (Multiset.mem_map_of_mem _ member), fun taken => ?_⟩
      obtain ⟨n, kept, same⟩ := Multiset.mem_map.mp taken
      rw [owned.apart n (becomes.known kept) m member same] at kept
      exact gone kept

namespace Owned

theorem rearrange (owned : o.Owned held) (slots : p.slots = o.slots)
    (refs : p.places + held' = o.places + held) :
    o.Becomes held (fun _ progress => progress) p held' := by
  refine ⟨?_, ?_, ?_⟩
  · rw [Owned, slots, refs]
    exact owned
  · rw [refs]
    exact Multiset.Subset.refl _
  · intro m _
    simp only [Outbox.progress, slots]

/-- A message is taken out of its place and held. -/
theorem without (owned : o.Owned held) (slots : p.slots = o.slots)
    (split : o.places = m ::ₘ p.places) :
    o.Becomes held (fun _ progress => progress) p (m ::ₘ held) :=
  owned.rearrange slots (by rw [split, Multiset.add_cons, Multiset.cons_add])

theorem refl (owned : o.Owned held) : o.Becomes held (fun _ progress => progress) o held :=
  owned.rearrange rfl rfl

theorem share (owned : o.Owned held) (member : m ∈ o.places + held) :
    o.Becomes held (fun _ progress => progress) (o.share m) (m ::ₘ held) := by
  refine ⟨?_, ?_, fun n _ => progress_share o m n⟩
  · rw [Owned, Multiset.add_cons]
    exact Slots.HeldBy.share owned member
  · intro n kept
    rw [Multiset.add_cons, Multiset.mem_cons] at kept
    rcases kept with rfl | kept
    · exact member
    · exact kept

theorem release (owned : o.Owned (m ::ₘ held)) :
    o.Becomes (m ::ₘ held) (fun _ progress => progress) (o.release m) held := by
  have heldBy := owned
  rw [Owned, Multiset.add_cons] at heldBy
  refine ⟨heldBy.release, ?_, fun n kept => progress_release heldBy kept⟩
  intro n kept
  rw [Multiset.add_cons]
  exact Multiset.mem_cons_of_mem kept

theorem releaseEach {ms : List Message} (owned : o.Owned (ms + held)) :
    o.Becomes (ms + held) (fun _ progress => progress) (o.releaseEach ms) held := by
  induction ms generalizing o with
  | nil => exact owned.rearrange rfl (by rw [Multiset.coe_nil, Multiset.zero_add]; rfl)
  | cons m ms ih =>
    rw [← Multiset.cons_coe, Multiset.cons_add] at owned ⊢
    exact owned.release.trans (ih owned.release.owned)

theorem update (owned : o.Owned held) (member : m ∈ o.places + held)
    (f : Progress → Progress) :
    o.Becomes held (noting m f) { o with slots := o.slots.update m.slot f } held :=
  ⟨Slots.HeldBy.update owned m.slot f, Multiset.Subset.refl _, fun _ kept =>
    progress_update owned member kept f⟩

/-- A message is put in flight, with its place as one more owner; what was in flight
under that number has one owner less. -/
theorem launch (owned : o.Owned (m ::ₘ held)) (id : PacketId) :
    o.Becomes (m ::ₘ held) (noting m (·.number id)) (o.launch m id) (m ::ₘ held) := by
  have mine : m ∈ o.places + (m ::ₘ held) :=
    Multiset.mem_add.mpr (.inr (Multiset.mem_cons_self m held))
  have numbered := owned.update mine (·.number id)
  have shared := numbered.trans (numbered.owned.share mine)
  let older := (o.inFlight.get? id).toList
  let placed : Outbox := { (o.number m id).share m with inFlight := o.inFlight.insert id m }
  have traded : placed.places + older = m ::ₘ o.places := Sound.places_insert o m id _
  have refs : placed.places + (older + (m ::ₘ held)) =
      ((o.number m id).share m).places + (m ::ₘ m ::ₘ held) := by
    rw [← Multiset.add_assoc, traded, Multiset.cons_add, ← Multiset.add_cons]
    rfl
  have flown := shared.trans (shared.owned.rearrange (p := placed) rfl refs)
  exact flown.trans flown.owned.releaseEach

theorem places_file (o : Outbox) (m : Message) (slots : Slots Progress) :
    ({ o with slots, finished := o.finished.insert m.seq m } : Outbox).places +
        (o.finished.get? m.seq).toList = m ::ₘ o.places := by
  have filed := o.finished.contents_insert m.seq m
  let older : Multiset Message := (o.finished.get? m.seq).toList
  calc ({ o with slots, finished := o.finished.insert m.seq m } : Outbox).places + older
      = (o.queue : Multiset Message) + o.inFlight.contents +
          ((o.finished.insert m.seq m).contents + older) := by
        rw [← Multiset.add_assoc]
        rfl
    _ = m ::ₘ o.places := by rw [filed, Multiset.add_cons, places]

/-- A message that has ended is handed over to whoever waits for it, or to nobody. -/
theorem finish (owned : o.Owned (m ::ₘ held)) (outcome : Outcome) :
    o.Becomes (m ::ₘ held) (noting m (m.settle outcome)) (o.finish m outcome) held := by
  have mine : m ∈ o.places + (m ::ₘ held) :=
    Multiset.mem_add.mpr (.inr (Multiset.mem_cons_self m held))
  unfold Outbox.finish
  split
  · rename_i sync
    have concluded := owned.update mine (·.conclude outcome)
    let older := (o.finished.get? m.seq).toList
    let placed : Outbox :=
      { o.conclude m outcome with finished := o.finished.insert m.seq m }
    have traded : placed.places + older = m ::ₘ o.places := places_file o m _
    have refs : placed.places + (older + held) =
        (o.conclude m outcome).places + (m ::ₘ held) := by
      rw [← Multiset.add_assoc, traded, Multiset.cons_add, ← Multiset.add_cons]
      rfl
    have filed := concluded.trans (concluded.owned.rearrange (p := placed) rfl refs)
    refine (filed.trans filed.owned.releaseEach).congr fun n _ => ?_
    simp only [noting, Message.settle, if_pos sync]
  · rename_i sync
    refine owned.release.congr fun n _ => ?_
    simp only [noting, Message.settle, if_neg sync, ite_self]

theorem finishEach {ms : List Message} (owned : o.Owned (ms + held)) (outcome : Outcome) :
    o.Becomes (ms + held) (fun n progress => if n ∈ ms then n.settle outcome progress else progress)
      (o.finishEach ms outcome) held := by
  induction ms generalizing o with
  | nil =>
    refine (owned.rearrange (p := o) rfl ?_).congr fun n _ => (if_neg List.not_mem_nil).symm
    rw [Multiset.coe_nil, Multiset.zero_add]
  | cons m ms ih =>
    rw [← Multiset.cons_coe, Multiset.cons_add] at owned ⊢
    have first := owned.finish outcome
    refine (first.trans (ih first.owned)).congr fun n _ => ?_
    simp only [noting, List.mem_cons]
    by_cases same : m = n
    · subst same
      simp only [if_true, true_or, Message.settle_settle, ite_self]
    · simp only [if_neg same, Ne.symm same, false_or]

end Owned

theorem finish_finished (o : Outbox) (m : Message) (outcome : Outcome) :
    (o.finish m outcome).finished = o.finished.insertEach m.filed := by
  unfold finish Message.filed
  split
  · exact releaseEach_finished _
  · rfl

theorem finishEach_inFlight (o : Outbox) (ms : List Message) (outcome : Outcome) :
    (o.finishEach ms outcome).inFlight = o.inFlight := by
  induction ms generalizing o with
  | nil => rfl
  | cons m ms ih => exact (ih (o.finish m outcome)).trans (o.finish_inFlight m outcome)

theorem finishEach_finished (o : Outbox) (ms : List Message) (outcome : Outcome) :
    (o.finishEach ms outcome).finished = o.finished.insertEach (ms.flatMap Message.filed) := by
  induction ms generalizing o with
  | nil => rfl
  | cons m ms ih =>
    rw [List.flatMap_cons, Table.insertEach_append, ← finish_finished o m outcome]
    exact ih (o.finish m outcome)

/-- As many slots are taken as there are messages kept or held. -/
theorem Owned.inUse_eq (owned : o.Owned held) :
    o.slots.inUse = ((o.places + held).map Message.slot).dedup.card :=
  owned.counts.inUse_eq

end Outbox

end Courier
