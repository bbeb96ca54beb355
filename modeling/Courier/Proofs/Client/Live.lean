import Courier.Proofs.Client.Residue
import Mathlib.Data.Finset.Card

/-! Live messages: those that were taken in and that somebody still holds on to. Each has a
slot of its own, and what is live can be told from the history and the slots alone. -/
namespace Courier

variable {σ : Type}

/-- A message that was taken in and not released since: its slot has owners, and
no message that was taken in later has that slot. -/
def History.Live (history : History σ) (c : Client σ) (m : Message) : Prop :=
  (∃ p, history.Submitted p m) ∧ 0 < c.outbox.slots.owners m.slot ∧
    ∀ q n, history.Submitted q n → n.slot = m.slot → n.seq ≤ m.seq

/-- Live is what is held, if the slots of these messages are all that have owners and each
is the last message of its slot. -/
theorem History.live_iff {history : History σ} {c : Client σ} {held : Multiset Message}
    {m : Message}
    (owned : ∀ slot, 0 < c.outbox.slots.owners slot ↔ slot ∈ held.map Message.slot)
    (submitted : ∀ m ∈ held, ∃ p, history.Submitted p m)
    (latest : ∀ p m, history.Submitted p m → ∀ n ∈ held, n.slot = m.slot →
      n = m ∨ m.seq < n.seq) : history.Live c m ↔ m ∈ held := by
  rw [History.Live, owned]
  constructor
  · rintro ⟨⟨p, known⟩, taken, last⟩
    obtain ⟨n, kept, slot⟩ := Multiset.mem_map.mp taken
    obtain ⟨q, other⟩ := submitted n kept
    rcases latest p m known n kept slot with rfl | younger
    · exact kept
    · have := last q n other slot
      omega
  · intro kept
    refine ⟨submitted m kept, Multiset.mem_map_of_mem _ kept, ?_⟩
    intro q n other slot
    rcases latest q n other m kept slot.symm with rfl | older
    · exact Nat.le_refl _
    · exact Nat.le_of_lt older

namespace Client

variable {c : Client σ}

def live (c : Client σ) : Finset Message := (c.outbox.places + c.awaited).toFinset

theorem mem_live {m : Message} : m ∈ c.live ↔ m ∈ c.outbox.places + c.awaited :=
  Multiset.mem_toFinset

/-- Every live message has a slot of its own. -/
theorem card_live (sound : c.Sound) : c.live.card = c.outbox.slots.inUse := by
  have carry := sound.outbox.carry
  have apart : Set.InjOn Message.slot c.live := by
    intro m first n second same
    exact carry.apart m (mem_live.mp first) n (mem_live.mp second) (.inl same)
  rw [carry.counts.inUse_eq, ← Multiset.card_toFinset, Multiset.toFinset_map]
  exact (Finset.card_image_of_injOn apart).symm

end Client

/-- A step adds no message, or the one it takes in. -/
theorem Step.live_after {s : Step σ} (sound : s.before.Sound) : s.after.live ⊆ s.before.live ∨
    ∃ p m, s.Accepts p m ∧ s.after.live ⊆ insert m s.before.live := by
  by_cases taken : ∃ p m, s.Accepts p m
  · obtain ⟨p, m, accepts⟩ := taken
    refine .inr ⟨p, m, accepts, ?_⟩
    intro n held
    rw [Finset.mem_insert]
    rcases Step.held_arrives sound (Client.mem_live.mp held) with old | ⟨q, new⟩
    · exact .inr (Client.mem_live.mpr old)
    · exact .inl (accepts.same new)
  · left
    intro n held
    rcases Step.held_arrives sound (Client.mem_live.mp held) with old | ⟨q, new⟩
    · exact Client.mem_live.mpr old
    · exact absurd ⟨q, n, new⟩ taken

/-- What is live is on record, and it is the last message of its slot. -/
structure Traced (history : History σ) (c : Client σ) : Prop where
  sound : c.Sound
  drawn : ∀ p m, history.Submitted p m → m.seq < c.nextSeq
  submitted : ∀ m ∈ c.outbox.places + c.awaited, ∃ p, history.Submitted p m
  latest : ∀ p m, history.Submitted p m → ∀ n ∈ c.outbox.places + c.awaited,
    n.slot = m.slot → n = m ∨ m.seq < n.seq

namespace Traced

variable {history : History σ} {s : Step σ} {c : Client σ} {m : Message}

theorem after (traced : Traced history s.before) : Traced (history ++ [s]) s.after where
  sound := Step.sound_after traced.sound
  drawn p m submitted := by
    rcases History.submitted_snoc_iff.mp submitted with submitted | accepts
    · exact Nat.lt_of_lt_of_le (traced.drawn p m submitted) (Step.number_mono traced.sound)
    · have := accepts.numbered traced.sound
      omega
  submitted m held := by
    rcases Step.held_arrives traced.sound held with old | ⟨p, accepts⟩
    · obtain ⟨p, submitted⟩ := traced.submitted m old
      exact ⟨p, submitted.snoc s⟩
    · exact ⟨p, History.submitted_snoc_iff.mpr (.inr accepts)⟩
  latest p m submitted n held slot := by
    rcases History.submitted_snoc_iff.mp submitted with submitted | accepts <;>
      rcases Step.held_arrives traced.sound held with old | ⟨q, new⟩
    · exact traced.latest p m submitted n old slot
    · have := traced.drawn p m submitted
      have := (new.numbered traced.sound).1
      exact .inr (by omega)
    · exact absurd slot (accepts.makes.apart traced.sound old).1
    · exact .inl (accepts.same new)

theorem live_iff (traced : Traced history c) : m ∈ c.live ↔ history.Live c m := by
  rw [Client.mem_live]
  refine (History.live_iff ?_ traced.submitted traced.latest).symm
  intro slot
  rw [traced.sound.outbox.carry.counts.owners, Multiset.count_pos]

end Traced

namespace Client

variable {c d : Client σ} {actions : List (Action σ)} {capacity : Nat}

theorem Pristine.traced (pristine : c.Pristine capacity) : Traced [] c := by
  have empty : c.outbox.places + c.awaited = 0 := by rw [pristine.places, pristine.awaited]; rfl
  refine ⟨pristine.sound, ?_, ?_, ?_⟩
  · rintro p m ⟨s, member, _⟩
    contradiction
  · intro m held
    rw [empty] at held
    exact absurd held (Multiset.notMem_zero m)
  · rintro p m ⟨s, member, _⟩
    contradiction

theorem Reaches.traced (pristine : c.Pristine capacity) (run : Reaches c actions d) :
    Traced (c.trace actions) d :=
  run.induct pristine.traced fun _ _ => Traced.after

end Client

end Courier
