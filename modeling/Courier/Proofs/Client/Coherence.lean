import Courier.Proofs.Client.Conservation
import Courier.Proofs.Client.Flow
import Courier.Proofs.Client.Sessions

/-! Coherence of the three places. A message's number and its outcome are noted once and
never changed; what is noted of a message agrees with the place it is kept in, even if the
transport gives out a number that is in flight. -/
namespace Courier

namespace Message

variable {m : Message} {p : Publication}

/-- A message with this content has a copy of it, unless there is nothing to copy. -/
theorem payload_of_publication (content : m.publication = p) (some_bytes : p.payload ≠ []) :
    m.payload = some p.payload := by
  have bytes : m.payload.getD [] = p.payload := congrArg Publication.payload content
  cases copy : m.payload with
  | none =>
    rw [copy] at bytes
    exact absurd bytes.symm some_bytes
  | some payload =>
    rw [copy] at bytes
    exact congrArg some bytes

end Message

namespace Outbox

variable {o : Outbox} {held : Multiset Message} {next : Nat} {m : Message}

/-- What is kept has a slot, and its progress is noted there. -/
theorem Sound.value?_eq (sound : o.Sound held next) (kept : m ∈ o.places) :
    o.slots.value? m.slot = some (o.progress m) := by
  have taken : m.slot ∈ (o.places + held).map Message.slot :=
    Multiset.mem_map_of_mem _ (Multiset.mem_add.mpr (.inl kept))
  obtain ⟨h, found⟩ := sound.carry.counts.mem_iff.mp taken
  simp only [progress, Slots.value?, found, Option.map_some, Option.getD_some]

/-- In all three places together a message is kept once. -/
theorem Sound.count_le_one (sound : o.Sound held next) (m : Message) :
    o.queue.count m + o.inFlight.values.count m + o.finished.values.count m ≤ 1 := by
  have once := Multiset.nodup_iff_count_le_one.mp sound.once m
  simpa only [places, Multiset.count_add, Table.contents, Multiset.coe_count] using once

end Outbox

variable {σ : Type}

structure Coherent (options : Options) (history : History σ) (c : Client σ) : Prop where
  limited : c.outbox.inFlight.size ≤ options.inFlightLimit
  flying : ∀ id m, c.outbox.inFlight.get? id = some m →
    c.outbox.slots.value? m.slot = some { id := some id }
  waiting : ∀ m ∈ c.outbox.queue, c.outbox.slots.value? m.slot = some {}
  copied : ∀ m ∈ c.outbox.queue, ∃ p, history.Submitted p m ∧ m.publication = p ∧
    (p.payload ≠ [] → m.payload = some p.payload)
  ended : ∀ seq m, c.outbox.finished.get? seq = some m → seq = m.seq ∧ m.sync = true ∧
    ∃ id outcome, c.outbox.slots.value? m.slot = some { id, outcome := some outcome }
  once : ∀ m, c.outbox.queue.count m + c.outbox.inFlight.values.count m +
    c.outbox.finished.values.count m ≤ 1
  /-- No two messages of them share a slot or a sequence number. -/
  apart : (c.outbox.places.map Message.slot).Nodup ∧ (c.outbox.places.map Message.seq).Nodup

namespace Client

variable {c d : Client σ} {options : Options} {wire : Wire σ} {actions : List (Action σ)}

theorem Reaches.inFlightLimit (created : create options wire = .ok c)
    (run : Reaches c actions d) : d.outbox.inFlightLimit = options.inFlightLimit := by
  refine run.induct (P := fun _ d => d.outbox.inFlightLimit = options.inFlightLimit) ?_ ?_
  · obtain ⟨_, _, outbox⟩ := outbox_of_create created
    rw [outbox]
  · intro _ s same
    exact s.inFlightLimit_after.trans same

/-- Whatever the transport does, and in whatever order callers, handlers and the network
thread take their turns. -/
theorem places_coherent (created : create options wire = .ok c) (run : Reaches c actions d) :
    Coherent options (c.trace actions) d := by
  have sound := run.sound created
  have recorded := run.recorded created
  have within : d.outbox.inFlight.size ≤ d.outbox.inFlightLimit := run.withinLimit created
  rw [run.inFlightLimit created] at within
  refine ⟨within, ?_, ?_, ?_, ?_, sound.outbox.count_le_one,
    Accounted.slots_nodup sound, Accounted.seqs_nodup sound⟩
  · intro id m flies
    rw [sound.outbox.value?_eq (Outbox.mem_places_of_inFlight flies),
      sound.outbox.flying id m flies]
  · intro m waits
    rw [sound.outbox.value?_eq (Outbox.mem_places_of_queue waits), sound.outbox.waiting m waits]
  · intro m waits
    obtain ⟨p, submitted⟩ := run.submitted created (Outbox.mem_places_of_queue waits)
    have content := recorded.waits p m submitted waits
    exact ⟨p, submitted, content, Message.payload_of_publication content⟩
  · intro seq m found
    obtain ⟨number, sync, outcome, noted⟩ := sound.outbox.ended seq m found
    refine ⟨number, sync, (d.outbox.progress m).id, outcome, ?_⟩
    rw [sound.outbox.value?_eq (Outbox.mem_places_of_finished found), ← noted]

open Rehearsal in
/-- A number that is in flight is given out again, and something is in every place. -/
theorem places_coherent_reused :
    ∃ (options : Options) (c : Client Line) (actions : List (Action Line)),
      create options Line.wire = .ok c ∧ Reaches c actions (c.after actions) ∧
      (∃ s ∈ c.trace actions, ¬s.Fresh) ∧
      ((c.after actions).outbox.queue.length = 1 ∧ (c.after actions).outbox.inFlight.size = 2 ∧
        (c.after actions).outbox.finished.size = 1) ∧
      Coherent options (c.trace actions) (c.after actions) := by
  let options : Options := { settings with capacity := 10, inFlightLimit := 2 }
  let c : Client Line := { client with
    shared := { outbox := { slots := ⟨10, List.range 10, ∅⟩, inFlightLimit := 2 } } }
  let again : Line :=
    { nextId := 1, reachable := ["h:1"], dialled := some "h:1", isUp := true }
  let actions := connects ++ [.enter 0 publication false, .drift again,
    .publish publication .high, .enter 1 publication false, .publish publication .high,
    .hear (.acknowledged 2 .success), .publish publication .high]
  have created : create options Line.wire = .ok c := rfl
  have run : Reaches c actions (c.after actions) := reaches_after (by decide +kernel)
  have reused : ∃ s ∈ c.trace actions, ¬s.Fresh := by decide +kernel
  have full : (c.after actions).outbox.queue.length = 1 ∧
      (c.after actions).outbox.inFlight.size = 2 ∧ (c.after actions).outbox.finished.size = 1 := by
    decide +kernel
  exact ⟨options, c, actions, created, run, reused, full, places_coherent created run⟩

end Client

end Courier
