import Courier.Proofs.Client.Live

/-! Reserved headroom. A class is let in by the number of all messages there are, and
messages of every class come and go; still no class ever holds more than its share
together with the classes below it. -/
namespace Courier

variable {σ : Type}

namespace Outbox

variable {o : Outbox} {priority : Priority}

theorem free_of_hasRoom (room : o.hasRoom priority = true) : o.slots.free ≠ [] := by
  intro none
  have below : o.slots.inUse < priority.limit o.slots.capacity := of_decide_eq_true room
  have limit := priority.limit_le_capacity o.slots.capacity
  have full : o.slots.inUse = o.slots.capacity := by rw [Slots.inUse, none, List.length_nil]; rfl
  omega

/-- With a free slot nothing is turned away for lack of one. -/
theorem accept_ne_tooManyPending (free : o.slots.free ≠ []) (w : Wire σ) (seq : Nat)
    (p : Publication) (priority : Priority) (sync : Bool) :
    (o.accept w seq p priority sync).1 ≠ .error .tooManyPending := by
  unfold accept
  cases took : o.slots.take? {} with
  | none =>
    unfold Slots.take? at took
    split at took
    · rename_i none
      exact absurd none free
    · contradiction
  | some taken =>
    obtain ⟨slot, slots⟩ := taken
    dsimp only
    split
    · unfold send Wire.publish
      obtain ⟨result, state⟩ := w.transport.publish p w.state
      cases result <;> simp
    · simp

theorem Accepts.same_class {w v : Wire σ} {seq : Nat} {p : Publication} {sync : Bool} {m : Message}
    {q : Outbox} (accepts : o.Accepts w seq p priority sync (.ok m) q v) :
    m.priority = priority := by
  cases accepts <;> rfl

end Outbox

namespace Client

variable {c : Client σ}

def liveUpTo (c : Client σ) (priority : Priority) : Finset Message :=
  c.live.filter (·.priority ≤ priority)

/-- Every class is within its share, together with the classes below it. -/
def WithinShares (c : Client σ) : Prop :=
  ∀ priority : Priority, (c.liveUpTo priority).card ≤ priority.limit c.outbox.slots.capacity

end Client

namespace Step

variable {s : Step σ} {p : Publication} {m : Message}

/-- What is taken in has passed the test of its class. -/
theorem Accepts.hasRoom (accepts : s.Accepts p m) :
    s.before.outbox.hasRoom m.priority = true := by
  obtain ⟨priority, sync, late, turn, told⟩ := accepts
  have class_eq : m.priority = priority :=
    (Outbox.accepts_of_eq (Prod.ext told rfl : s.before.outbox.accept s.before.wire
      s.before.nextSeq p priority sync = (.ok m, _))).same_class
  rw [class_eq]
  have comes := comes_of_turn turn
  cases comes with
  | published _ admitted | entered _ admitted => exact (Client.admits_iff.mp admitted).2.2
  | resumed _ _ room => exact room

/-- The test bounds all messages at the moment of entry, hence those of the class that
grows; the other classes do not grow. -/
theorem withinShares_after (sound : s.before.Sound) (within : s.before.WithinShares) :
    s.after.WithinShares := by
  intro priority
  have before := within priority
  rw [s.capacity_after]
  rcases live_after sound with fewer | ⟨p, m, accepts, one⟩
  · exact (Finset.card_le_card (Finset.filter_subset_filter _ fewer)).trans before
  · by_cases grows : m.priority ≤ priority
    · have room : s.before.outbox.slots.inUse <
          m.priority.limit s.before.outbox.slots.capacity := of_decide_eq_true accepts.hasRoom
      rw [← Client.card_live sound] at room
      have share := Priority.limit_mono grows s.before.outbox.slots.capacity
      calc (s.after.liveUpTo priority).card
          ≤ s.after.live.card := Finset.card_filter_le _ _
        _ ≤ (insert m s.before.live).card := Finset.card_le_card one
        _ ≤ s.before.live.card + 1 := Finset.card_insert_le _ _
        _ ≤ priority.limit s.before.outbox.slots.capacity := by omega
    · refine le_trans (Finset.card_le_card ?_) before
      intro n held
      obtain ⟨lives, below⟩ := Finset.mem_filter.mp held
      refine Finset.mem_filter.mpr ⟨?_, below⟩
      rcases Finset.mem_insert.mp (one lives) with rfl | old
      · exact absurd below grows
      · exact old

end Step

structure Headroom (capacity : Nat) (history : History σ) (c : Client σ) : Prop where
  live_iff : ∀ m, m ∈ c.live ↔ history.Live c m
  low : (c.live.filter (·.priority = .low)).card ≤ capacity * 70 / 100
  lower : (c.live.filter (·.priority ≠ .high)).card ≤ capacity * 85 / 100
  all : c.live.card ≤ capacity
  /-- The last slots are free, or messages of the highest class are in them. -/
  reserved : capacity - capacity * 85 / 100 ≤
    c.outbox.slots.free.length + (c.live.filter (·.priority = .high)).card
  roomy : ∀ priority, c.outbox.hasRoom priority = true → ∀ (w : Wire σ) seq p rank sync,
    (c.outbox.accept w seq p rank sync).1 ≠ .error .tooManyPending
  refused : ∀ p, (c.publish p .high).1 = .error .tooManyPending → c.live.card = capacity

namespace Client

variable {c d : Client σ} {actions : List (Action σ)} {capacity : Nat}

theorem Pristine.withinShares (pristine : c.Pristine capacity) : c.WithinShares := by
  intro priority
  have empty : c.live = ∅ := by rw [live, pristine.places, pristine.awaited]; rfl
  rw [liveUpTo, empty]
  exact Nat.zero_le _

theorem Reaches.withinShares (pristine : c.Pristine capacity) (run : Reaches c actions d) :
    d.WithinShares :=
  run.induct_run (P := fun _ d => d.WithinShares) pristine.withinShares
    fun _ _ led => Step.withinShares_after (led.traced pristine).sound

/-- A publication of the highest class is turned away for lack of room only when no slot is
free. -/
theorem free_of_publish_high (sound : c.Sound) {p : Publication}
    (refused : (c.publish p .high).1 = .error .tooManyPending) : c.outbox.slots.free = [] := by
  have counted := sound.outbox.carry.counts.free_add_inUse
  by_contra free
  unfold publish at refused
  split at refused
  · cases refused
  · split at refused
    · cases refused
    · split at refused
      · rename_i full
        have barred : c.outbox.hasRoom .high = false := Bool.not_eq_true' _ |>.mp full
        have room : ¬c.outbox.slots.inUse < c.outbox.slots.capacity := of_decide_eq_false barred
        have some_free := List.length_pos_of_ne_nil free
        omega
      · have never := Outbox.accept_ne_tooManyPending free c.wire c.nextSeq p .high false
        cases taken : c.outbox.accept c.wire c.nextSeq p .high false with
        | mk result rest =>
          obtain ⟨o, w⟩ := rest
          rw [taken] at never
          rw [accept_eq taken] at refused
          cases result with
          | ok m => cases refused
          | error fault => exact never (congrArg Except.error (Except.error.inj refused))

/-- Whatever the transport does, and in whatever order messages of all classes come and go. -/
theorem headroom_reserved (pristine : c.Pristine capacity) (run : Reaches c actions d) :
    Headroom capacity (c.trace actions) d := by
  have traced := run.traced pristine
  have size : d.outbox.slots.capacity = capacity :=
    run.capacity.trans (Slots.capacity_ofCapacity pristine.slots)
  have counted := traced.sound.outbox.carry.counts.free_add_inUse
  rw [← card_live traced.sound, size] at counted
  have share : ∀ (q : Message → Prop) [DecidablePred q] (priority : Priority),
      (∀ m, q m → m.priority ≤ priority) →
      (d.live.filter q).card ≤ priority.limit capacity := by
    intro q _ priority below
    rw [← size]
    refine le_trans (Finset.card_le_card ?_) (run.withinShares pristine priority)
    exact Finset.monotone_filter_right _ fun m _ => below m
  have low : (d.live.filter (·.priority = .low)).card ≤ capacity * 70 / 100 := by
    apply share _ .low
    intro m same
    rw [same]
    exact Nat.le_refl _
  have lower : (d.live.filter (·.priority ≠ .high)).card ≤ capacity * 85 / 100 := by
    apply share _ .medium
    intro m apart
    cases class_eq : m.priority with
    | high => exact absurd class_eq apart
    | low | medium => decide
  have parts := Finset.card_filter_add_card_filter_not (s := d.live) (·.priority = .high)
  refine ⟨fun _ => traced.live_iff, low, lower, by omega, ?_, ?_, ?_⟩
  · simp only [ne_eq] at lower
    omega
  · intro priority room
    exact Outbox.accept_ne_tooManyPending (Outbox.free_of_hasRoom room)
  · intro p refused
    rw [free_of_publish_high traced.sound refused, List.length_nil] at counted
    omega

open Rehearsal in
/-- Of two slots one is left to the highest class; then that class is turned away as well. -/
theorem headroom_reserved_exhausted :
    ∃ actions, client.Pristine 2 ∧ Reaches client actions (client.after actions) ∧
      (client.after actions).live.card = 2 ∧
      ((client.after actions).publish publication .high).1 = .error .tooManyPending ∧
      Headroom 2 (client.trace actions) (client.after actions) := by
  let actions : List (Action Line) :=
    [.publish publication .low, .publish publication .medium, .publish publication .high]
  have created : create settings Line.wire = .ok client := rfl
  have pristine : client.Pristine 2 := pristine_of_create created
  have run : Reaches client actions (client.after actions) := reaches_after (by decide +kernel)
  have refused : ((client.after actions).publish publication .high).1 =
      .error .tooManyPending := rfl
  have headroom := headroom_reserved pristine run
  exact ⟨actions, pristine, run, headroom.refused publication refused, refused, headroom⟩

end Client

end Courier
