import Courier.Proofs.Outbox.Standing

/-! Placing a message: into the queue, in flight under a number, or among those
that have ended. A message that is handed over must be in no place yet. -/
namespace Courier.Outbox

variable {o : Outbox} {held : Multiset Message} {m x : Message} {next : Nat} {st : Standing}

theorem coe_insertBehind {α : Type} (p : α → Bool) (a : α) (l : List α) :
    (insertBehind p a l : Multiset α) = a ::ₘ l := by
  induction l with
  | nil => rfl
  | cons b l ih =>
    unfold insertBehind
    split
    · rw [← Multiset.cons_coe, ih, Multiset.cons_swap, Multiset.cons_coe]
    · rfl

theorem mem_insertBehind {α : Type} {p : α → Bool} {a b : α} {l : List α} :
    b ∈ insertBehind p a l ↔ b = a ∨ b ∈ l := by
  rw [← Multiset.mem_coe, coe_insertBehind, Multiset.mem_cons, Multiset.mem_coe]

namespace Sound

theorem enqueue (sound : o.Sound (m ::ₘ held) next) (absent : m ∉ o.places)
    (blank : o.progress m = {}) :
    (o.enqueue m).Sound held next ∧
      ∀ x st, (o.enqueue m).Stands x st ↔ x = m ∧ st = .waiting ∨ o.Stands x st := by
  have traded : (o.enqueue m).places = m ::ₘ o.places := by
    simp only [Outbox.enqueue, places, coe_insertBehind, Multiset.cons_add]
  refine ⟨?_, ?_⟩
  · refine sound.rearrange rfl ?_ ?_ ?_ (fun _ _ flies => .inl flies) fun _ _ found => .inl found
    · rw [traded, Multiset.cons_add, Multiset.add_cons]
    · rw [traded]
      exact Multiset.nodup_cons.mpr ⟨absent, sound.once⟩
    · intro n waits
      rcases mem_insertBehind.mp waits with rfl | waits
      · exact .inr blank
      · exact .inl waits
  · intro x st
    cases st with
    | waiting => simp only [Stands, Outbox.enqueue, mem_insertBehind, and_true]
    | flying id => simp only [Stands, Outbox.enqueue, reduceCtorEq, and_false, false_or]
    | ended outcome =>
      simp only [Stands, Outbox.enqueue, progress, reduceCtorEq, and_false, false_or]

/-- What was in flight under a number leaves when a message comes under it. -/
theorem places_insert (o : Outbox) (m : Message) (id : PacketId) (slots : Slots Progress) :
    ({ o with slots, inFlight := o.inFlight.insert id m } : Outbox).places +
        (o.inFlight.get? id).toList = m ::ₘ o.places := by
  have flight := o.inFlight.contents_insert id m
  let older : Multiset Message := (o.inFlight.get? id).toList
  calc ({ o with slots, inFlight := o.inFlight.insert id m } : Outbox).places + older
      = (o.queue : Multiset Message) + ((o.inFlight.insert id m).contents + older) +
          o.finished.contents := by
        rw [← Multiset.add_assoc, Multiset.add_assoc _ older, Multiset.add_comm older,
          ← Multiset.add_assoc]
        rfl
    _ = m ::ₘ o.places := by rw [flight, Multiset.add_cons, Multiset.cons_add, places]

/-- A message that gets a number in flight takes the place of the one, if any,
that was in flight under that number. -/
theorem launch (sound : o.Sound (m ::ₘ held) next) (absent : m ∉ o.places)
    (blank : o.progress m = {}) (id : PacketId) :
    (o.launch m id).Sound (m ::ₘ held) next ∧
      ∀ x st, (o.launch m id).Stands x st ↔
        x = m ∧ st = .flying id ∨ o.Stands x st ∧ st ≠ .flying id := by
  have member : m ∈ m ::ₘ held := Multiset.mem_cons_self m held
  have mine : m ∈ o.places + (m ::ₘ held) := Multiset.mem_add.mpr (.inr member)
  have shared := (sound.number member absent id).share mine
  have numbered : ∀ n ∈ o.places + (m ::ₘ held), ((o.number m id).share m).progress n =
      if m = n then (o.progress n).number id else o.progress n := by
    intro n kept
    rw [progress_share, progress_number sound.carry.heldBy mine kept]
  have others : ∀ n ∈ o.places, ((o.number m id).share m).progress n = o.progress n := by
    intro n kept
    have apart : m ≠ n := fun same => absent (same ▸ kept)
    rw [numbered n (Multiset.mem_add.mpr (.inl kept)), if_neg apart]
  let older := (o.inFlight.get? id).toList
  let placed : Outbox := { (o.number m id).share m with inFlight := o.inFlight.insert id m }
  have traded : placed.places + older = m ::ₘ o.places := places_insert o m id _
  have flown : placed.Sound (older + (m ::ₘ held)) next := by
    refine shared.rearrange rfl ?_ ?_ (fun _ waits => .inl waits) ?_ fun _ _ found => .inl found
    · rw [← Multiset.add_assoc, traded, Multiset.cons_add, ← Multiset.add_cons]
      rfl
    · refine Multiset.nodup_of_le (Multiset.le_add_right _ (older : Multiset Message)) ?_
      rw [traded]
      exact Multiset.nodup_cons.mpr ⟨absent, sound.once⟩
    · intro j n flies
      rw [Table.get?_insert] at flies
      split at flies
      · rename_i same
        cases flies
        rw [numbered m mine, if_pos rfl, blank, ← same]
        exact .inr rfl
      · exact .inl flies
  refine ⟨flown.releaseEach, ?_⟩
  intro x st
  have released : (placed.releaseEach older).Stands x st ↔ placed.Stands x st :=
    stands_congr (releaseEach_queue _) (releaseEach_inFlight _) (releaseEach_finished _)
      fun n kept => flown.progress_releaseEach kept
  refine released.trans ?_
  cases st with
  | waiting =>
    simp only [reduceCtorEq, and_false, false_or, ne_eq, not_false_eq_true, and_true]
    rfl
  | flying j =>
    simp only [Stands, placed, Table.get?_insert, Standing.flying.injEq, ne_eq]
    by_cases same : id = j
    · subst same
      simp only [ite_true, Option.some.injEq, not_true_eq_false, and_false, or_false, and_true,
        eq_comm]
    · simp only [if_neg same, Ne.symm same, and_false, false_or, not_false_eq_true, and_true]
  | ended outcome =>
    simp only [reduceCtorEq, and_false, false_or, ne_eq, not_false_eq_true, and_true]
    apply and_congr_right
    intro found
    have same : placed.progress x = o.progress x := others x (mem_places_of_finished found)
    rw [same]

/-- Nothing has ended yet under the number of a message that is in no place. -/
theorem unfinished (sound : o.Sound (m ::ₘ held) next) (absent : m ∉ o.places) :
    o.finished.get? m.seq = none := by
  cases found : o.finished.get? m.seq with
  | none => rfl
  | some n =>
    have kept := mem_places_of_finished found
    have mine : m ∈ o.places + (m ::ₘ held) :=
      Multiset.mem_add.mpr (.inr (Multiset.mem_cons_self m held))
    have same := sound.carry.apart m mine n (Multiset.mem_add.mpr (.inl kept))
      (.inr (sound.ended _ n found).1)
    exact absurd (same ▸ kept) absent

theorem finish_of_sync (sound : o.Sound (m ::ₘ held) next) (absent : m ∉ o.places)
    (sync : m.sync = true) (outcome : Outcome) :
    o.finish m outcome =
      { o.conclude m outcome with finished := o.finished.insert m.seq m } := by
  simp only [Outbox.finish, if_pos sync, sound.unfinished absent]
  rfl

theorem progress_finish (sound : o.Sound (m ::ₘ held) next) (absent : m ∉ o.places)
    (sync : m.sync = true) (outcome : Outcome) {n : Message} (kept : n ∈ o.places + (m ::ₘ held)) :
    (o.finish m outcome).progress n =
      if m = n then (o.progress n).conclude outcome else o.progress n := by
  have mine : m ∈ o.places + (m ::ₘ held) :=
    Multiset.mem_add.mpr (.inr (Multiset.mem_cons_self m held))
  rw [sound.finish_of_sync absent sync]
  exact progress_conclude sound.carry.heldBy mine kept outcome

/-- The first outcome that is noted of a message stays. -/
theorem outcome_finish (sound : o.Sound (m ::ₘ held) next) (absent : m ∉ o.places)
    (unsettled : (o.progress m).outcome = none) (sync : m.sync = true) (outcome : Outcome) :
    ((o.finish m outcome).progress m).outcome = some outcome := by
  have mine : m ∈ o.places + (m ::ₘ held) :=
    Multiset.mem_add.mpr (.inr (Multiset.mem_cons_self m held))
  rw [sound.progress_finish absent sync outcome mine, if_pos rfl]
  simp only [Progress.conclude, unsettled, Option.none_or]

theorem sound_finish (sound : o.Sound (m ::ₘ held) next) (absent : m ∉ o.places)
    (unsettled : (o.progress m).outcome = none) (sync : m.sync = true) (outcome : Outcome) :
    (o.finish m outcome).Sound held next := by
  have placed := sound.finish_of_sync absent sync outcome
  have marked := sound.outcome_finish absent unsettled sync outcome
  have concluded := sound.conclude (Multiset.mem_cons_self m held) absent outcome
  rw [placed] at marked ⊢
  have traded : ({ o.conclude m outcome with
      finished := o.finished.insert m.seq m } : Outbox).places = m ::ₘ o.places := by
    simp only [places, Outbox.conclude,
      Table.contents_insert_of_none (sound.unfinished absent), Multiset.add_cons]
  refine concluded.rearrange rfl ?_ ?_ ?_ ?_ ?_
  · rw [traded, Multiset.cons_add, ← Multiset.add_cons]
    rfl
  · rw [traded]
    exact Multiset.nodup_cons.mpr ⟨absent, sound.once⟩
  · exact fun n waits => .inl waits
  · exact fun id n flies => .inl flies
  · intro seq n found
    rw [Table.get?_insert] at found
    split at found
    · rename_i same
      cases found
      exact .inr ⟨same.symm, sync, outcome, marked⟩
    · exact .inl found

theorem stands_finish (sound : o.Sound (m ::ₘ held) next) (absent : m ∉ o.places)
    (unsettled : (o.progress m).outcome = none) (sync : m.sync = true) (outcome : Outcome) :
    (o.finish m outcome).Stands x st ↔ x = m ∧ st = .ended outcome ∨ o.Stands x st := by
  have unkeyed := sound.unfinished absent
  have placed := sound.finish_of_sync absent sync outcome
  have marked := sound.outcome_finish absent unsettled sync outcome
  cases st with
  | waiting | flying id =>
    rw [placed]
    simp only [reduceCtorEq, and_false, false_or]
    rfl
  | ended out =>
    have finished : (o.finish m outcome).finished = o.finished.insert m.seq m := by rw [placed]
    simp only [Stands, finished, Table.get?_insert, Standing.ended.injEq]
    by_cases same : x = m
    · subst same
      simp only [ite_true, marked, unkeyed, Option.some.injEq, true_and, reduceCtorEq,
        false_and, or_false, eq_comm]
    · have still (found : o.finished.get? x.seq = some x) :
          (o.finish m outcome).progress x = o.progress x := by
        have kept : x ∈ o.places + (m ::ₘ held) :=
          Multiset.mem_add.mpr (.inl (mem_places_of_finished found))
        rw [sound.progress_finish absent sync outcome kept, if_neg (Ne.symm same)]
      constructor
      · rintro ⟨found, out⟩
        split at found
        · cases found
          exact absurd rfl same
        · exact .inr ⟨found, still found ▸ out⟩
      · rintro (⟨eq, _⟩ | ⟨found, out⟩)
        · exact absurd eq same
        · have seqs : m.seq ≠ x.seq := by
            intro eq
            rw [← eq, unkeyed] at found
            contradiction
          rw [if_neg seqs, still found]
          exact ⟨found, out⟩

/-- Who waits for a message finds it with its outcome once it has ended; a
message nobody waits for is let go. -/
theorem finish (sound : o.Sound (m ::ₘ held) next) (absent : m ∉ o.places)
    (unsettled : (o.progress m).outcome = none) (outcome : Outcome) :
    (o.finish m outcome).Sound held next ∧
      (∀ x st, (o.finish m outcome).Stands x st ↔
        x = m ∧ m.sync = true ∧ st = .ended outcome ∨ o.Stands x st) ∧
      ∀ n ∈ o.places + held, n ≠ m → (o.finish m outcome).progress n = o.progress n := by
  by_cases sync : m.sync = true
  · simp only [sync, true_and]
    refine ⟨sound.sound_finish absent unsettled sync outcome,
      fun x st => sound.stands_finish absent unsettled sync outcome, fun n kept apart => ?_⟩
    have within : n ∈ o.places + (m ::ₘ held) := by
      rw [Multiset.add_cons]
      exact Multiset.mem_cons_of_mem kept
    rw [sound.progress_finish absent sync outcome within, if_neg (Ne.symm apart)]
  · have letGo : o.finish m outcome = o.release m := if_neg sync
    have carry := sound.carry
    rw [Multiset.add_cons] at carry
    rw [letGo]
    refine ⟨sound.release, ?_, fun n kept _ => progress_release carry.heldBy kept⟩
    intro x st
    rw [sound.stands_release]
    simp only [sync, Bool.false_eq_true, false_and, and_false, false_or]

end Sound

end Courier.Outbox
