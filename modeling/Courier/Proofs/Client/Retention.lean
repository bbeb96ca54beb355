import Courier.Proofs.Client.Record

/-! Retention. A message that outlives sessions waits, or stays in flight under
the one number it was ever sent with, through any number of lost connections and
failed rounds; only four kinds of events dismiss it. -/
namespace Courier

variable {σ : Type}

/-- The client need not care for the message any longer: it was acknowledged, the
transport refused it, its publisher gave it up, or a shutdown removed it. -/
inductive Step.Dismisses (s : Step σ) (m : Message) : Prop where
  | acknowledged {id : PacketId} {reason : Reason} (heard : s.Acknowledges m id reason)
  | refused {fault : TransportFault} (offered : s.Offers m (.error fault))
  | givenUp (gives : s.GivesUp m)
  | cleared (clears : s.Clears m)

/-- The message waits and was never sent, or it is in flight under the only number
it was sent with. -/
def History.Keeps (history : History σ) (c : Client σ) (p : Publication) (m : Message) : Prop :=
  m ∈ c.outbox.queue ∧ (∀ q id, ¬history.Taken q m id) ∨
    ∃ id, c.outbox.inFlight.get? id = some m ∧ history.Taken p m id ∧
      ∀ q other, history.Taken q m other → other = id

namespace Step

variable {s : Step σ} {m : Message} {p q : Publication} {id : PacketId}

theorem Takes.drawn (takes : s.Takes p m id) (sound : s.before.Sound) :
    m.seq < s.after.nextSeq := by
  rcases takes with ⟨accepts, _⟩ | ⟨offered, _⟩
  · have := accepts.numbered sound
    omega
  · exact Nat.lt_of_lt_of_le (sound.outbox.drawn_of_stands offered.2.waits) (number_mono sound)

theorem Dismisses.drawn (dismisses : s.Dismisses m) (sound : s.before.Sound) :
    m.seq < s.after.nextSeq := by
  have grows := number_mono sound
  cases dismisses with
  | acknowledged heard => exact Nat.lt_of_lt_of_le (Ends.acknowledged heard |>.drawn sound) grows
  | refused offered => exact Nat.lt_of_lt_of_le (Ends.refused offered |>.drawn sound) grows
  | givenUp gives =>
    rcases gives.waited sound with waited | ⟨p, accepts⟩
    · have := sound.outbox.carry.drawn m (Multiset.mem_add.mpr (.inr waited))
      omega
    · have := accepts.numbered sound
      omega
  | cleared clears =>
    have := sound.outbox.carry.drawn m (Multiset.mem_add.mpr (.inl clears.2))
    omega

/-- A dismissed message neither waits nor is in flight. -/
theorem Dismisses.gone (dismisses : s.Dismisses m) (sound : s.before.Sound) :
    ¬s.after.outbox.Stands m .waiting ∧ ∀ id, ¬s.after.outbox.Stands m (.flying id) := by
  have of_ends : ∀ {outcome}, s.Ends m outcome →
      ¬s.after.outbox.Stands m .waiting ∧ ∀ id, ¬s.after.outbox.Stands m (.flying id) := by
    intro outcome ends
    refine ⟨?_, ?_⟩
    · intro stands
      have := ((ends.stands_iff sound).mp stands).2
      contradiction
    · intro id stands
      have := ((ends.stands_iff sound).mp stands).2
      contradiction
  cases dismisses with
  | acknowledged heard => exact of_ends (.acknowledged heard)
  | refused offered => exact of_ends (.refused offered)
  | givenUp gives => exact ⟨gives.gone sound _, fun id => gives.gone sound _⟩
  | cleared clears =>
    have none := (Step.cleared sound clears.1).2.2.2.2
    exact ⟨none m _, fun id => none m _⟩

/-- What ends a message that outlives sessions dismisses it. -/
theorem Ends.dismisses {outcome : Outcome} (ends : s.Ends m outcome)
    (lasting : m.qos ≠ .atMostOnce) : s.Dismisses m := by
  cases ends with
  | acknowledged heard => exact .acknowledged heard
  | refused offered => exact .refused offered
  | lost loses => exact absurd loses.2.1 lasting

/-- A publisher that is told something of a message under way gives it up. -/
theorem Answers.dismisses {result : Except ClientFault Unit} {st : Standing}
    (answers : s.Answers m result) (sound : s.before.Sound) (stands : s.before.outbox.Stands m st)
    (underway : ∀ outcome, st ≠ .ended outcome) : s.Dismisses m := by
  rcases answers.cases sound with ⟨outcome, _, ended⟩ | ⟨rfl, _⟩
  · exact absurd (sound.outbox.stands_unique stands ended) (underway outcome)
  · exact .givenUp answers

/-- A message from before is sent only from the queue. -/
theorem Takes.offered (takes : s.Takes p m id) (sound : s.before.Sound)
    (old : m.seq < s.before.nextSeq) : s.Offers m (.ok id) := by
  rcases takes with ⟨accepts, _⟩ | ⟨offered, _⟩
  · have := (accepts.numbered sound).1
    omega
  · exact offered

/-- A message from before that is not under way does not come to be under way again. -/
theorem gone_after (sound : s.before.Sound) (old : m.seq < s.before.nextSeq)
    (grounded : ¬s.before.outbox.Stands m .waiting ∧
      ∀ id, ¬s.before.outbox.Stands m (.flying id)) :
    ¬s.after.outbox.Stands m .waiting ∧ ∀ id, ¬s.after.outbox.Stands m (.flying id) := by
  rw [← not_exists, ← not_or] at grounded ⊢
  intro underway
  rcases underway_arrives sound underway with before | ⟨p, accepts⟩
  · exact grounded before
  · have := (accepts.numbered sound).1
    omega

end Step

structure Tends (history : History σ) (c : Client σ) : Prop where
  taken : ∀ p m id, history.Taken p m id → m.seq < c.nextSeq
  dismissed : ∀ s ∈ history, ∀ m, s.Dismisses m → m.seq < c.nextSeq
  gone : ∀ s ∈ history, ∀ m, s.Dismisses m →
    ¬c.outbox.Stands m .waiting ∧ ∀ id, ¬c.outbox.Stands m (.flying id)
  keeps : ∀ p m, history.Submitted p m → m.qos ≠ .atMostOnce →
    history.Keeps c p m ∨ ∃ s ∈ history, s.Dismisses m

namespace Tends

variable {history : History σ} {s : Step σ} {p : Publication} {m : Message} {id : PacketId}

theorem taken_snoc_iff :
    History.Taken (history ++ [s]) p m id ↔ history.Taken p m id ∨ s.Takes p m id := by
  simp only [History.Taken, List.mem_append, List.mem_singleton, or_and_right, exists_or,
    exists_eq_left]

/-- A message that waited waits on, or was sent for the first time. -/
theorem keeps_waiting (recorded : Recorded history s.before) (fresh : s.Fresh)
    (submitted : history.Submitted p m) (lasting : m.qos ≠ .atMostOnce) (held : ¬s.Dismisses m)
    (waited : s.before.outbox.Stands m .waiting)
    (unsent : ∀ q id, ¬history.Taken q m id) : History.Keeps (history ++ [s]) s.after p m := by
  have sound := recorded.sound
  have old := recorded.submitted p m submitted
  rcases Step.stays sound waited with waits | displaces
  · refine .inl ⟨waits, ?_⟩
    intro q id taken
    rcases taken_snoc_iff.mp taken with taken | takes
    · exact unsent q id taken
    · have := (takes.offered sound old).flying sound waits
      contradiction
  · cases displaces with
    | @taken id offered =>
      have takes : s.Takes p m id := .inr ⟨offered, recorded.waits p m submitted waited⟩
      refine .inr ⟨id, offered.flies sound fresh, taken_snoc_iff.mpr (.inr takes), ?_⟩
      intro q other taken
      rcases taken_snoc_iff.mp taken with taken | again
      · exact absurd taken (unsent q other)
      · have same := sound.outbox.offers_unique (again.offered sound old).2 offered.2
        exact Except.ok.inj same
    | ended ends => exact absurd (ends.dismisses lasting) held
    | told answers => exact absurd (answers.dismisses sound waited nofun) held
    | cleared clears => exact absurd (.cleared clears) held

/-- A message in flight stays in flight under its number. -/
theorem keeps_flying (recorded : Recorded history s.before) (fresh : s.Fresh)
    (submitted : history.Submitted p m) (lasting : m.qos ≠ .atMostOnce) (held : ¬s.Dismisses m)
    (flew : s.before.outbox.Stands m (.flying id)) (sent : history.Taken p m id)
    (only : ∀ q other, history.Taken q m other → other = id) :
    History.Keeps (history ++ [s]) s.after p m := by
  have sound := recorded.sound
  have old := recorded.submitted p m submitted
  have stands : s.after.outbox.Stands m (.flying id) := by
    rcases Step.stays sound flew with stands | displaces
    · exact stands
    · cases displaces with
      | ended ends => exact absurd (ends.dismisses lasting) held
      | told answers => exact absurd (answers.dismisses sound flew nofun) held
      | cleared clears => exact absurd (.cleared clears) held
      | overwritten used given => exact (fresh.unused used given).elim
  refine .inr ⟨id, stands, sent.snoc s, ?_⟩
  intro q other taken
  rcases taken_snoc_iff.mp taken with taken | takes
  · exact only q other taken
  · have := sound.outbox.stands_unique (takes.offered sound old).2.waits flew
    contradiction

/-- A message that was just taken in was sent at most now. -/
theorem keeps_new (recorded : Recorded history s.before) (tends : Tends history s.before)
    (accepts : s.Accepts p m) (held : ¬s.GivesUp m) :
    History.Keeps (history ++ [s]) s.after p m := by
  have sound := recorded.sound
  have new := accepts.new sound
  have unsent : ∀ q id, ¬history.Taken q m id := by
    intro q id taken
    have := tends.taken q m id taken
    have := (accepts.numbered sound).1
    omega
  have direct : ∀ q id, History.Taken (history ++ [s]) q m id → s.attempts = [(q, .ok id)] := by
    intro q id taken
    rcases taken_snoc_iff.mp taken with taken | ⟨_, made⟩ | ⟨offered, _⟩
    · exact absurd taken (unsent q id)
    · exact made
    · exact absurd offered.2.waits (new _)
  obtain ⟨_, _, _, _, takenIn⟩ := accepts.taken sound
  obtain ⟨place, spot, all⟩ := takenIn.placed
  have stands := (all m place).mpr (.inl ⟨rfl, rfl, held⟩)
  rcases spot with ⟨rfl, idle, _⟩ | ⟨id, rfl, made⟩
  · refine .inl ⟨stands, ?_⟩
    intro q id taken
    have := idle.symm.trans (direct q id taken)
    contradiction
  · refine .inr ⟨id, stands, taken_snoc_iff.mpr (.inr (.inl ⟨accepts, made⟩)), ?_⟩
    intro q other taken
    cases made.symm.trans (direct q other taken)
    rfl

theorem after (recorded : Recorded history s.before) (tends : Tends history s.before)
    (fresh : s.Fresh) : Tends (history ++ [s]) s.after := by
  have sound := recorded.sound
  have grows := Step.number_mono sound
  refine ⟨?_, ?_, ?_, ?_⟩
  · intro p m id taken
    rcases taken_snoc_iff.mp taken with taken | takes
    · exact Nat.lt_of_lt_of_le (tends.taken p m id taken) grows
    · exact takes.drawn sound
  · intro t member m dismisses
    rcases List.mem_append.mp member with past | now
    · exact Nat.lt_of_lt_of_le (tends.dismissed t past m dismisses) grows
    · rw [List.mem_singleton.mp now] at dismisses
      exact dismisses.drawn sound
  · intro t member m dismisses
    rcases List.mem_append.mp member with past | now
    · exact Step.gone_after sound (tends.dismissed t past m dismisses)
        (tends.gone t past m dismisses)
    · rw [List.mem_singleton.mp now] at dismisses
      exact dismisses.gone sound
  · intro p m submitted lasting
    by_cases dismissed : ∃ t ∈ history ++ [s], t.Dismisses m
    · exact .inr dismissed
    · have held : ¬s.Dismisses m := fun now =>
        dismissed ⟨s, List.mem_append_right _ (List.mem_singleton_self s), now⟩
      refine .inl ?_
      rcases History.submitted_snoc_iff.mp submitted with submitted | accepts
      · rcases tends.keeps p m submitted lasting with kept | ⟨t, past, dismisses⟩
        · rcases kept with ⟨waited, unsent⟩ | ⟨id, flew, sent, only⟩
          · exact keeps_waiting recorded fresh submitted lasting held waited unsent
          · exact keeps_flying recorded fresh submitted lasting held flew sent only
        · exact absurd ⟨t, List.mem_append_left _ past, dismisses⟩ dismissed
      · exact tends.keeps_new recorded accepts fun gives => held (.givenUp gives)

end Tends

namespace Client

variable {c d : Client σ} {options : Options} {wire : Wire σ} {actions : List (Action σ)}
  {p : Publication} {m : Message}

theorem Reaches.tends (created : create options wire = .ok c) (run : Reaches c actions d)
    (fresh : ∀ s ∈ c.trace actions, s.Fresh) : Tends (c.trace actions) d := by
  refine run.induct_recorded created (P := Tends) ⟨?_, ?_, ?_, ?_⟩ ?_ fresh
  · rintro p m id ⟨s, member, _⟩
    exact absurd member List.not_mem_nil
  · exact fun s member => absurd member List.not_mem_nil
  · exact fun s member => absurd member List.not_mem_nil
  · rintro p m ⟨s, member, _⟩
    exact absurd member List.not_mem_nil
  · exact fun history s recorded fresh tends => tends.after recorded fresh

/-- Through any run in which every number the transport gives out is new: a message
that outlives sessions is kept exactly as long as nothing has dismissed it. -/
theorem message_kept_iff (created : create options wire = .ok c) (run : Reaches c actions d)
    (fresh : ∀ s ∈ c.trace actions, s.Fresh) (submitted : (c.trace actions).Submitted p m)
    (lasting : m.qos ≠ .atMostOnce) :
    (c.trace actions).Keeps d p m ↔ ∀ s ∈ c.trace actions, ¬s.Dismisses m := by
  have tends := run.tends created fresh
  constructor
  · intro kept s member dismisses
    obtain ⟨unqueued, grounded⟩ := tends.gone s member m dismisses
    rcases kept with ⟨waits, _⟩ | ⟨id, flies, _⟩
    · exact unqueued waits
    · exact grounded id flies
  · intro held
    rcases tends.keeps p m submitted lasting with kept | ⟨s, member, dismisses⟩
    · exact kept
    · exact absurd dismisses (held s member)

open Rehearsal in
/-- A message in flight outlives a lost connection. -/
theorem message_kept_iff_disconnected :
    ∃ actions m, create settings Line.wire = .ok client ∧
      Reaches client actions (client.after actions) ∧ (∀ s ∈ client.trace actions, s.Fresh) ∧
      (client.trace actions).Submitted publication m ∧ m.qos ≠ .atMostOnce ∧
      ((client.trace actions).Keeps (client.after actions) publication m ↔
        ∀ s ∈ client.trace actions, ¬s.Dismisses m) := by
  let actions := connects ++ [.enter 0 publication false, .hear (.disconnected .connectionLost)]
  let m := Message.bare 0 0 publication .low true
  have created : create settings Line.wire = .ok client := rfl
  have run : Reaches client actions (client.after actions) := reaches_after (by decide +kernel)
  have fresh : ∀ s ∈ client.trace actions, s.Fresh := by decide +kernel
  have submitted : (client.trace actions).Submitted publication m := by
    refine ⟨(client.trace actions).get ⟨10, by decide +kernel⟩, List.get_mem _ _, ?_⟩
    exact ⟨.low, true, false, by decide +kernel, by decide +kernel⟩
  have lasting : m.qos ≠ .atMostOnce := by decide
  exact ⟨actions, m, created, run, fresh, submitted, lasting,
    message_kept_iff created run fresh submitted lasting⟩

end Client

end Courier
