import Courier.Proofs.Client.Callers

/-! What a client has on record of its messages, against its history: where a
message stands tells what happened to it, and what has happened to it tells where
it stands. -/
namespace Courier

variable {σ : Type}

/-- What happened before a publisher of `p`, whose message is `m`, is told this. -/
def History.Explains (history : History σ) (p : Publication) (m : Message) :
    Except ClientFault Unit → Prop
  | .ok () => ∃ id reason, reason.isDelivered = true ∧
      history.Follows (·.Taken p m id) (·.Acknowledges m id reason)
  | .error (.rejected reason) => reason.isDelivered = false ∧ ∃ id,
      history.Follows (·.Taken p m id) (·.Acknowledges m id reason)
  | .error .connectionLost =>
      m.qos = .atMostOnce ∧ history.Follows (·.Submitted p m) (·.Loses m)
  | .error .sendFailed => m.publication = p ∧
      history.Follows (·.Submitted p m) fun s => ∃ fault, s.Offers m (.error fault)
  | .error .timeout => ∀ s ∈ history, ∀ outcome, ¬s.Ends m outcome
  | .error _ => False

namespace History

variable {history : History σ} {p : Publication} {m : Message} {s : Step σ} {outcome : Outcome}

/-- What explained an outcome explains it from then on. -/
theorem Explains.snoc (explains : history.Explains p m outcome.result) (s : Step σ) :
    Explains (history ++ [s]) p m outcome.result := by
  cases outcome with
  | delivered =>
    obtain ⟨id, reason, delivered, follows⟩ := explains
    exact ⟨id, reason, delivered, follows.snoc s⟩
  | rejected reason =>
    obtain ⟨undelivered, id, follows⟩ := explains
    exact ⟨undelivered, id, follows.snoc s⟩
  | sendFailed => exact ⟨explains.1, explains.2.snoc s⟩
  | connectionLost => exact ⟨explains.1, explains.2.snoc s⟩

/-- The event that ends a message explains the outcome. -/
theorem explains_of_ends (submitted : history.Submitted p m)
    (waits : s.before.outbox.Stands m .waiting → m.publication = p)
    (flies : ∀ id, s.before.outbox.Stands m (.flying id) → history.Taken p m id)
    (ends : s.Ends m outcome) : Explains (history ++ [s]) p m outcome.result := by
  cases ends with
  | @acknowledged id reason heard =>
    have follows : Follows (history ++ [s]) (·.Taken p m id) (·.Acknowledges m id reason) :=
      .last (flies id heard.2) heard
    cases delivered : reason.isDelivered with
    | true =>
      rw [Outcome.ofReason, if_pos delivered]
      exact ⟨id, reason, delivered, follows⟩
    | false =>
      rw [Outcome.ofReason, if_neg (Bool.eq_false_iff.mp delivered)]
      exact ⟨delivered, id, follows⟩
  | @refused fault offered => exact ⟨waits offered.2.waits, .last submitted ⟨fault, offered⟩⟩
  | lost loses => exact ⟨loses.2.1, .last submitted loses⟩

/-- What is kept after a step was submitted, if what was kept before it was. -/
theorem submitted_of_kept (sound : s.before.Sound)
    (submitted : ∀ m ∈ s.before.outbox.places, ∃ p, history.Submitted p m)
    (kept : m ∈ s.after.outbox.places) : ∃ p, Submitted (history ++ [s]) p m := by
  rcases Step.places_arrive sound kept with before | ⟨p, accepts⟩
  · obtain ⟨p, earlier⟩ := submitted m before
    exact ⟨p, earlier.snoc s⟩
  · exact ⟨p, submitted_snoc_iff.mpr (.inr accepts)⟩

end History

structure Recorded (history : History σ) (c : Client σ) : Prop where
  sound : c.Sound
  quiet : c.Quiet
  submitted : ∀ p m, history.Submitted p m → m.seq < c.nextSeq
  ended : ∀ s ∈ history, ∀ m outcome, s.Ends m outcome → m.seq < c.nextSeq
  kept : ∀ m ∈ c.awaited, ∀ s ∈ history, ∀ outcome, s.Ends m outcome →
    c.outbox.Stands m (.ended outcome)
  waits : ∀ p m, history.Submitted p m → c.outbox.Stands m .waiting → m.publication = p
  flies : ∀ p m id, history.Submitted p m → c.outbox.Stands m (.flying id) → history.Taken p m id
  explained : ∀ p m outcome, history.Submitted p m → c.outbox.Stands m (.ended outcome) →
    history.Explains p m outcome.result

namespace Recorded

variable {history : History σ} {s : Step σ} {p : Publication} {m : Message} {outcome : Outcome}
  {st : Standing}

/-- A message that stood somewhere was submitted earlier. -/
theorem earlier (recorded : Recorded history s.before)
    (submitted : History.Submitted (history ++ [s]) p m) (stood : s.before.outbox.Stands m st) :
    history.Submitted p m := by
  rcases History.submitted_snoc_iff.mp submitted with submitted | accepts
  · exact submitted
  · exact absurd stood (accepts.new recorded.sound st)

/-- Of a message that is taken in now nothing is on record yet. -/
theorem accepts_unique (recorded : Recorded history s.before) {q : Publication}
    (submitted : History.Submitted (history ++ [s]) p m) (accepts : s.Accepts q m) : p = q := by
  rcases History.submitted_snoc_iff.mp submitted with submitted | ⟨_, _, _, turn, _⟩
  · have := recorded.submitted p m submitted
    have := (accepts.numbered recorded.sound).1
    omega
  · obtain ⟨_, _, _, same, _⟩ := accepts
    cases turn.symm.trans same
    rfl

theorem kept_after (recorded : Recorded history s.before) (waits : m ∈ s.after.awaited)
    {t : Step σ} (member : t ∈ history ++ [s]) (ends : t.Ends m outcome) :
    s.after.outbox.Stands m (.ended outcome) := by
  have sync := (Step.sound_after recorded.sound).synchronous m waits
  rcases List.mem_append.mp member with past | now
  · have drawn := recorded.ended t past m outcome ends
    have waited : m ∈ s.before.awaited := by
      rcases Step.awaited_arrives recorded.sound waits with waited | ⟨p, accepts⟩
      · exact waited
      · have := (accepts.numbered recorded.sound).1
        omega
    have stood := recorded.kept m waited t past outcome ends
    rcases Step.stays recorded.sound stood with stands | displaces
    · exact stands
    · cases displaces with
      | ended again => exact absurd stood (again.unended recorded.sound)
      | told answers => exact absurd waits (answers.unawaited recorded.sound)
      | cleared clears =>
        obtain ⟨turn, _⟩ := clears
        obtain ⟨_, _, _, closing, _⟩ := Step.cleared recorded.sound turn
        have none := recorded.quiet.unawaited (by rw [closing]; simp)
        rw [none] at waited
        exact absurd waited (Multiset.notMem_zero m)
  · rw [List.mem_singleton.mp now] at ends
    exact (ends.stands_iff recorded.sound).mpr ⟨sync, rfl⟩

/-- When a publisher is told a result, what has ended its message is on record. -/
theorem ends_of_answers (recorded : Recorded history s.before) {result : Except ClientFault Unit}
    (answers : s.Answers m result) {t : Step σ} (member : t ∈ history ++ [s])
    (ends : t.Ends m outcome) : s.before.outbox.Stands m (.ended outcome) := by
  rcases List.mem_append.mp member with past | now
  · rcases answers.waited recorded.sound with waited | ⟨p, accepts⟩
    · exact recorded.kept m waited t past outcome ends
    · have := recorded.ended t past m outcome ends
      have := (accepts.numbered recorded.sound).1
      omega
  · rw [List.mem_singleton.mp now] at ends
    exact absurd ends answers.not_ends

theorem waits_after (recorded : Recorded history s.before)
    (submitted : History.Submitted (history ++ [s]) p m)
    (stands : s.after.outbox.Stands m .waiting) : m.publication = p := by
  rcases Step.arrives recorded.sound stands with stood | placed
  · exact recorded.waits p m (recorded.earlier submitted stood) stood
  · cases placed with
    | waits accepts idle same =>
      rw [recorded.accepts_unique submitted accepts]
      exact same

theorem flies_after (recorded : Recorded history s.before) {id : PacketId}
    (submitted : History.Submitted (history ++ [s]) p m)
    (stands : s.after.outbox.Stands m (.flying id)) : History.Taken (history ++ [s]) p m id := by
  rcases Step.arrives recorded.sound stands with stood | placed
  · exact (recorded.flies p m id (recorded.earlier submitted stood) stood).snoc s
  · cases placed with
    | flies takes =>
      refine ⟨s, List.mem_append_right _ (List.mem_singleton_self s), ?_⟩
      rcases takes with ⟨accepts, made⟩ | ⟨offered, same⟩
      · rw [recorded.accepts_unique submitted accepts]
        exact .inl ⟨accepts, made⟩
      · have waited := offered.2.waits
        exact .inr ⟨offered, recorded.waits p m (recorded.earlier submitted waited) waited⟩

theorem explained_after (recorded : Recorded history s.before)
    (submitted : History.Submitted (history ++ [s]) p m)
    (stands : s.after.outbox.Stands m (.ended outcome)) :
    History.Explains (history ++ [s]) p m outcome.result := by
  rcases Step.arrives recorded.sound stands with stood | placed
  · exact (recorded.explained p m outcome (recorded.earlier submitted stood) stood).snoc s
  · cases placed with
    | ends ends =>
      have before : history.Submitted p m := by
        rcases ends.stood with waits | ⟨id, flies⟩
        · exact recorded.earlier submitted waits
        · exact recorded.earlier submitted flies
      exact History.explains_of_ends before (recorded.waits p m before)
        (fun id => recorded.flies p m id before) ends

/-- One more step is put on record. -/
theorem after (recorded : Recorded history s.before) : Recorded (history ++ [s]) s.after where
  sound := Step.sound_after recorded.sound
  quiet := Step.quiet_after recorded.quiet
  submitted p m submitted := by
    rcases History.submitted_snoc_iff.mp submitted with submitted | accepts
    · exact Nat.lt_of_lt_of_le (recorded.submitted p m submitted) (Step.number_mono recorded.sound)
    · have := accepts.numbered recorded.sound
      omega
  ended t member m outcome ends := by
    refine Nat.lt_of_lt_of_le ?_ (Step.number_mono recorded.sound)
    rcases List.mem_append.mp member with past | now
    · exact recorded.ended t past m outcome ends
    · rw [List.mem_singleton.mp now] at ends
      exact ends.drawn recorded.sound
  kept _ waits _ member _ ends := recorded.kept_after waits member ends
  waits _ _ submitted stands := recorded.waits_after submitted stands
  flies _ _ _ submitted stands := recorded.flies_after submitted stands
  explained _ _ _ submitted stands := recorded.explained_after submitted stands

end Recorded

namespace Client

variable {c d : Client σ} {options : Options} {wire : Wire σ} {actions : List (Action σ)}

theorem recorded_of_create (created : create options wire = .ok c) : Recorded [] c := by
  have nothing : ∀ m st, ¬c.outbox.Stands m st := by
    intro m st stands
    have kept := stands.kept
    rw [places_of_create created] at kept
    exact Multiset.notMem_zero m kept
  have unsubmitted : ∀ p m, ¬History.Submitted ([] : History σ) p m := by
    rintro p m ⟨s, member, _⟩
    exact List.not_mem_nil member
  exact {
    sound := sound_of_create created
    quiet := quiet_of_create created
    submitted := fun p m submitted => absurd submitted (unsubmitted p m)
    ended := fun s member => absurd member List.not_mem_nil
    kept := fun m waits s member => absurd member List.not_mem_nil
    waits := fun p m submitted => absurd submitted (unsubmitted p m)
    flies := fun p m id submitted => absurd submitted (unsubmitted p m)
    explained := fun p m outcome submitted => absurd submitted (unsubmitted p m) }

theorem Reaches.recorded (created : create options wire = .ok c) (run : Reaches c actions d) :
    Recorded (c.trace actions) d :=
  run.induct (recorded_of_create created) fun _ _ => Recorded.after

/-- What a client keeps was submitted to it. -/
theorem Reaches.submitted {m : Message} (created : create options wire = .ok c)
    (run : Reaches c actions d) (kept : m ∈ d.outbox.places) :
    ∃ p, (c.trace actions).Submitted p m := by
  refine run.induct_run (P := fun history d => ∀ m ∈ d.outbox.places, ∃ p, history.Submitted p m)
    ?_ ?_ m kept
  · intro m kept
    rw [places_of_create created] at kept
    exact absurd kept (Multiset.notMem_zero m)
  · intro earlier s past submitted m kept
    exact History.submitted_of_kept (past.sound created) submitted kept

/-- An induction over runs in which every number given out is new. -/
theorem Reaches.induct_recorded {P : History σ → Client σ → Prop}
    (created : create options wire = .ok c) (run : Reaches c actions d) (start : P [] c)
    (extend : ∀ (history : History σ) (s : Step σ), Recorded history s.before → s.Fresh →
      P history s.before → P (history ++ [s]) s.after)
    (fresh : ∀ s ∈ c.trace actions, s.Fresh) : P (c.trace actions) d := by
  have both := run.induct
    (P := fun history d => Recorded history d ∧ ((∀ s ∈ history, s.Fresh) → P history d))
    ⟨recorded_of_create created, fun _ => start⟩ ?_
  · exact both.2 fresh
  · rintro history s ⟨recorded, held⟩
    refine ⟨recorded.after, ?_⟩
    intro fresh
    have before := held fun t past => fresh t (List.mem_append_left _ past)
    exact extend history s recorded
      (fresh s (List.mem_append_right _ (List.mem_singleton_self s))) before

end Client

end Courier
