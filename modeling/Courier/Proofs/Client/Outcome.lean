import Courier.Proofs.Client.Record

/-! What a synchronous publish is told. Every result has its reason in the
history of the client, and the first event that ends a message fixes the result
for good: later acknowledgements and lost connections do not change it. -/
namespace Courier

variable {σ : Type}

/-- What a publisher can be told that has no message. -/
def ClientFault.isRefusal : ClientFault → Bool
  | tooManyPending | notConnected | transport _ | timeout | invalidTopic _ => true
  | _ => false

namespace Client

variable {c d : Client σ} {options : Options} {wire : Wire σ} {actions : List (Action σ)}
  {s : Step σ} {call : Nat} {m : Message} {result : Except ClientFault Unit}

/-- A publisher that is told a result without ever having had a message is turned
away for a reason of this kind. -/
def Refuses (publisher : Publisher) : Prop :=
  ∀ result, publisher.reply = some result → ∃ fault, result = .error fault ∧ fault.isRefusal = true

theorem refuses_of_fault {fault : ClientFault} (refusal : fault.isRefusal = true) :
    Refuses (.finished (.error fault)) := by
  intro result replied
  cases replied
  exact ⟨fault, rfl, refusal⟩

theorem refuses_seekRoom {p : Publication} {late : Bool} (full : ¬c.outbox.hasRoom .low = true) :
    Refuses (c.seekRoom p late).1 := by
  have barred : ¬c.shared.outbox.hasRoom .low = true := full
  unfold seekRoom
  rw [if_neg barred]
  split
  · exact refuses_of_fault rfl
  · split
    · exact refuses_of_fault rfl
    · intro result replied
      contradiction

theorem refuses_enterPublisher {p : Publication} {late : Bool}
    (barred : ¬c.admits p .low = true) : Refuses (c.enterPublisher p late).1 := by
  rw [admits_iff] at barred
  unfold enterPublisher
  split
  · exact refuses_of_fault rfl
  · rename_i checked
    split
    · exact refuses_of_fault rfl
    · rename_i sendable
      exact refuses_seekRoom fun room => barred ⟨checked, by simpa using sendable, room⟩

theorem refusal_of_accepts {o q : Outbox} {v w : Wire σ} {next : Nat} {p : Publication}
    {priority : Priority} {sync : Bool} {fault : ClientFault}
    (accepts : o.Accepts w next p priority sync (.error fault) q v) : fault.isRefusal = true := by
  cases accepts <;> rfl

/-- A publication that was handed over became a message, or was refused. -/
theorem answers_of_submits {p : Publication} {priority : Priority} {late : Bool}
    (turn : s.turn = .submits p priority true late) (replied : s.reply = some result) :
    (∃ m, s.Answers m result) ∨ ∃ fault, result = .error fault ∧ fault.isRefusal = true := by
  cases told : s.accepted p priority true with
  | ok m => exact .inl ⟨m, (Step.answers_iff turn told).mpr ⟨replied, rfl⟩⟩
  | error fault =>
    have turned := s.turned
    rw [turn] at turned
    cases turned with
    | @refused _ _ _ _ fault taken _ _ answer =>
      rw [answer] at replied
      cases replied
      exact .inr ⟨fault, rfl, refusal_of_accepts (Outbox.accepts_of_eq taken)⟩
    | entered taken =>
      rw [Step.accepted, taken] at told
      contradiction

/-- A publisher is told what became of its message, or that it never had one. -/
theorem answers_or_refused (caller : s.action.call? = some call) (replied : s.reply = some result) :
    (∃ m, s.Answers m result) ∨ ∃ fault, result = .error fault ∧ fault.isRefusal = true := by
  have stepped := s.stepped
  cases doing : s.action with
  | enter other p late =>
    rw [doing] at stepped
    obtain ⟨_, taken⟩ := of_guard stepped
    have told := (congrArg Prod.fst (Option.some.inj taken)).trans replied
    have turn : s.turn = if s.before.admits p .low then .submits p .low true late else .other := by
      rw [Step.turn, doing]
      rfl
    by_cases admitted : s.before.admits p .low = true
    · exact answers_of_submits (turn.trans (if_pos admitted)) replied
    · exact .inr (refuses_enterPublisher admitted result told)
  | resume other late =>
    rw [doing] at stepped
    obtain ⟨publisher, found, resumed⟩ := Option.bind_eq_some_iff.mp stepped
    obtain ⟨blocked, taken⟩ := of_guard resumed
    have told := (congrArg Prod.fst (Option.some.inj taken)).trans replied
    cases publisher with
    | finished _ => contradiction
    | awaitingOutcome m =>
      have turn : s.turn = .asks m late := by simp only [Step.turn, doing, Client.turn, found]
      exact .inl ⟨m, replied, .inl ⟨late, turn⟩⟩
    | awaitingRoom p =>
      have turn : s.turn =
          if s.before.outbox.hasRoom .low then .submits p .low true late else .other := by
        simp only [Step.turn, doing, Client.turn, found]
      by_cases room : s.before.outbox.hasRoom .low = true
      · exact answers_of_submits (turn.trans (if_pos room)) replied
      · exact .inr (refuses_seekRoom room result told)
  | _ =>
    rw [doing] at caller
    contradiction

/-- Every publisher that waits was entered with a publication, which became the
message it waits for. -/
structure Served (history : History σ) (c : Client σ) : Prop where
  rooms : ∀ call p, c.publishers.get? call = some (.awaitingRoom p) → history.Entered call p
  outcomes : ∀ call m, c.publishers.get? call = some (.awaitingOutcome m) →
    ∃ p, history.Entered call p ∧ history.Submitted p m

namespace Served

variable {history : History σ}

theorem mono {e : Client σ} (served : Served history c) (s : Step σ)
    (same : e.publishers = c.publishers) : Served (history ++ [s]) e := by
  refine ⟨?_, ?_⟩
  · intro call p found
    exact (served.rooms call p (same ▸ found)).snoc s
  · intro call m found
    obtain ⟨p, entered, submitted⟩ := served.outcomes call m (same ▸ found)
    exact ⟨p, entered.snoc s, submitted.snoc s⟩

/-- One publisher goes on; the others are where they were. -/
theorem insert (served : Served history s.before) {publisher : Publisher}
    (publishers : s.after.publishers = s.before.publishers.insert call publisher)
    (room : ∀ p, publisher = .awaitingRoom p → History.Entered (history ++ [s]) call p)
    (outcome : ∀ m, publisher = .awaitingOutcome m →
      ∃ p, History.Entered (history ++ [s]) call p ∧ History.Submitted (history ++ [s]) p m) :
    Served (history ++ [s]) s.after := by
  refine ⟨?_, ?_⟩
  · intro other p found
    rw [publishers, Table.get?_insert] at found
    split at found
    · rename_i same
      cases found
      exact same ▸ room p rfl
    · exact (served.rooms other p found).snoc s
  · intro other m found
    rw [publishers, Table.get?_insert] at found
    split at found
    · rename_i same
      cases found
      exact same ▸ outcome m rfl
    · obtain ⟨p, entered, submitted⟩ := served.outcomes other m found
      exact ⟨p, entered.snoc s, submitted.snoc s⟩

theorem after (served : Served history s.before) : Served (history ++ [s]) s.after := by
  have attends := s.attends
  generalize doing : s.action = action at attends
  have now : s ∈ history ++ [s] := List.mem_append_right _ (List.mem_singleton_self s)
  cases attends with
  | other undisturbed => exact served.mono s undisturbed.1
  | shuts publishers => exact served.mono s publishers
  | @enters call p late alive unknown publishers =>
    have entered : History.Entered (history ++ [s]) call p := ⟨s, now, late, doing⟩
    refine served.insert publishers ?_ ?_
    · intro q waits
      exact (enterPublisher_awaitingRoom waits).1 ▸ entered
    · intro m waits
      exact ⟨p, entered, s, now, Step.accepts_of_enter doing waits⟩
  | @resumes call publisher late found blocked publishers =>
    cases publisher with
    | finished result => contradiction
    | awaitingRoom p =>
      have entered := (served.rooms call p found).snoc s
      refine served.insert publishers ?_ ?_
      · intro q waits
        exact (seekRoom_awaitingRoom waits).1 ▸ entered
      · intro m waits
        exact ⟨p, entered, s, now, Step.accepts_of_resume doing found waits⟩
    | awaitingOutcome n =>
      obtain ⟨p, entered, submitted⟩ := served.outcomes call n found
      have next : (s.before.resumePublisher (.awaitingOutcome n) late).1 =
          (s.before.outbox.seek n late).1.elim (.awaitingOutcome n) .finished := by
        rw [resumePublisher, seekOutcome_eq]
      rw [next] at publishers
      cases found' : (s.before.outbox.seek n late).1 with
      | some result =>
        rw [found'] at publishers
        refine served.insert publishers ?_ ?_
        · intro q waits
          contradiction
        · intro m waits
          contradiction
      | none =>
        rw [found'] at publishers
        refine served.insert publishers ?_ ?_
        · intro q waits
          contradiction
        intro m waits
        cases waits
        exact ⟨p, entered.snoc s, submitted.snoc s⟩

/-- The message of a publisher that is told a result is what became of the
publication it was entered with. -/
theorem of_answers (served : Served history s.before) (caller : s.action.call? = some call)
    (answers : s.Answers m result) :
    ∃ p, History.Entered (history ++ [s]) call p ∧ History.Submitted (history ++ [s]) p m := by
  have now : s ∈ history ++ [s] := List.mem_append_right _ (List.mem_singleton_self s)
  have accepted : ∀ {p priority late}, s.turn = .submits p priority true late →
      s.accepted p priority true = .ok m → History.Submitted (history ++ [s]) p m :=
    fun turn told => ⟨s, now, _, _, _, turn, told⟩
  cases doing : s.action with
  | enter other p late =>
    rw [doing] at caller
    cases caller
    have turn : s.turn = if s.before.admits p .low then .submits p .low true late else .other := by
      rw [Step.turn, doing]
      rfl
    refine ⟨p, ⟨s, now, late, doing⟩, ?_⟩
    obtain ⟨_, ⟨late', asks⟩ | ⟨p', priority, late', submits, told⟩⟩ := answers
    · rw [turn] at asks
      split at asks <;> contradiction
    · have same := submits
      rw [turn] at same
      split at same
      · cases same
        exact accepted submits told
      · contradiction
  | resume other late =>
    rw [doing] at caller
    cases caller
    obtain ⟨_, ⟨late', asks⟩ | ⟨p', priority, late', submits, told⟩⟩ := answers
    · have found := asks
      simp only [Step.turn, doing, turn] at found
      split at found
      · split at found <;> contradiction
      · rename_i waits
        cases found
        obtain ⟨p, entered, submitted⟩ := served.outcomes call m waits
        exact ⟨p, entered.snoc s, submitted.snoc s⟩
      · contradiction
    · have found := submits
      simp only [Step.turn, doing, turn] at found
      split at found
      · rename_i waits
        split at found
        · cases found
          exact ⟨p', (served.rooms call p' waits).snoc s, accepted submits told⟩
        · contradiction
      · contradiction
      · contradiction
  | _ =>
    rw [doing] at caller
    contradiction

end Served

theorem Reaches.served (created : create options wire = .ok c) (run : Reaches c actions d) :
    Served (c.trace actions) d := by
  obtain ⟨_, _, _, _, _, publishers, _⟩ := of_create created
  refine run.induct (P := fun history d => Served history d) ?_ fun _ _ => Served.after
  refine ⟨?_, ?_⟩
  · intro call p found
    rw [publishers] at found
    contradiction
  · intro call m found
    rw [publishers] at found
    contradiction

/-- Whatever the transport does and in whatever order callers, handlers and the
network thread take their turns: a synchronous publish is told what became of its
message, or that it never had one. If its publication became the message `m`, it is
told what has happened to `m`, and nothing that ended `m` says otherwise. -/
theorem publish_result_explained (created : create options wire = .ok c)
    (run : Reaches c actions s.before) (caller : s.action.call? = some call)
    (replied : s.reply = some result) :
    ((∃ m, s.Answers m result) ∨ ∃ fault, result = .error fault ∧ fault.isRefusal = true) ∧
    ∀ m, s.Answers m result → ∃ p, History.Entered (c.trace actions ++ [s]) call p ∧
      History.Submitted (c.trace actions ++ [s]) p m ∧
      History.Explains (c.trace actions ++ [s]) p m result ∧
      ∀ t ∈ c.trace actions ++ [s], ∀ outcome, t.Ends m outcome → result = outcome.result := by
  refine ⟨answers_or_refused caller replied, ?_⟩
  intro m answers
  have recorded := run.recorded created
  obtain ⟨p, entered, submitted⟩ := (run.served created).of_answers caller answers
  refine ⟨p, entered, submitted, ?_⟩
  rcases answers.cases recorded.sound with ⟨outcome, rfl, ended⟩ | ⟨rfl, unended⟩
  · have explained := recorded.explained p m outcome (recorded.earlier submitted ended) ended
    refine ⟨explained.snoc s, ?_⟩
    intro t member other ends
    have stood := recorded.ends_of_answers answers member ends
    cases recorded.sound.outbox.stands_unique ended stood
    rfl
  · have silent : ∀ t ∈ c.trace actions ++ [s], ∀ outcome, ¬t.Ends m outcome :=
      fun t member outcome ends => unended outcome (recorded.ends_of_answers answers member ends)
    exact ⟨silent, fun t member outcome ends => absurd ends (silent t member outcome)⟩

open Rehearsal in
/-- A publish that goes out at once, is acknowledged, and is told so. -/
theorem publish_result_explained_delivered :
    ∃ s : Step Line, ∃ actions m, create settings Line.wire = .ok client ∧
      Reaches client actions s.before ∧ s.action.call? = some 0 ∧ s.Answers m (.ok ()) ∧
      ∃ p, History.Entered (client.trace actions ++ [s]) 0 p ∧
        History.Submitted (client.trace actions ++ [s]) p m ∧
        History.Explains (client.trace actions ++ [s]) p m (.ok ()) ∧
        ∀ t ∈ client.trace actions ++ [s], ∀ outcome, t.Ends m outcome →
          .ok () = outcome.result := by
  let actions := connects ++ [.enter 0 publication false, .hear (.acknowledged 1 .success)]
  let s := Step.take (client.after actions) (.resume 0 false) (by decide +kernel)
  let m := Message.bare 0 0 publication .low true
  have created : create settings Line.wire = .ok client := rfl
  have run : Reaches client actions s.before := reaches_after (by decide +kernel)
  have answers : s.Answers m (.ok ()) := ⟨rfl, .inl ⟨false, by decide +kernel⟩⟩
  exact ⟨s, actions, m, created, run, rfl, answers,
    (publish_result_explained created run rfl answers.1).2 m answers⟩

end Client

end Courier
