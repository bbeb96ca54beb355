import Courier.Proofs.Client.Callers

/-! Who hands publications over. Every publication that reaches the outbox has passed all
checks and draws a sequence number of its own; a synchronous publish hands its publication
over once at most, and where its publisher is tells what it has done. -/
namespace Courier

variable {σ : Type}

namespace Step

variable {s : Step σ} {p q : Publication} {m : Message} {priority : Priority}
  {sync late : Bool} {call : Nat}

/-- A publication that passes every check is handed over. -/
def Submits (s : Step σ) (p : Publication) : Prop :=
  ∃ priority sync late, s.turn = .submits p priority sync late

inductive Comes (s : Step σ) (p : Publication) : Priority → Bool → Bool → Prop where
  | published {priority : Priority} (doing : s.action = .publish p priority)
      (admitted : s.before.admits p priority = true) : Comes s p priority false false
  | entered {call : Nat} {late : Bool} (doing : s.action = .enter call p late)
      (admitted : s.before.admits p .low = true) : Comes s p .low true late
  | resumed {call : Nat} {late : Bool} (doing : s.action = .resume call late)
      (waited : s.before.publishers.get? call = some (.awaitingRoom p))
      (room : s.before.outbox.hasRoom .low = true) : Comes s p .low true late

theorem comes_of_turn (turn : s.turn = .submits p priority sync late) :
    s.Comes p priority sync late := by
  unfold Step.turn at turn
  cases doing : s.action with
  | publish other rank =>
    rw [doing] at turn
    dsimp only [Client.turn] at turn
    split at turn
    · rename_i admitted
      cases turn
      exact .published doing admitted
    · contradiction
  | enter call other late =>
    rw [doing] at turn
    dsimp only [Client.turn] at turn
    split at turn
    · rename_i admitted
      cases turn
      exact .entered doing admitted
    · contradiction
  | resume call late =>
    rw [doing] at turn
    dsimp only [Client.turn] at turn
    split at turn
    · rename_i waited
      split at turn
      · rename_i room
        cases turn
        exact .resumed doing waited room
      · contradiction
    · contradiction
    · contradiction
  | hear e =>
    rw [doing] at turn
    unfold Client.turn at turn
    split at turn <;> contradiction
  | advance | shutDown =>
    rw [doing] at turn
    dsimp only [Client.turn] at turn
    split at turn <;> contradiction
  | _ =>
    rw [doing] at turn
    contradiction

theorem submits_of_publish (doing : s.action = .publish p priority)
    (admitted : s.before.admits p priority = true) : s.Submits p := by
  refine ⟨priority, false, false, ?_⟩
  rw [turn, doing]
  exact if_pos admitted

theorem Accepts.submits (accepts : s.Accepts p m) : s.Submits p := by
  obtain ⟨priority, sync, late, turn, _⟩ := accepts
  exact ⟨priority, sync, late, turn⟩

theorem Submits.number (submits : s.Submits p) : s.after.nextSeq = s.before.nextSeq + 1 := by
  obtain ⟨priority, sync, late, turn⟩ := submits
  have turned := s.turned
  rw [turn] at turned
  cases turned with
  | refused _ number | handed _ _ number | entered _ _ number => exact number

/-- A publication that is handed over is sent at once, or not now. -/
theorem Submits.attempts (submits : s.Submits p) :
    s.attempts = [] ∨ ∃ result, s.attempts = [(p, result)] := by
  obtain ⟨priority, sync, late, turn⟩ := submits
  have made : ∀ {result o}, s.before.outbox.Accepts s.before.wire s.before.nextSeq p priority sync
      result o s.after.wire → s.attempts = [] ∨ ∃ result, s.attempts = [(p, result)] := by
    intro result o accepts
    generalize after : s.after.wire = v at accepts
    have attempted : ∀ attempts : List Attempt,
        v.calls = s.before.wire.calls ++ attempts.map Attempt.call → s.attempts = attempts := by
      intro attempts calls
      rw [← after] at calls
      exact Wire.Idles.attempts (.refl _) calls
    cases accepts with
    | full | parked => exact .inl (attempted [] (List.append_nil _).symm)
    | sent => exact .inr ⟨_, attempted [(p, _)] rfl⟩
    | refused => exact .inr ⟨_, attempted [(p, _)] rfl⟩
  have turned := s.turned
  rw [turn] at turned
  cases turned with
  | refused taken | handed taken | entered taken => exact made (Outbox.accepts_of_eq taken)

/-- Whoever acts comes now, or was waiting. -/
theorem waits_of_caller (caller : s.action.call? = some call) :
    s.before.publishers.get? call = none ∨ ∃ publisher late, s.action = .resume call late ∧
      s.before.publishers.get? call = some publisher ∧ publisher.isBlocked = true := by
  have attends := s.attends
  generalize s.action = action at attends caller
  cases attends with
  | other _ none =>
    rw [none] at caller
    contradiction
  | shuts => contradiction
  | enters _ unknown =>
    cases caller
    exact .inl unknown
  | @resumes _ publisher late found blocked =>
    cases caller
    exact .inr ⟨publisher, late, rfl, found, blocked⟩

/-- Nobody enters under a number that is known already. -/
theorem unknown_of_enter (doing : s.action = .enter call p late) :
    s.before.publishers.get? call = none := by
  have caller : s.action.call? = some call := by rw [doing]; rfl
  rcases waits_of_caller caller with unknown | ⟨_, _, resumes, _⟩
  · exact unknown
  · rw [doing] at resumes
    contradiction

end Step

/-- A synchronous publish has had its publication taken in as this message, and has not
returned yet. -/
def History.Pends (history : History σ) (call : Nat) (m : Message) : Prop :=
  (∃ s ∈ history, s.action.call? = some call ∧ ∃ p, s.Accepts p m) ∧
    ∀ s ∈ history, s.action.call? = some call → s.reply = none

def History.Tracks (history : History σ) (call : Nat) : Option Publisher → Prop
  | none => ∀ s ∈ history, s.action.call? ≠ some call
  | some (.awaitingRoom p) => Topic.checkPublish p.topic = .ok () ∧ history.Entered call p ∧
      ∀ s ∈ history, s.action.call? = some call → s.reply = none ∧ ∀ q, ¬s.Submits q
  | some (.awaitingOutcome m) => history.Pends call m
  | some (.finished _) => True

/-- Every publisher is where its past has led it, and none hands over twice. -/
structure Followed (history : History σ) (c : Client σ) : Prop where
  tracks : ∀ call, history.Tracks call (c.publishers.get? call)
  once : ∀ s ∈ history, ∀ t ∈ history, ∀ call p q, s.action.call? = some call →
    t.action.call? = some call → s.Submits p → t.Submits q → s = t

namespace Followed

variable {history : History σ} {s : Step σ} {call : Nat} {publisher : Option Publisher}
  {p q : Publication} {late : Bool}

theorem snoc (tracks : history.Tracks call publisher) (other : s.action.call? ≠ some call) :
    History.Tracks (history ++ [s]) call publisher := by
  have unconcerned : ∀ {P : Step σ → Prop},
      (∀ t ∈ history, t.action.call? = some call → P t) →
        ∀ t ∈ history ++ [s], t.action.call? = some call → P t := by
    intro P past
    rw [List.forall_mem_append, List.forall_mem_singleton]
    exact ⟨past, fun caller => absurd caller other⟩
  match publisher, tracks with
  | none, absent =>
    intro t member caller
    exact unconcerned (P := fun _ => False) (fun t past same => absent t past same) t member caller
  | some (.awaitingRoom p), ⟨checked, entered, quiet⟩ =>
    exact ⟨checked, entered.snoc s, unconcerned quiet⟩
  | some (.awaitingOutcome m), ⟨⟨t, past, caller, accepted⟩, quiet⟩ =>
    exact ⟨⟨t, List.mem_append_left _ past, caller, accepted⟩, unconcerned quiet⟩
  | some (.finished _), _ => trivial

/-- A publisher that enters, enters with a past of its own. -/
theorem entered (absent : ∀ t ∈ history, t.action.call? ≠ some call)
    (doing : s.action = .enter call p late)
    (answer : s.reply = (s.before.enterPublisher p late).1.reply) :
    History.Tracks (history ++ [s]) call (some (s.before.enterPublisher p late).1) := by
  have now : s ∈ history ++ [s] := List.mem_append_right _ (List.mem_singleton_self s)
  have caller : s.action.call? = some call := by rw [doing]; rfl
  have only : ∀ {P : Step σ → Prop}, P s →
      ∀ t ∈ history ++ [s], t.action.call? = some call → P t := by
    intro P here
    rw [List.forall_mem_append, List.forall_mem_singleton]
    exact ⟨fun t past same => absurd same (absent t past), fun _ => here⟩
  cases next : (s.before.enterPublisher p late).1 with
  | awaitingRoom q =>
    obtain ⟨rfl, checked, full, _⟩ := Client.enterPublisher_awaitingRoom next
    rw [next] at answer
    refine ⟨checked, ⟨s, now, late, doing⟩, only ⟨answer, ?_⟩⟩
    -- It waits for room, so it cannot have handed over in this step.
    rintro p ⟨priority, sync, late', turn⟩
    have comes := Step.comes_of_turn turn
    cases comes with
    | published other => exact absurd (doing.symm.trans other) (by simp)
    | entered same admitted =>
      cases doing.symm.trans same
      exact full (Client.admits_iff.mp admitted).2.2
    | resumed other => exact absurd (doing.symm.trans other) (by simp)
  | awaitingOutcome m =>
    rw [next] at answer
    exact ⟨⟨s, now, caller, p, Step.accepts_of_enter doing next⟩, only answer⟩
  | finished result => trivial

/-- A publisher that goes on, goes on from its past. -/
theorem resumed {publisher : Publisher} (tracks : history.Tracks call (some publisher))
    (doing : s.action = .resume call late)
    (found : s.before.publishers.get? call = some publisher)
    (answer : s.reply = (s.before.resumePublisher publisher late).1.reply) :
    History.Tracks (history ++ [s]) call (some (s.before.resumePublisher publisher late).1) := by
  have now : s ∈ history ++ [s] := List.mem_append_right _ (List.mem_singleton_self s)
  have caller : s.action.call? = some call := by rw [doing]; rfl
  have quiet : ∀ {P : Step σ → Prop}, (∀ t ∈ history, t.action.call? = some call → P t) → P s →
      ∀ t ∈ history ++ [s], t.action.call? = some call → P t := by
    intro P past here
    rw [List.forall_mem_append, List.forall_mem_singleton]
    exact ⟨past, fun _ => here⟩
  cases publisher with
  | finished result => trivial
  | awaitingRoom p =>
    obtain ⟨checked, entered, past⟩ := tracks
    cases next : (s.before.resumePublisher (.awaitingRoom p) late).1 with
    | awaitingRoom q =>
      obtain ⟨rfl, full, _⟩ := Client.seekRoom_awaitingRoom next
      rw [next] at answer
      refine ⟨checked, entered.snoc s, quiet past ⟨answer, ?_⟩⟩
      rintro p ⟨priority, sync, late', turn⟩
      have comes := Step.comes_of_turn turn
      cases comes with
      | published other | entered other => exact absurd (doing.symm.trans other) (by simp)
      | resumed _ _ room => exact full room
    | awaitingOutcome m =>
      rw [next] at answer
      exact ⟨⟨s, now, caller, p, Step.accepts_of_resume doing found next⟩,
        quiet (fun t member same => (past t member same).1) answer⟩
    | finished result => trivial
  | awaitingOutcome n =>
    obtain ⟨⟨t, member, same, accepted⟩, past⟩ := tracks
    rw [Client.resumePublisher, Client.seekOutcome_eq] at answer ⊢
    cases told : (s.before.outbox.seek n late).1 with
    | none =>
      rw [told] at answer
      exact ⟨⟨t, List.mem_append_left _ member, same, accepted⟩, quiet past answer⟩
    | some result => trivial

/-- Who hands over now has not handed over before. -/
theorem first {t : Step σ} (followed : Followed history s.before) (member : t ∈ history)
    (same : t.action.call? = some call) (caller : s.action.call? = some call)
    (earlier : t.Submits q) : ¬s.Submits p := by
  rintro ⟨priority, sync, late, turn⟩
  have tracks := followed.tracks call
  have comes := Step.comes_of_turn turn
  cases comes with
  | published doing =>
    rw [doing] at caller
    contradiction
  | entered doing =>
    rw [doing] at caller
    cases caller
    rw [Step.unknown_of_enter doing] at tracks
    exact tracks t member same
  | resumed doing waited =>
    rw [doing] at caller
    cases caller
    rw [waited] at tracks
    exact (tracks.2.2 t member same).2 q earlier

theorem after (followed : Followed history s.before) : Followed (history ++ [s]) s.after := by
  refine ⟨?_, ?_⟩
  · intro call
    have tracks := followed.tracks call
    have attends := s.attends
    generalize doing : s.action = action at attends
    cases attends with
    | other undisturbed caller =>
      rw [undisturbed.1]
      exact snoc tracks (by rw [doing, caller]; simp)
    | shuts publishers =>
      rw [publishers]
      exact snoc tracks (by rw [doing]; simp [Action.call?])
    | @enters other p late _ unknown publishers _ answer =>
      rw [publishers, Table.get?_insert]
      split
      · rename_i same
        subst same
        rw [unknown] at tracks
        exact entered tracks doing answer
      · rename_i apart
        exact snoc tracks (by rw [doing]; simpa [Action.call?] using apart)
    | @resumes other publisher late found _ publishers _ answer =>
      rw [publishers, Table.get?_insert]
      split
      · rename_i same
        subst same
        rw [found] at tracks
        exact resumed tracks doing found answer
      · rename_i apart
        exact snoc tracks (by rw [doing]; simpa [Action.call?] using apart)
  · intro t first u second call p q caller same submits again
    rcases List.mem_append.mp first with past | now <;>
      rcases List.mem_append.mp second with before | here
    · exact followed.once t past u before call p q caller same submits again
    · cases List.mem_singleton.mp here
      exact absurd again (followed.first past caller same submits)
    · cases List.mem_singleton.mp now
      exact absurd submits (followed.first before same caller again)
    · rw [List.mem_singleton.mp now, List.mem_singleton.mp here]

end Followed

/-- Each publication that was handed over drew a number of its own, in turn. -/
structure History.Numbered (history : History σ) (next : Nat) : Prop where
  ascending : history.Pairwise fun s t =>
    ∀ p q, s.Submits p → t.Submits q → s.before.nextSeq < t.before.nextSeq
  drawn : ∀ s ∈ history, ∀ p, s.Submits p → s.before.nextSeq < next

namespace History.Numbered

variable {history : History σ} {s t : Step σ} {next : Nat} {p q : Publication}

theorem after (numbered : history.Numbered s.before.nextSeq) (sound : s.before.Sound) :
    Numbered (history ++ [s]) s.after.nextSeq := by
  refine ⟨List.pairwise_append.mpr ⟨numbered.ascending, List.pairwise_singleton _ s, ?_⟩, ?_⟩
  · intro t member u here p q submits _
    rw [List.mem_singleton.mp here]
    exact numbered.drawn t member p submits
  · rw [List.forall_mem_append, List.forall_mem_singleton]
    refine ⟨?_, ?_⟩
    · intro t member p submits
      exact Nat.lt_of_lt_of_le (numbered.drawn t member p submits) (Step.number_mono sound)
    · intro p submits
      have := submits.number
      omega

/-- A number tells when it was drawn. -/
theorem place_unique (numbered : history.Numbered next) {i j : Nat}
    (first : history[i]? = some s) (second : history[j]? = some t) (submits : s.Submits p)
    (again : t.Submits q) (same : s.before.nextSeq = t.before.nextSeq) : i = j := by
  obtain ⟨within, rfl⟩ := List.getElem?_eq_some_iff.mp first
  obtain ⟨inside, rfl⟩ := List.getElem?_eq_some_iff.mp second
  have ascending := List.pairwise_iff_getElem.mp numbered.ascending
  rcases Nat.lt_trichotomy i j with before | rfl | behind
  · have := ascending i j within inside before p q submits again
    omega
  · rfl
  · have := ascending j i inside within behind q p again submits
    omega

theorem step_unique (numbered : history.Numbered next) (first : s ∈ history)
    (second : t ∈ history) (submits : s.Submits p) (again : t.Submits q)
    (same : s.before.nextSeq = t.before.nextSeq) : s = t := by
  obtain ⟨i, here⟩ := List.getElem?_of_mem first
  obtain ⟨j, there⟩ := List.getElem?_of_mem second
  have place := numbered.place_unique here there submits again same
  subst place
  exact Option.some.inj (here.symm.trans there)

end History.Numbered

namespace Client

variable {c d : Client σ} {options : Options} {wire : Wire σ} {actions : List (Action σ)}

theorem followed_of_create (created : create options wire = .ok c) :
    Followed ([] : History σ) c := by
  obtain ⟨_, _, _, _, _, publishers, _⟩ := of_create created
  refine ⟨?_, fun s member => absurd member List.not_mem_nil⟩
  intro call
  rw [publishers]
  exact fun s member => absurd member List.not_mem_nil

theorem Reaches.followed (created : create options wire = .ok c) (run : Reaches c actions d) :
    Followed (c.trace actions) d :=
  run.induct (followed_of_create created) fun _ _ => Followed.after

theorem Reaches.numbered (created : create options wire = .ok c) (run : Reaches c actions d) :
    (c.trace actions).Numbered d.nextSeq :=
  run.induct_run (P := fun history d => history.Numbered d.nextSeq)
    ⟨.nil, List.forall_mem_nil _⟩ fun _ _ past numbered => numbered.after (past.sound created)

end Client

end Courier
