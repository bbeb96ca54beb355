import Courier.Proofs.Client.Course
import Courier.Proofs.Client.Ledger
import Courier.Proofs.Pauses

/-! The pauses between the rounds of the network thread. A round has succeeded when a
connection was accepted while it lasted, whatever became of its dials and of the session; the
rounds in a row that have not are counted, and the count alone says how long the next pause
is. -/
namespace Courier

variable {σ : Type}

inductive Phase where
  /-- No round is under way, and this pause is still to be made. -/
  | between (pause : Option Duration)
  /-- A broker is being looked for. -/
  | seeking
  /-- The transport's loop can report an accepted connection. -/
  | looping
  /-- It is known whether a connection was accepted. -/
  | decided (accepted : Bool)
  | stopped

def Network.phase : Network → Phase
  | resting pause | asleep pause | settled pause => .between pause
  | choosing | reconnecting | listing | dialling _ _ | reached _ | unreached _ | opened => .seeking
  | entering | running | ended => .looping
  | lost accepted | settling accepted => .decided accepted
  | stopped => .stopped

namespace Step

variable {s : Step σ}

def EndsRound (s : Step σ) : Prop :=
  s.action = .advance ∧ (∃ accepted, s.before.network = .settling accepted) ∧
    s.before.isRunning = true

end Step

namespace History

def addStep (rounds : List (History σ)) (s : Step σ) : List (History σ) :=
  if s.BeginsRound then [s] :: rounds
  else
    match rounds with
    | [] => []
    | round :: older => (round ++ [s]) :: older

/-- The rounds with all their steps, the latest one first. -/
def rounds (history : History σ) : List (History σ) := history.foldl addStep []

def accepts (round : History σ) : Bool := round.any fun s => s.turn = .begins

/-- How many of these rounds in a row have failed, up to the latest. -/
def missed (rounds : List (History σ)) : Nat := (rounds.takeWhile (!accepts ·)).length

def misses (history : History σ) : Nat := missed history.rounds

variable {history round : History σ} {older : List (History σ)} {s : Step σ}

theorem rounds_snoc (history : History σ) (s : Step σ) :
    rounds (history ++ [s]) = addStep history.rounds s := by
  simp only [rounds, List.foldl_append, List.foldl_cons, List.foldl_nil]

theorem accepts_snoc (round : History σ) (s : Step σ) :
    accepts (round ++ [s]) = (round.accepts || decide (s.turn = .begins)) := by
  simp only [accepts, List.any_append, List.any_cons, List.any_nil, Bool.or_false]

theorem missed_cons (round : History σ) (older : List (History σ)) :
    missed (round :: older) = if round.accepts then 0 else missed older + 1 := by
  cases accepted : round.accepts <;> simp [missed, accepted]

theorem rounds_of_begins (begins : s.BeginsRound) :
    rounds (history ++ [s]) = [s] :: history.rounds := by
  rw [rounds_snoc]
  exact if_pos begins

theorem rounds_of_other (other : ¬s.BeginsRound) (parts : history.rounds = round :: older) :
    rounds (history ++ [s]) = (round ++ [s]) :: older := by
  rw [rounds_snoc, parts]
  exact if_neg other

/-- Without a report of an accepted connection the count stays as it is. -/
theorem misses_of_other (history : History σ) (other : ¬s.BeginsRound)
    (silent : s.turn ≠ .begins) :
    misses (history ++ [s]) = history.misses := by
  cases parts : history.rounds with
  | nil =>
    have still : rounds (history ++ [s]) = [] := by
      rw [rounds_snoc, parts]
      exact if_neg other
    rw [misses, misses, still, parts]
  | cons round older =>
    rw [misses, misses, rounds_of_other other parts, parts, missed_cons, missed_cons,
      accepts_snoc, decide_eq_false silent, Bool.or_false]

end History

namespace Client

variable {c d : Client σ}

theorem begin_accepted (c : Client σ) : (c.hear (.connected (.ok ()))).shared.accepted = true := by
  cases told : c.onConnected <;> simp only [hear, told, Bool.false_eq_true, if_false, if_true]
  · rfl
  · rfl

/-- Apart from the network thread, only the report of an accepted connection marks it. -/
theorem step_accepted {action : Action σ} {reply : Reply}
    (stepped : c.step action = some (reply, d)) (other : action ≠ .advance)
    (silent : c.turn action ≠ .begins) : d.shared.accepted = c.shared.accepted := by
  by_cases caller : action.isCall = true
  · exact congrArg Link.accepted (step_link caller stepped)
  cases action with
  | advance => contradiction
  | wake =>
    cases stepped
    simp only [wake]
    split <;> rfl
  | hear e =>
    obtain ⟨_, rfl, rfl⟩ := hear_of_step stepped
    cases e with
    | connected result =>
      cases result with
      | error reason => rfl
      | ok _ => exact absurd rfl silent
    | message p => cases told : c.onMessage <;> simp [hear, told, notify]
    | disconnected | acknowledged => rfl
  | leaveLoop failed =>
    cases stepped
    simp only [leaveLoop]
    split <;> rfl
  | shutDown =>
    obtain ⟨_, taken⟩ := of_guard stepped
    cases taken
    cases here : c.closing with
    | joining =>
      simp only [shutDown, here]
      split <;> rfl
    | _ => simp only [shutDown, here, hangUp]
  | drift state =>
    cases stepped
    rfl
  | _ => exact absurd rfl caller

end Client

/-- Here the next step can begin a round, settle it, or change what it can come to. -/
def Network.turns : Network → Bool
  | resting _ | unreached _ | opened | ended | settling _ => true
  | _ => false

namespace Client

theorem advance_within (c : Client σ) (within : c.network.turns = false) :
    c.advance.network.phase = c.network.phase ∧ c.advance.retry = c.retry ∧
      c.advance.shared.accepted = c.shared.accepted := by
  cases here : c.network with
  | resting | unreached | opened | ended | settling =>
    rw [here] at within
    contradiction
  | choosing =>
    simp only [advance, here, chooseBroker]
    split <;> exact ⟨rfl, rfl, rfl⟩
  | reconnecting =>
    simp only [advance, here, dialAgain]
    split <;> exact ⟨rfl, rfl, rfl⟩
  | dialling rest last =>
    simp only [advance, here]
    cases rest with
    | nil => exact ⟨rfl, rfl, rfl⟩
    | cons candidate rest =>
      simp only [dial]
      split <;> exact ⟨rfl, rfl, rfl⟩
  | entering =>
    simp only [advance, here]
    split <;> exact ⟨rfl, rfl, rfl⟩
  | _ => simp [advance, here, Network.phase, Shared.endSession]

end Client

/-- In the latest round a connection was accepted or not, and the count is that of the rounds
before. -/
def InRound (first : Retry) (history : History σ) (now : Retry) (accepted : Bool) : Prop :=
  ∃ round older, history.rounds = round :: older ∧
    now = first.counting (History.missed older) ∧ round.accepts = accepted

def Counted (first : Retry) (history : History σ) (now : Retry) (accepted : Bool) :
    Phase → Prop
  | .between pause => now = first.counting history.misses ∧
      ∀ p, pause = some p → history.misses ≠ 0 ∧ p = first.nth history.misses
  | .seeking => InRound first history now false ∧ accepted = false
  | .looping => InRound first history now accepted
  | .decided result => InRound first history now result
  | .stopped => True

/-- How the latest round ends: whether a pause is due and which one, and what is counted. -/
structure Settles (first : Retry) (past round : History σ) (s : Step σ) : Prop where
  latest : past.rounds.head? = some round
  due : ∃ pause, s.after.network = .settled pause ∧
    (pause.isSome = true ↔ round.accepts = false) ∧ ∀ p, pause = some p → p = first.nth past.misses
  count : s.after.retry = first.counting past.misses
  fresh : round.accepts = true ↔ past.misses = 0

section Steps

variable {first now : Retry} {history : History σ} {s : Step σ} {accepted : Bool}

theorem InRound.snoc (latest : InRound first history now accepted)
    (other : ¬s.BeginsRound) :
    InRound first (history ++ [s]) now (accepted || decide (s.turn = .begins)) := by
  obtain ⟨round, older, parts, count, rfl⟩ := latest
  exact ⟨round ++ [s], older, History.rounds_of_other other parts, count,
    History.accepts_snoc round s⟩

theorem InRound.quiet (latest : InRound first history now accepted)
    (other : ¬s.BeginsRound) (silent : s.turn ≠ .begins) :
    InRound first (history ++ [s]) now accepted := by
  have next := latest.snoc other
  rwa [decide_eq_false silent, Bool.or_false] at next

theorem InRound.misses (latest : InRound first history now accepted) :
    history.misses ≠ 0 ↔ accepted = false := by
  obtain ⟨round, older, parts, _, rfl⟩ := latest
  rw [History.misses, parts, History.missed_cons]
  cases round.accepts <;> simp

namespace Step

theorem not_beginsRound_of_phase (same : s.after.network.phase = s.before.network.phase) :
    ¬s.BeginsRound := by
  rintro ⟨⟨pause, before⟩, after⟩
  rw [before, after] at same
  contradiction

theorem running_of_begins (begins : s.turn = .begins) : s.before.network = .running := by
  have doing := Client.turn_begins begins
  have stepped := s.stepped
  rw [doing] at stepped
  exact (Client.hear_of_step stepped).1

theorem silent_of_advance (doing : s.action = .advance) : s.turn ≠ .begins := by
  intro begins
  have hears := Client.turn_begins begins
  rw [doing] at hears
  contradiction

theorem accepted_after (other : s.action ≠ .advance) : s.after.shared.accepted =
    (s.before.shared.accepted || decide (s.turn = .begins)) := by
  by_cases begins : s.turn = .begins
  · have stepped := s.stepped
    rw [Client.turn_begins begins] at stepped
    obtain ⟨_, _, same⟩ := Client.hear_of_step stepped
    rw [same, s.before.begin_accepted, decide_eq_true begins, Bool.or_true]
  · rw [Client.step_accepted s.stepped other begins, decide_eq_false begins, Bool.or_false]

end Step

def Client.Paced (first : Retry) (history : History σ) (d : Client σ) : Prop :=
  Counted first history d.retry d.shared.accepted d.network.phase

namespace Client.Paced

variable (paced : s.before.Paced first history)

include paced

theorem at_stage {n : Network} (here : s.before.network = n) :
    Counted first history s.before.retry s.before.shared.accepted n.phase := by
  rw [← here]
  exact paced

/-- A step within a phase. -/
theorem keep (phase : s.after.network.phase = s.before.network.phase)
    (retry : s.after.retry = s.before.retry)
    (accepted : s.after.shared.accepted =
      (s.before.shared.accepted || decide (s.turn = .begins))) :
    s.after.Paced first (history ++ [s]) := by
  have other := Step.not_beginsRound_of_phase phase
  -- An accepted connection is reported in one phase only, so in the others nothing is added.
  have loops : s.turn = .begins → s.before.network.phase = .looping := by
    intro begins
    rw [Step.running_of_begins begins]
    rfl
  unfold Client.Paced at paced ⊢
  rw [phase, retry, accepted]
  generalize s.before.network.phase = phase at paced loops
  cases phase with
  | between pause =>
    have silent : s.turn ≠ .begins := fun begins => nomatch loops begins
    obtain ⟨count, pending⟩ := paced
    have same := History.misses_of_other history other silent
    refine ⟨?_, ?_⟩
    · rw [same]
      exact count
    · rw [same]
      exact pending
  | seeking =>
    have silent : s.turn ≠ .begins := fun begins => nomatch loops begins
    obtain ⟨latest, unmarked⟩ := paced
    refine ⟨latest.quiet other silent, ?_⟩
    rw [unmarked, decide_eq_false silent]
    rfl
  | looping => exact InRound.snoc paced other
  | decided result =>
    have silent : s.turn ≠ .begins := fun begins => nomatch loops begins
    exact InRound.quiet paced other silent
  | stopped => trivial

/-- Nobody but the network thread moves on to another phase. -/
theorem aside (other : s.action ≠ .advance) : s.after.Paced first (history ++ [s]) := by
  have accepted := Step.accepted_after other
  have moves := s.moves
  generalize s.action = action at moves other
  cases moves with
  | bypasses _ bypasses =>
    apply paced.keep _ (congrArg Course.retry bypasses.course) accepted
    rw [bypasses.network]
  | adds _ after => exact paced.keep (by rw [after]) (by rw [after]) accepted
  | removes after => exact paced.keep (by rw [after]; rfl) (by rw [after]; rfl) accepted
  | advances => contradiction
  | @wakes limit here after =>
    have silent : s.turn ≠ .begins := by
      intro begins
      rw [Step.running_of_begins begins] at here
      contradiction
    have round : ¬s.BeginsRound := by simp [Step.BeginsRound, after]
    have same := History.misses_of_other history round silent
    unfold Client.Paced
    rw [after]
    refine ⟨?_, nofun⟩
    rw [same]
    exact (paced.at_stage here).1
  | @leaves failed here after =>
    apply paced.keep _ _ accepted
    · rw [after, here]
      cases failed <;> rfl
    · rw [after]
  | shuts after =>
    have course := s.before.shutDown_course
    rw [← after] at course
    apply paced.keep _ (congrArg Course.retry course) accepted
    exact congrArg (Network.phase ∘ Course.network) course

/-- A round begins, or the network thread falls asleep. -/
theorem begun (doing : s.action = .advance) {pause : Option Duration}
    (here : s.before.network = .resting pause) : s.after.Paced first (history ++ [s]) := by
  have silent := Step.silent_of_advance doing
  have after := Step.advanced doing
  simp only [Client.advance, here, Client.beginRound] at after
  split at after
  · unfold Client.Paced
    rw [after]
    trivial
  · split at after
    · apply paced.keep
      · rw [after, here]
        rfl
      · rw [after]
      · rw [after, decide_eq_false silent, Bool.or_false]
    · have begins : s.BeginsRound := ⟨⟨pause, here⟩, by rw [after]⟩
      have count := (paced.at_stage here).1
      unfold Client.Paced
      rw [after]
      refine ⟨⟨[s], history.rounds, History.rounds_of_begins begins, count, ?_⟩, rfl⟩
      simp [History.accepts, silent]

/-- No broker was reached. -/
theorem failed (doing : s.action = .advance) {last : TransportFault}
    (here : s.before.network = .unreached last) : s.after.Paced first (history ++ [s]) := by
  have silent := Step.silent_of_advance doing
  have after := Step.advanced doing
  simp only [Client.advance, here] at after
  have other : ¬s.BeginsRound := by simp [Step.BeginsRound, here]
  unfold Client.Paced
  rw [after]
  exact InRound.quiet (paced.at_stage here).1 other silent

/-- A broker was reached, and the transport's loop is to be entered. -/
theorem opened (doing : s.action = .advance) (here : s.before.network = .opened) :
    s.after.Paced first (history ++ [s]) := by
  have silent := Step.silent_of_advance doing
  have after := Step.advanced doing
  simp only [Client.advance, here] at after
  have other : ¬s.BeginsRound := by simp [Step.BeginsRound, here]
  obtain ⟨latest, unmarked⟩ := paced.at_stage here
  unfold Client.Paced
  rw [after]
  split
  · show InRound first (history ++ [s]) s.before.retry s.before.shared.accepted
    rw [unmarked]
    exact latest.quiet other silent
  · trivial

/-- The transport's loop is over: the mark says what the round has come to. -/
theorem ended (doing : s.action = .advance) (here : s.before.network = .ended) :
    s.after.Paced first (history ++ [s]) := by
  have silent := Step.silent_of_advance doing
  have after := Step.advanced doing
  simp only [Client.advance, here] at after
  have other : ¬s.BeginsRound := by simp [Step.BeginsRound, here]
  unfold Client.Paced
  rw [after]
  split <;> exact InRound.quiet (paced.at_stage here) other silent

/-- The count starts again, or one more is counted. -/
theorem settles (ends : s.EndsRound) : ∃ round, Settles first history round s := by
  obtain ⟨doing, ⟨result, here⟩, running⟩ := ends
  have after := Step.advanced doing
  have stays : ¬(!s.before.isRunning) = true := by simp [running]
  simp only [Client.advance, here, Client.settleRound, if_neg stays] at after
  obtain ⟨round, older, parts, count, rfl⟩ := paced.at_stage here
  have latest : history.rounds.head? = some round := by rw [parts, List.head?_cons]
  have misses : history.misses = if round.accepts then 0 else History.missed older + 1 := by
    rw [History.misses, parts, History.missed_cons]
  refine ⟨round, ?_⟩
  cases accepted : round.accepts with
  | true =>
    simp only [accepted, if_true] at after misses
    refine ⟨latest, ⟨none, ?_, ?_, by simp⟩, ?_, ?_⟩
    · rw [after]
    · simp [accepted]
    · rw [after, misses, count, Retry.succeed_counting]
    · simp [accepted, misses]
  | false =>
    simp only [accepted, Bool.false_eq_true, if_false] at after misses
    rw [count, Retry.fail_counting, Retry.pause_counting, ← misses] at after
    refine ⟨latest, ⟨some (first.nth history.misses), ?_, ?_, ?_⟩, ?_, ?_⟩
    · rw [after]
    · simp [accepted]
    · intro p due
      exact (Option.some.inj due).symm
    · rw [after]
    · simp [accepted, misses]

theorem settled (doing : s.action = .advance) {result : Bool}
    (here : s.before.network = .settling result) : s.after.Paced first (history ++ [s]) := by
  have silent := Step.silent_of_advance doing
  have other : ¬s.BeginsRound := by simp [Step.BeginsRound, here]
  have same := History.misses_of_other history other silent
  cases running : s.before.isRunning with
  | false =>
    have after := Step.advanced doing
    simp only [Client.advance, here, Client.settleRound, running, Bool.not_false, if_true] at after
    unfold Client.Paced
    rw [after]
    trivial
  | true =>
    obtain ⟨round, latest, ⟨pause, network, failed, due⟩, count, fresh⟩ :=
      paced.settles ⟨doing, ⟨result, here⟩, running⟩
    unfold Client.Paced
    rw [network, count]
    show _ ∧ _
    rw [same]
    refine ⟨rfl, ?_⟩
    intro p is
    refine ⟨?_, due p is⟩
    rw [is] at failed
    rw [ne_eq, ← fresh, failed.mp rfl]
    exact Bool.false_ne_true

/-- Whatever happens to the client. -/
theorem after : s.after.Paced first (history ++ [s]) := by
  by_cases doing : s.action = .advance
  · have silent := Step.silent_of_advance doing
    have within : s.before.network.turns = false → s.after.Paced first (history ++ [s]) := by
      intro within
      obtain ⟨phase, retry, accepted⟩ := s.before.advance_within within
      rw [← Step.advanced doing] at phase retry accepted
      apply paced.keep phase retry
      rw [accepted, decide_eq_false silent, Bool.or_false]
    -- Five stages lead from one phase to another; at the others the phase goes on.
    cases here : s.before.network with
    | resting pause => exact paced.begun doing here
    | unreached last => exact paced.failed doing here
    | opened => exact paced.opened doing here
    | ended => exact paced.ended doing here
    | settling result => exact paced.settled doing here
    | _ =>
      rw [here] at within
      exact within rfl
  · exact paced.aside doing

end Client.Paced

end Steps

namespace Client

variable {c d : Client σ} {options : Options} {wire : Wire σ} {actions : List (Action σ)}

theorem Reaches.paced (created : create options wire = .ok c) (run : Reaches c actions d) :
    d.Paced c.retry (c.trace actions) := by
  refine run.induct (P := fun history d => d.Paced c.retry history) ?_ fun _ _ => Paced.after
  obtain ⟨slots, _, rfl⟩ := eq_of_create created
  exact ⟨rfl, nofun⟩

structure Rhythm (c : Client σ) (history : History σ) (d : Client σ) : Prop where
  ends : ∀ past s later, history = past ++ s :: later → s.EndsRound →
    ∃ round, Settles c.retry past round s
  pending : ∀ p, d.network.phase = .between (some p) →
    history.misses ≠ 0 ∧ p = c.retry.nth history.misses
  next : history.misses = 0 → (∃ pause, d.network = .resting pause) → d.isRunning = true →
    d.shared.brokers.isEmpty = false → d.advance.network = .choosing

/-- Whatever happens in each round: a pause is due after it exactly if no accepted connection
was reported in this very round, and its length is that of the rounds in a row that have
failed; after a round that has not failed the next one begins at once. -/
theorem rounds_paced (created : create options wire = .ok c) (run : Reaches c actions d) :
    Rhythm c (c.trace actions) d := by
  have paced := run.paced created
  have pending : ∀ p, d.network.phase = .between (some p) →
      (c.trace actions).misses ≠ 0 ∧ p = c.retry.nth (c.trace actions).misses := by
    intro p here
    unfold Paced at paced
    rw [here] at paced
    exact paced.2 p rfl
  constructor
  · intro past s later parts ends
    obtain ⟨earlier, led, rfl⟩ := run.split parts
    exact (led.paced created).settles ends
  · exact pending
  · rintro fresh ⟨pause, here⟩ running candidates
    cases pause with
    | some p =>
      have due := (pending p (by rw [here]; rfl)).1
      contradiction
    | none => simp [advance, beginRound, here, running, candidates]

open Rehearsal in
/-- No broker is reached in the first round; in the second one the connection is refused. -/
theorem rounds_paced_refused :
    ∃ actions, ∃ s : Step Line, create settings Line.wire = .ok client ∧
      Reaches client (actions ++ [s.action]) s.after ∧ s.EndsRound ∧
      (client.trace actions).misses = 2 ∧
      Rhythm client (client.trace (actions ++ [s.action])) s.after := by
  let actions : List (Action Line) := [.addBroker 0 "h" 1, .advance, .advance, .advance, .advance,
    .advance, .advance, .advance, .advance, .advance, .wake, .drift { reachable := ["h:1"] },
    .advance, .advance, .advance, .advance, .advance, .advance, .advance,
    .hear (.connected (.error .notAuthorized)), .leaveLoop true, .advance]
  let s := Step.take (client.after actions) .advance (by decide +kernel)
  have created : create settings Line.wire = .ok client := rfl
  have run : Reaches client actions s.before :=
    (reaches_after (by decide +kernel)).take _
  have here : s.before.network = .settling false := by decide +kernel
  have running : s.before.isRunning = true := by decide +kernel
  have ends : s.EndsRound := ⟨rfl, ⟨false, here⟩, running⟩
  have further := run.snoc s.stepped
  exact ⟨actions, s, created, further, ends, by decide +kernel, rounds_paced created further⟩

end Client

end Courier
