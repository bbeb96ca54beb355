import Courier.Proofs.Client.Course
import Courier.Proofs.Client.Record
import Courier.Proofs.Outbox.Order

/-! A shutdown from anywhere. The network thread stops wherever it is, with a number of steps
of its own that is known beforehand; what it has dialled meanwhile is hung up a second time.
Then nothing is left, and nothing happens any more. -/
namespace Courier

variable {σ : Type}

def Call.IsCivil : Call → Prop
  | disconnect reason expiry _ => reason = .disconnectWithWillMessage ∧ expiry = some .zero
  | _ => True

theorem Call.IsFarewell.isCivil {call : Call} (farewell : call.IsFarewell) : call.IsCivil := by
  cases call with
  | disconnect => exact farewell
  | _ => trivial

theorem Call.isCivil_of_needsSession {call : Call} (needs : call.needsSession = true) :
    call.IsCivil := by
  cases call with
  | disconnect => contradiction
  | _ => trivial

theorem Network.Makes.isCivil {n : Network} {call : Call} (makes : n.Makes call) :
    call.IsCivil := by
  cases call with
  | disconnect =>
    unfold Network.Makes at makes
    split at makes <;> contradiction
  | _ => trivial

/-- How many steps of its own the network thread takes at most until it stops, once it has
been asked to. -/
def Network.stepsLeft (candidates : Nat) : Network → Nat
  | stopped => 0
  | resting _ | settling _ | opened => 1
  | asleep _ | settled _ | unreached _ | reached _ | lost _ => 2
  | ended => 3
  | entering => 4
  | running => 5
  | dialling rest _ => rest.length + 3
  | listing => candidates + 4
  | reconnecting => candidates + 5
  | choosing => candidates + 6

def Closing.stepsLeft : Closing → Nat
  | alive => 5
  | hangingUp => 4
  | joining => 3
  | hangingUpAgain => 2
  | clearing => 1
  | closed => 0

structure Shared.Vacant (s : Shared) : Prop where
  connected : s.outbox.connected = false
  connection : s.connection = .shutdown
  queue : s.outbox.queue = []
  inFlight : s.outbox.inFlight = ∅
  finished : s.outbox.finished = ∅

namespace Client

variable {c d e : Client σ} {actions more : List (Action σ)}

def stepsLeft (c : Client σ) : Nat := c.network.stepsLeft c.shared.brokers.size

theorem Reaches.trans (first : Reaches c actions d) (second : Reaches d more e) :
    Reaches c (actions ++ more) e :=
  first.append second.run?_eq

theorem reaches_shutDown (free : c.closing ≠ .alive ∨ c.isBlocked = false) :
    Reaches c [.shutDown] c.shutDown := by
  have taken : c.step .shutDown = some (none, c.shutDown) := by
    rcases free with going | idle
    · simp [step, going]
    · simp [step, idle]
  exact Reaches.snoc (.nil c) taken

def nextMove (c : Client σ) : Action σ :=
  match c.network with
  | .asleep _ => .wake
  | .running => .leaveLoop true
  | _ => .advance

/-- Asked to stop, the network thread comes nearer to it with every step. -/
theorem advance_stepsLeft (halting : c.isRunning = false)
    (awake : ∀ limit, c.network ≠ .asleep limit) (outside : c.network ≠ .running)
    (going : c.network ≠ .stopped) : c.advance.stepsLeft < c.stepsLeft := by
  cases here : c.network with
  | asleep limit => exact absurd here (awake limit)
  | running | stopped => contradiction
  | resting pause =>
    simp [stepsLeft, Network.stepsLeft, advance, beginRound, here, halting]
  | choosing =>
    simp only [stepsLeft, advance, chooseBroker, here]
    split <;> simp [Network.stepsLeft]
  | reconnecting =>
    simp only [stepsLeft, advance, dialAgain, here]
    split <;> simp [Network.stepsLeft]
  | listing => simp [stepsLeft, Network.stepsLeft, advance, here, Table.size]
  | dialling rest last =>
    simp only [stepsLeft, advance, here]
    cases rest with
    | nil => simp [dial, Network.stepsLeft]
    | cons candidate rest =>
      simp only [dial]
      split <;> simp [Network.stepsLeft]
  | ended =>
    simp only [stepsLeft, advance, here]
    split <;> simp [Network.stepsLeft]
  | settling accepted =>
    simp [stepsLeft, Network.stepsLeft, advance, settleRound, here, halting]
  | opened | entering => simp [stepsLeft, Network.stepsLeft, advance, here, halting]
  | reached | unreached | lost | settled =>
    simp [stepsLeft, Network.stepsLeft, advance, here, Shared.endSession]

theorem nextMove_step (halting : c.isRunning = false) (going : c.network ≠ .stopped) :
    ∃ d, c.step c.nextMove = some (none, d) ∧ d.stepsLeft < c.stepsLeft ∧
      d.isRunning = false ∧ d.closing = c.closing := by
  cases here : c.network with
  | stopped => contradiction
  | asleep limit =>
    have woken : c.wake = { c with network := .resting none } := by simp only [wake, here]
    refine ⟨c.wake, ?_, ?_, ?_, ?_⟩
    · simp only [nextMove, here, step]
    · simp [woken, stepsLeft, here, Network.stepsLeft]
    · rw [woken]
      exact halting
    · rw [woken]
  | running =>
    have left : c.leaveLoop true = { c with network := .ended } := by
      simp only [leaveLoop, here, if_true]
    refine ⟨c.leaveLoop true, ?_, ?_, ?_, ?_⟩
    · simp only [nextMove, here, step]
    · simp [left, stepsLeft, here, Network.stepsLeft]
    · rw [left]
      exact halting
    · rw [left]
  | _ =>
    have course := c.advance_course
    refine ⟨c.advance, ?_, ?_, ?_, ?_⟩
    · simp only [nextMove, here, step]
    · apply c.advance_stepsLeft halting <;> simp [here]
    · exact (congrArg Course.isRunning course).trans halting
    · exact congrArg Course.closing course

/-- Wherever the network thread is when it is asked to stop, it can. -/
theorem halts (halting : c.isRunning = false) :
    ∃ more e, Reaches c more e ∧ e.network = .stopped ∧ e.closing = c.closing := by
  -- By the number of steps left; it drops because the flag is down and stays down.
  induction steps : c.stepsLeft using Nat.strong_induction_on generalizing c with
  | _ n ih =>
    by_cases stopped : c.network = .stopped
    · exact ⟨[], c, .nil c, stopped, rfl⟩
    · obtain ⟨d, taken, fewer, still, closing⟩ := nextMove_step halting stopped
      obtain ⟨more, e, run, halted, same⟩ := ih d.stepsLeft (steps ▸ fewer) still rfl
      have first : Reaches c [c.nextMove] d := Reaches.snoc (.nil c) taken
      exact ⟨_, e, first.trans run, halted, same.trans closing⟩

/-- The network thread has stopped: the shutdown waits no longer. -/
theorem shutDown_stepsLeft (stopped : c.network = .stopped) (left : c.closing ≠ .closed) :
    c.shutDown.closing.stepsLeft < c.closing.stepsLeft ∧ c.shutDown.network = .stopped ∧
      c.shutDown.closing ≠ .alive := by
  have course := c.shutDown_course
  refine ⟨?_, (congrArg Course.network course).trans stopped, c.shutDown_callers.2⟩
  cases here : c.closing with
  | closed => contradiction
  | joining => simp [shutDown, here, stopped, Closing.stepsLeft]
  | _ => simp [shutDown, here, Closing.stepsLeft, hangUp]

theorem closes (stopped : c.network = .stopped) (going : c.closing ≠ .alive) :
    ∃ more e, Reaches c more e ∧ e.closing = .closed := by
  induction steps : c.closing.stepsLeft using Nat.strong_induction_on generalizing c with
  | _ n ih =>
    by_cases closed : c.closing = .closed
    · exact ⟨[], c, .nil c, closed⟩
    · obtain ⟨fewer, still, begun⟩ := shutDown_stepsLeft stopped closed
      obtain ⟨more, e, run, closes⟩ := ih _ (steps ▸ fewer) still begun rfl
      exact ⟨_, e, (reaches_shutDown (.inl going)).trans run, closes⟩

/-- From anywhere, if no publisher waits. -/
theorem shutdown_returns (idle : c.isBlocked = false)
    (halting : c.closing ≠ .alive → c.isRunning = false) :
    ∃ more e, Reaches c more e ∧ e.closing = .closed := by
  have going : ∀ {d : Client σ}, d.closing ≠ .alive → d.isRunning = false →
      ∃ more e, Reaches d more e ∧ e.closing = .closed := by
    intro d begun halted
    obtain ⟨more, e, run, stopped, same⟩ := halts halted
    obtain ⟨further, f, rest, closed⟩ := closes stopped (same ▸ begun)
    exact ⟨_, f, run.trans rest, closed⟩
  by_cases alive : c.closing = .alive
  · have begun : c.shutDown = { c with isRunning := false, closing := .hangingUp } := by
      simp only [shutDown, alive]
    obtain ⟨more, e, run, closed⟩ := going c.shutDown_callers.2 (by rw [begun])
    exact ⟨_, e, (reaches_shutDown (.inr idle)).trans run, closed⟩
  · exact going alive (halting alive)

theorem vacant_of_clearing (here : c.closing = .clearing) : c.shutDown.shared.Vacant := by
  simp only [shutDown, here]
  constructor
  · exact Outbox.clear_connected _
  · rfl
  · exact Outbox.clear_queue _
  · exact Outbox.releaseEach_inFlight _
  · exact Outbox.releaseEach_finished _

/-- Nobody else holds a message either, so every slot is free. -/
theorem inUse_of_vacant (vacant : c.shared.Vacant) (sound : c.Sound) (unawaited : c.awaited = 0) :
    c.outbox.slots.inUse = 0 := by
  have places : c.outbox.places = 0 := by
    simp only [Outbox.places, outbox, vacant.queue, vacant.inFlight, vacant.finished]
    rfl
  have counts := sound.outbox.carry.counts
  rw [places, unawaited] at counts
  rw [counts.inUse_eq]
  rfl

/-- Once the network thread has been joined only the shutdown goes on. -/
theorem step_joined {action : Action σ} {reply : Reply} (joined : c.closing.joined = true)
    (stopped : c.network = .stopped) (quiet : c.Quiet)
    (stepped : c.step action = some (reply, d)) :
    action = .shutDown ∨ ∃ state, d = { c with wire := { c.wire with state } } := by
  have going : c.closing ≠ .alive := by
    intro alive
    rw [alive] at joined
    contradiction
  cases action with
  | publish | subscribe | unsubscribe | addBroker | removeBroker =>
    exact absurd (of_guard stepped).1 going
  | enter => exact absurd (of_guard stepped).1.1 going
  | resume call late =>
    obtain ⟨publisher, found, resumed⟩ := Option.bind_eq_some_iff.mp stepped
    have blocked := (of_guard resumed).1
    rw [quiet going call publisher found] at blocked
    contradiction
  | advance =>
    have still : c.advance = c := by simp only [advance, stopped]
    cases stepped
    exact .inr ⟨c.wire.state, still⟩
  | wake =>
    have still : c.wake = c := by simp only [wake, stopped]
    cases stepped
    exact .inr ⟨c.wire.state, still⟩
  | hear e =>
    have running := (hear_of_step stepped).1
    rw [stopped] at running
    contradiction
  | leaveLoop failed =>
    have still : c.leaveLoop failed = c := by simp only [leaveLoop, stopped]
    cases stepped
    exact .inr ⟨c.wire.state, still⟩
  | shutDown => exact .inl rfl
  | drift state =>
    cases stepped
    exact .inr ⟨state, rfl⟩

end Client

namespace Step

variable {s : Step σ}

/-- Nobody else moves a shutdown on, or asks the network thread to stop. -/
theorem closing_after (other : s.action ≠ .shutDown) :
    s.after.closing = s.before.closing ∧ s.after.isRunning = s.before.isRunning := by
  have moves := s.moves
  generalize s.action = action at moves other
  cases moves with
  | bypasses _ bypasses =>
    exact ⟨congrArg Course.closing bypasses.course, congrArg Course.isRunning bypasses.course⟩
  | advances after =>
    have course := s.before.advance_course
    rw [← after] at course
    exact ⟨congrArg Course.closing course, congrArg Course.isRunning course⟩
  | shuts => contradiction
  | adds _ after | removes after | wakes _ after | leaves _ after =>
    rw [after]
    exact ⟨rfl, rfl⟩

theorem civil (s : Step σ) : s.before.wire.Extends s.after.wire Call.IsCivil := by
  have moves := s.moves
  generalize s.action = action at moves
  cases moves with
  | bypasses _ bypasses => exact bypasses.calls.imp fun _ => Call.isCivil_of_needsSession
  | advances after =>
    rw [after]
    exact s.before.advance_makes.imp fun _ => Network.Makes.isCivil
  | shuts after =>
    rw [after]
    exact s.before.shutDown_farewells.imp fun _ => Call.IsFarewell.isCivil
  | adds _ after | removes after | wakes _ after | leaves _ after =>
    rw [after]
    exact .of_calls rfl

end Step

structure Parting (c d : Client σ) : Prop where
  civil : c.wire.Extends d.wire Call.IsCivil
  halting : d.closing ≠ .alive → d.isRunning = false
  last : d.closing = .clearing ∨ d.closing = .closed →
    ∃ call ∈ (c.wire.callsSince d.wire).getLast?, call.IsFarewell
  vacant : d.closing = .closed → d.shared.Vacant

namespace Parting

variable {c d : Client σ} {s : Step σ}

theorem drift (parting : Parting c d) (state : σ) :
    Parting c { d with wire := { d.wire with state } } :=
  ⟨parting.civil, parting.halting, parting.last, parting.vacant⟩

/-- The farewell is the last of the calls. -/
theorem last_hangUp (civil : c.wire.Extends d.wire Call.IsCivil) :
    ∃ call ∈ (c.wire.callsSince d.hangUp.wire).getLast?, call.IsFarewell := by
  obtain ⟨more, calls, _⟩ := civil
  have made : d.hangUp.wire.calls = c.wire.calls ++ (more ++ [.disconnect
      .disconnectWithWillMessage (some .zero)
      (d.wire.disconnect .disconnectWithWillMessage (some .zero)).1]) := by
    rw [← List.append_assoc, ← calls]
    rfl
  rw [Wire.callsSince_of_append made, List.getLast?_concat]
  exact ⟨_, rfl, rfl, rfl⟩

theorem shutDown (parting : Parting c d) : Parting c d.shutDown := by
  have civil := parting.civil.trans (d.shutDown_farewells.imp fun _ => Call.IsFarewell.isCivil)
  cases here : d.closing with
  | alive =>
    refine ⟨civil, ?_, ?_, ?_⟩ <;> simp [Client.shutDown, here]
  | hangingUp =>
    have halting := parting.halting (by simp [here])
    refine ⟨civil, ?_, ?_, ?_⟩ <;> simp [Client.shutDown, here, Client.hangUp, halting]
  | joining =>
    have halting := parting.halting (by simp [here])
    simp only [Client.shutDown, here]
    split
    · exact ⟨parting.civil, fun _ => halting, by simp, by simp⟩
    · exact parting
  | hangingUpAgain =>
    have halting := parting.halting (by simp [here])
    simp only [Client.shutDown, here] at civil ⊢
    exact ⟨civil, fun _ => halting, fun _ => last_hangUp parting.civil, by simp⟩
  | clearing =>
    have halting := parting.halting (by simp [here])
    have last := parting.last (.inl here)
    have vacant := Client.vacant_of_clearing here
    simp only [Client.shutDown, here] at civil vacant ⊢
    exact ⟨civil, fun _ => halting, fun _ => last, fun _ => vacant⟩
  | closed =>
    have still : d.shutDown = d := by simp only [Client.shutDown, here]
    rw [still]
    exact parting

theorem after (parting : Parting c s.before) (aligned : s.before.link.Aligned)
    (quiet : s.before.Quiet) : Parting c s.after := by
  by_cases shuts : s.action = .shutDown
  · rw [Step.shut shuts]
    exact parting.shutDown
  -- Once joined, only the shutdown itself goes on; before, there is nothing to keep yet.
  by_cases joined : s.before.closing.joined = true
  · rcases Client.step_joined joined (aligned.joined joined) quiet s.stepped with doing | same
    · contradiction
    · obtain ⟨state, same⟩ := same
      rw [same]
      exact parting.drift state
  · obtain ⟨closing, running⟩ := Step.closing_after shuts
    refine ⟨parting.civil.trans s.civil, ?_, ?_, ?_⟩
    · intro going
      rw [closing] at going
      rw [running]
      exact parting.halting going
    · rintro (here | here)
      · exact absurd (congrArg Closing.joined (closing.symm.trans here)) joined
      · exact absurd (congrArg Closing.joined (closing.symm.trans here)) joined
    · intro here
      exact absurd (congrArg Closing.joined (closing.symm.trans here)) joined

end Parting

namespace Client

variable {c d : Client σ} {options : Options} {wire : Wire σ} {actions : List (Action σ)}

theorem Reaches.parting (created : create options wire = .ok c) (run : Reaches c actions d) :
    Parting c d := by
  refine run.induct_run (P := fun _ d => Parting c d) ?_ ?_
  · have alive : c.closing = .alive := congrArg Link.closing (link_of_create created)
    refine ⟨.refl c.wire, ?_, ?_, ?_⟩ <;> simp [alive]
  · intro earlier s led before
    exact before.after (led.aligned created) (led.recorded created).quiet

/-- After the shutdown nothing changes but the transport by itself. -/
theorem Reaches.still (run : Reaches c actions d) (closed : c.closing = .closed)
    (stopped : c.network = .stopped) (quiet : c.Quiet) :
    ∃ state, d = { c with wire := { c.wire with state } } := by
  induction run with
  | nil => exact ⟨c.wire.state, rfl⟩
  | snoc _ stepped ih =>
    obtain ⟨state, rfl⟩ := ih
    have joined : c.closing.joined = true := congrArg Closing.joined closed
    rcases step_joined (c := { c with wire := { c.wire with state } }) joined stopped quiet
      stepped with rfl | ⟨later, rfl⟩
    · obtain ⟨_, taken⟩ := of_guard stepped
      cases taken
      refine ⟨state, ?_⟩
      simp only [shutDown, closed]
    · exact ⟨later, rfl⟩

/-- How a shutdown leaves a client that came from `c`, and keeps it. -/
structure ShutDown (c d : Client σ) : Prop where
  vacant : d.shared.Vacant
  inUse : d.outbox.slots.inUse = 0
  farewells : ∀ reason expiry result,
    .disconnect reason expiry result ∈ c.wire.callsSince d.wire →
      reason = .disconnectWithWillMessage ∧ expiry = some .zero
  last : ∃ call ∈ (c.wire.callsSince d.wire).getLast?, call.IsFarewell
  again : d.shutDown = d
  final : ∀ more e, Reaches d more e → e.shared = d.shared ∧ e.wire.calls = d.wire.calls

/-- Wherever the network thread is, and however its steps and those of the shutdown follow
each other: the shutdown can return as long as no publisher waits, and once it has returned
nothing is left, the farewell was the last call, and nothing happens any more. -/
theorem shutdown_complete (created : create options wire = .ok c) (run : Reaches c actions d) :
    (d.isBlocked = false → ∃ more e, Reaches d more e ∧ e.closing = .closed) ∧
      (d.closing = .closed → ShutDown c d) := by
  have parting := run.parting created
  constructor
  · intro idle
    exact shutdown_returns idle parting.halting
  · intro closed
    have going : d.closing ≠ .alive := by simp [closed]
    have quiet := (run.recorded created).quiet
    have stopped := (run.aligned created).joined (congrArg Closing.joined closed)
    have vacant := parting.vacant closed
    constructor
    · exact vacant
    · exact inUse_of_vacant vacant (run.sound created) (quiet.unawaited going)
    · intro reason expiry result made
      exact Wire.forall_callsSince parting.civil _ made
    · exact parting.last (.inr closed)
    · simp only [shutDown, closed]
    · intro more e further
      obtain ⟨state, rfl⟩ := further.still closed stopped quiet
      exact ⟨rfl, rfl⟩

open Rehearsal in
/-- A dial succeeds after the first farewell, and is hung up by the second; a message that
was never sent is let go. -/
theorem shutdown_complete_dialling :
    ∃ earlier later, create settings Line.wire = .ok client ∧
      Reaches client earlier (client.after earlier) ∧
      (client.after earlier).closing = .joining ∧
      (client.after earlier).outbox.queue.length = 1 ∧
      (∃ more e, Reaches (client.after earlier) more e ∧ e.closing = .closed) ∧
      Reaches client (earlier ++ later) (client.after (earlier ++ later)) ∧
      (client.wire.callsSince (client.after (earlier ++ later)).wire).length = 3 ∧
      ShutDown client (client.after (earlier ++ later)) := by
  let earlier : List (Action Line) := [.drift { reachable := ["h:1"] }, .addBroker 0 "h" 1,
    .publish publication .high, .advance, .advance, .advance, .shutDown, .shutDown]
  let later : List (Action Line) := [.advance, .advance, .advance, .shutDown, .shutDown, .shutDown]
  have created : create settings Line.wire = .ok client := rfl
  have begun : Reaches client earlier (client.after earlier) := reaches_after (by decide +kernel)
  have run : Reaches client (earlier ++ later) (client.after (earlier ++ later)) :=
    reaches_after (by decide +kernel)
  have returns := (shutdown_complete created begun).1 (by decide +kernel)
  have left := (shutdown_complete created run).2 (by decide +kernel)
  exact ⟨earlier, later, created, begun, by decide +kernel, by decide +kernel, returns, run,
    by decide +kernel, left⟩

end Client

end Courier
