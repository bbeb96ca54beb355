import Courier.Proofs.Client.Record
import Courier.Proofs.Client.Sessions
import Courier.Proofs.Client.Submissions

/-! What is left of a synchronous publish. While it goes on its message may be anywhere;
once its caller is told a result, whichever it is, the message is nowhere any more and its
slot is free, whatever numbers the transport gives out. -/
namespace Courier

theorem Slots.head_of_take {α : Type} {s t : Slots α} {value : α} {slot : Nat}
    (took : s.take? value = some (slot, t)) : s.free.head? = some slot := by
  rw [free_of_take took, List.head?_cons]

variable {σ : Type}

/-- A message is made up, whether or not it can be sent: a publication is handed over
under this number, and this slot is the next one to be taken. -/
def Step.Makes (s : Step σ) (seq slot : Nat) : Prop :=
  (∃ p, s.Submits p) ∧ s.before.nextSeq = seq ∧ s.before.outbox.slots.free.head? = some slot

def Step.Returns (s : Step σ) (call : Nat) (result : Except ClientFault Unit) : Prop :=
  s.action.call? = some call ∧ s.reply = some result

namespace Step

variable {s : Step σ} {p q : Publication} {m n : Message} {seq slot call : Nat}
  {result : Except ClientFault Unit}

theorem Accepts.makes (accepts : s.Accepts p m) : s.Makes m.seq m.slot := by
  have submits := accepts.submits
  obtain ⟨priority, sync, late, _, told⟩ := accepts
  obtain ⟨⟨o, w⟩, taken⟩ : ∃ rest, s.before.outbox.accept s.before.wire s.before.nextSeq p
      priority sync = (.ok m, rest) := ⟨_, Prod.ext told rfl⟩
  have accepts := Outbox.accepts_of_eq taken
  cases accepts with
  | sent took | parked took => exact ⟨⟨p, submits⟩, rfl, Slots.head_of_take took⟩

/-- A step takes in one message at most. -/
theorem Accepts.same (first : s.Accepts p m) (second : s.Accepts q n) : n = m := by
  obtain ⟨_, _, _, turn, told⟩ := first
  obtain ⟨_, _, _, same, again⟩ := second
  cases turn.symm.trans same
  cases told.symm.trans again
  rfl

theorem Makes.unique {seq' slot' : Nat} (makes : s.Makes seq slot) (again : s.Makes seq' slot') :
    seq' = seq ∧ slot' = slot :=
  ⟨again.2.1.symm.trans makes.2.1, Option.some.inj (again.2.2.symm.trans makes.2.2)⟩

theorem Makes.free (makes : s.Makes seq slot) : slot ∈ s.before.outbox.slots.free :=
  List.mem_of_mem_head? makes.2.2

/-- What is made up has a number and a slot that nothing has that was there before. -/
theorem Makes.apart (makes : s.Makes seq slot) (sound : s.before.Sound)
    (known : n ∈ s.before.outbox.places + s.before.awaited) : n.slot ≠ slot ∧ n.seq ≠ seq := by
  have drawn := sound.outbox.carry.drawn n known
  have number := makes.2.1
  refine ⟨?_, by omega⟩
  rintro rfl
  exact sound.outbox.carry.counts.free_not_mem makes.free (Multiset.mem_map_of_mem _ known)

/-- Nothing has the number or the slot of a message whose publisher has its answer. -/
theorem Answers.parted (answers : s.Answers m result) (sound : s.before.Sound)
    (held : n ∈ s.after.outbox.places + s.after.awaited) : n.slot ≠ m.slot ∧ n.seq ≠ m.seq := by
  have other : n ≠ m := by
    rintro rfl
    rcases Multiset.mem_add.mp held with kept | waits
    · exact answers.not_kept sound kept
    · exact answers.unawaited sound waits
  -- Of two old messages the slots differ; a new one has taken a slot that was free.
  rcases held_arrives sound held with old | ⟨q, new⟩ <;>
    rcases answers.waited sound with waited | ⟨p, accepts⟩
  · have apart := sound.outbox.carry.apart n old m (Multiset.mem_add.mpr (.inr waited))
    exact ⟨fun same => other (apart (.inl same)), fun same => other (apart (.inr same))⟩
  · exact accepts.makes.apart sound old
  · have apart := new.makes.apart sound (Multiset.mem_add.mpr (.inr waited))
    exact ⟨apart.1.symm, apart.2.symm⟩
  · exact absurd (accepts.same new) other

/-- A call that returns in the step in which it hands over leaves nothing behind. -/
theorem Makes.parted (makes : s.Makes seq slot) (returns : s.Returns call result)
    (sound : s.before.Sound) (held : n ∈ s.after.outbox.places + s.after.awaited) :
    n.slot ≠ slot ∧ n.seq ≠ seq := by
  rcases held_arrives sound held with old | ⟨p, accepts⟩
  · exact makes.apart sound old
  · obtain ⟨rfl, rfl⟩ := makes.unique accepts.makes
    obtain ⟨caller, replied⟩ := returns
    obtain ⟨priority, sync, late, turn, told⟩ := accepts
    have comes := comes_of_turn turn
    cases comes with
    | published doing =>
      rw [doing] at caller
      contradiction
    | entered | resumed =>
      have answers : s.Answers n result := ⟨replied, .inr ⟨p, _, late, turn, told⟩⟩
      exact answers.parted sound held

/-- After a step as before: what is kept of a synchronous publish, its publisher waits for. -/
theorem kept_awaited (sound : s.before.Sound)
    (before : ∀ m ∈ s.before.outbox.places, m.sync = true → m ∈ s.before.awaited)
    (kept : m ∈ s.after.outbox.places) (sync : m.sync = true) : m ∈ s.after.awaited := by
  have unanswered : ∀ result, ¬s.Answers m result :=
    fun result answers => answers.not_kept sound kept
  rcases places_arrive sound kept with old | ⟨p, priority, _, late, turn, told⟩
  · rcases awaited_stays sound (before m old sync) with waits | ⟨result, answers⟩
    · exact waits
    · exact absurd answers (unanswered result)
  · have taken := takenIn sound turn told
    cases taken.waited.symm.trans sync
    rw [taken.awaited]
    cases replied : s.reply with
    | none =>
      rw [if_pos rfl]
      exact Multiset.mem_cons_self m _
    | some result =>
      exact absurd ⟨replied, .inr ⟨p, priority, late, turn, told⟩⟩ (unanswered result)

end Step

namespace History

def Made (history : History σ) (call seq slot : Nat) : Prop :=
  ∃ s ∈ history, s.action.call? = some call ∧ s.Makes seq slot

def Returned (history : History σ) (call : Nat) : Prop :=
  ∃ s ∈ history, ∃ result, s.Returns call result

end History

namespace Followed

variable {history : History σ} {s t : Step σ} {call seq slot : Nat} {n : Message}
  {result : Except ClientFault Unit}

/-- A call that has returned is over. -/
theorem not_caller (followed : Followed history s.before) (member : t ∈ history)
    (returned : t.Returns call result) : s.action.call? ≠ some call := by
  intro caller
  obtain ⟨same, replied⟩ := returned
  have tracks := followed.tracks call
  rcases Step.waits_of_caller caller with unknown | ⟨publisher, _, _, found, blocked⟩
  · rw [unknown] at tracks
    exact tracks t member same
  · rw [found] at tracks
    cases publisher with
    | awaitingRoom p =>
      have silent := (tracks.2.2 t member same).1
      rw [replied] at silent
      contradiction
    | awaitingOutcome m =>
      have silent := tracks.2 t member same
      rw [replied] at silent
      contradiction
    | finished _ => contradiction

/-- After its return a call makes up nothing. -/
theorem made_before (followed : Followed history s.before) (member : t ∈ history)
    (returned : t.Returns call result) (made : History.Made (history ++ [s]) call seq slot) :
    history.Made call seq slot := by
  obtain ⟨u, among, caller, makes⟩ := made
  rcases List.mem_append.mp among with past | now
  · exact ⟨u, past, caller, makes⟩
  · rw [List.mem_singleton.mp now] at caller
    exact absurd caller (followed.not_caller member returned)

/-- When a call returns whose message was made up earlier, it is told of that message. -/
theorem answers_of_made (followed : Followed history s.before) (returns : s.Returns call result)
    (made : history.Made call seq slot) :
    ∃ m, s.Answers m result ∧ m.seq = seq ∧ m.slot = slot := by
  obtain ⟨caller, replied⟩ := returns
  obtain ⟨t, member, same, makes⟩ := made
  have tracks := followed.tracks call
  rcases Step.waits_of_caller caller with unknown | ⟨publisher, late, doing, found, blocked⟩
  · rw [unknown] at tracks
    exact absurd same (tracks t member)
  · rw [found] at tracks
    obtain ⟨p, submits⟩ := makes.1
    cases publisher with
    | awaitingRoom _ => exact absurd submits ((tracks.2.2 t member same).2 p)
    | awaitingOutcome m =>
      -- The call hands over once, so what it waits for is what it had made up.
      obtain ⟨u, before, again, q, accepts⟩ := tracks.1
      have one := followed.once t member u before call p q same again submits accepts.submits
      subst one
      obtain ⟨number, place⟩ := makes.unique accepts.makes
      have turn : s.turn = .asks m late := by
        simp only [Step.turn, doing, Client.turn, found]
      exact ⟨m, ⟨replied, .inl ⟨late, turn⟩⟩, number, place⟩
    | finished _ => contradiction

/-- Nothing has the number or the slot of the message of a call that returns. -/
theorem parted (followed : Followed history s.before) (sound : s.before.Sound)
    (returns : s.Returns call result) (made : History.Made (history ++ [s]) call seq slot)
    (held : n ∈ s.after.outbox.places + s.after.awaited) : n.slot ≠ slot ∧ n.seq ≠ seq := by
  obtain ⟨t, member, caller, makes⟩ := made
  rcases List.mem_append.mp member with past | now
  · obtain ⟨m, answers, rfl, rfl⟩ := followed.answers_of_made returns ⟨t, past, caller, makes⟩
    exact answers.parted sound held
  · rw [List.mem_singleton.mp now] at makes
    exact makes.parted returns sound held

end Followed

namespace Client

variable {c d : Client σ} {options : Options} {wire : Wire σ} {actions : List (Action σ)}
  {s : Step σ} {call seq slot : Nat} {m : Message} {result : Except ClientFault Unit}

theorem Reaches.capacity (run : Reaches c actions d) :
    d.outbox.slots.capacity = c.outbox.slots.capacity := by
  refine run.induct (P := fun _ d => d.outbox.slots.capacity = c.outbox.slots.capacity) rfl ?_
  intro _ s same
  exact s.capacity_after.trans same

theorem Reaches.kept_awaited (created : create options wire = .ok c) (run : Reaches c actions d) :
    ∀ m ∈ d.outbox.places, m.sync = true → m ∈ d.awaited := by
  refine run.induct_run
    (P := fun _ d => ∀ m ∈ d.outbox.places, m.sync = true → m ∈ d.awaited) ?_ ?_
  · rw [places_of_create created]
    exact fun m kept => absurd kept (Multiset.notMem_zero m)
  · intro _ s past before m kept
    exact Step.kept_awaited (past.sound created) before kept

/-- Every outcome that is kept is kept for a publisher that waits for it. -/
theorem Reaches.finished (created : create options wire = .ok c) (run : Reaches c actions d)
    (found : d.outbox.finished.get? seq = some m) :
    seq = m.seq ∧ ∃ call, (c.trace actions).Pends call m := by
  obtain ⟨number, sync, _⟩ := (run.sound created).outbox.ended seq m found
  have kept := Outbox.mem_places_of_finished found
  obtain ⟨call, waits⟩ := awaited_mem_iff.mp (run.kept_awaited created m kept sync)
  have tracks := (run.followed created).tracks call
  rw [waits] at tracks
  exact ⟨number, call, tracks⟩

theorem Reaches.made (created : create options wire = .ok c) (run : Reaches c actions d)
    (made : (c.trace actions).Made call seq slot) :
    seq < d.nextSeq ∧ slot < d.outbox.slots.capacity := by
  obtain ⟨t, member, _, makes⟩ := made
  obtain ⟨p, submits⟩ := makes.1
  obtain ⟨earlier, past⟩ := run.before t member
  have drawn := (run.numbered created).drawn t member p submits
  have within := ((past.sound created).outbox.carry.counts.mem_free_iff.mp makes.free).1
  rw [makes.2.1] at drawn
  rw [run.capacity, ← past.capacity]
  exact ⟨drawn, within⟩

/-- When a call returns, the slot of its message is free. -/
theorem Reaches.released (created : create options wire = .ok c)
    (run : Reaches c actions s.before) (returns : s.Returns call result)
    (made : History.Made (c.trace actions ++ [s]) call seq slot) :
    slot ∈ s.after.outbox.slots.free := by
  have further : Reaches c (actions ++ [s.action]) s.after := run.snoc s.stepped
  have same_made : (c.trace (actions ++ [s.action])).Made call seq slot := by
    rw [run.trace_snoc s.stepped]
    exact made
  rw [(further.sound created).outbox.carry.counts.mem_free_iff]
  refine ⟨(further.made created same_made).2, ?_⟩
  intro taken
  obtain ⟨n, held, same⟩ := Multiset.mem_map.mp taken
  exact ((run.followed created).parted (run.sound created) returns made held).1 same

structure NoResidue (history : History σ) (d : Client σ) : Prop where
  /-- Every outcome is kept for a publish that has not returned. -/
  finished : ∀ seq m, d.outbox.finished.get? seq = some m →
    seq = m.seq ∧ ∃ call, history.Pends call m
  /-- When a publish returns, whatever the result, the slot of its message is free. -/
  released : ∀ s ∈ history, ∀ call result, s.Returns call result →
    ∀ seq slot, history.Made call seq slot → slot ∈ s.after.outbox.slots.free
  /-- Its message is nowhere any more. -/
  gone : ∀ call, history.Returned call → ∀ seq slot, history.Made call seq slot →
    ∀ m ∈ d.outbox.places, m.seq ≠ seq
  /-- Whatever number is acknowledged next, it completes another message, if any, and one
  the transport took under this number. -/
  acknowledged : ∀ call, history.Returned call → ∀ seq slot, history.Made call seq slot →
    ∀ (t : Step σ) n id reason, t.before = d → t.Acknowledges n id reason →
      n.seq ≠ seq ∧ ∃ p, history.Taken p n id

theorem Reaches.released_and_gone (created : create options wire = .ok c)
    (run : Reaches c actions d) : ∀ s ∈ c.trace actions, ∀ call result, s.Returns call result →
      ∀ seq slot, (c.trace actions).Made call seq slot →
        slot ∈ s.after.outbox.slots.free ∧ ∀ m ∈ d.outbox.places, m.seq ≠ seq := by
  refine run.induct_run (P := fun history d => ∀ s ∈ history, ∀ call result,
    s.Returns call result → ∀ seq slot, history.Made call seq slot →
      slot ∈ s.after.outbox.slots.free ∧ ∀ m ∈ d.outbox.places, m.seq ≠ seq)
    (List.forall_mem_nil _) ?_
  intro earlier u past before
  have sound := past.sound created
  have followed := past.followed created
  rw [List.forall_mem_append, List.forall_mem_singleton]
  refine ⟨?_, ?_⟩
  · intro s member call result returns seq slot made
    have made := followed.made_before member returns made
    obtain ⟨free, gone⟩ := before s member call result returns seq slot made
    refine ⟨free, ?_⟩
    intro m kept
    rcases Step.places_arrive sound kept with old | ⟨p, accepts⟩
    · exact gone m old
    · have drawn := (past.made created made).1
      have := (accepts.numbered sound).1
      omega
  · intro call result returns seq slot made
    refine ⟨past.released created returns made, ?_⟩
    intro m kept
    exact (followed.parted sound returns made (Multiset.mem_add.mpr (.inl kept))).2

/-- Whatever the transport does, even if it gives out a number that is in flight, and in
whatever order callers, handlers and the network thread take their turns. -/
theorem publish_leaves_no_residue (created : create options wire = .ok c)
    (run : Reaches c actions d) : NoResidue (c.trace actions) d := by
  have residue := run.released_and_gone created
  have gone : ∀ call, (c.trace actions).Returned call → ∀ seq slot,
      (c.trace actions).Made call seq slot → ∀ m ∈ d.outbox.places, m.seq ≠ seq := by
    rintro call ⟨s, member, result, returns⟩ seq slot made
    exact (residue s member call result returns seq slot made).2
  refine ⟨fun seq m found => run.finished created found, ?_, gone, ?_⟩
  · intro s member call result returns seq slot made
    exact (residue s member call result returns seq slot made).1
  · rintro call returned seq slot made t n id reason rfl ⟨_, flies⟩
    have kept := Outbox.mem_places_of_inFlight flies
    obtain ⟨p, submitted⟩ := run.submitted created kept
    exact ⟨gone call returned seq slot made n kept, p,
      (run.recorded created).flies p n id submitted flies⟩

open Rehearsal in
/-- A publish gives up what is on the wire, and the acknowledgement comes too late. -/
theorem publish_leaves_no_residue_late :
    ∃ actions, create settings Line.wire = .ok client ∧
      Reaches client actions (client.after actions) ∧ (client.trace actions).Made 0 0 0 ∧
      (client.trace actions).Returned 0 ∧
      NoResidue (client.trace actions) (client.after actions) := by
  let actions := connects ++ [.enter 0 publication false, .resume 0 true,
    .hear (.acknowledged 1 .success)]
  have created : create settings Line.wire = .ok client := rfl
  have run : Reaches client actions (client.after actions) := reaches_after (by decide +kernel)
  have submits : ∃ s ∈ client.trace actions, s.action.call? = some 0 ∧
      s.turn = .submits publication .low true false ∧ s.before.nextSeq = 0 ∧
      s.before.outbox.slots.free.head? = some 0 := by decide +kernel
  have replies : ∃ s ∈ client.trace actions, s.action.call? = some 0 ∧ s.reply.isSome := by
    decide +kernel
  obtain ⟨s, first, enters, turn, number, top⟩ := submits
  obtain ⟨t, second, resumes, replied⟩ := replies
  obtain ⟨result, told⟩ := Option.isSome_iff_exists.mp replied
  exact ⟨actions, created, run,
    ⟨s, first, enters, ⟨publication, .low, true, false, turn⟩, number, top⟩,
    ⟨t, second, result, resumes, told⟩, publish_leaves_no_residue created run⟩

end Client

end Courier
