import Courier.Proofs.Client.Record
import Courier.Proofs.Outbox.Order
import Mathlib.Data.List.Sort

/-! The order of the queue of a client. Sequence numbers are drawn in the order in which
publications are taken in, so the queue stays in order through every run, and whatever is
sent from it goes before all that still waits. -/
namespace Courier

variable {σ : Type}

def Step.message? (s : Step σ) : Option Message :=
  match s.turn with
  | .submits p priority sync _ => (s.accepted p priority sync).toOption
  | _ => none

def History.accepted (history : History σ) : List Message := history.filterMap Step.message?

namespace Step

variable {s : Step σ} {m : Message}

theorem message?_eq_some_iff : s.message? = some m ↔ ∃ p, s.Accepts p m := by
  constructor
  · intro found
    unfold message? at found
    split at found
    · rename_i p priority sync late turn
      refine ⟨p, priority, sync, late, turn, ?_⟩
      cases told : s.accepted p priority sync with
      | ok n =>
        rw [told] at found
        cases found
        rfl
      | error fault =>
        rw [told] at found
        contradiction
    · contradiction
  · rintro ⟨p, priority, sync, late, turn, told⟩
    simp only [message?, turn, told, Except.toOption]

/-- A step takes messages off the queue, or lets one more in. -/
theorem queue_after (sound : s.before.Sound) :
    s.after.outbox.queue.Sublist s.before.outbox.queue ∨ ∃ p m, s.Accepts p m ∧
      s.after.outbox.queue.Sublist (s.before.outbox.enqueue m).queue := by
  have of_drains : s.Drains → s.after.outbox.queue.Sublist s.before.outbox.queue := by
    intro drains
    obtain ⟨sent, split, _⟩ := drains.sent sound
    rw [split]
    exact List.sublist_append_right _ _
  have of_accepts : ∀ {p m priority sync o} {w : Wire σ}, s.Accepts p m →
      s.before.outbox.Accepts s.before.wire s.before.nextSeq p priority sync (.ok m) o w →
      s.after.outbox.queue.Sublist o.queue →
      s.after.outbox.queue.Sublist s.before.outbox.queue ∨ ∃ p m, s.Accepts p m ∧
        s.after.outbox.queue.Sublist (s.before.outbox.enqueue m).queue := by
    intro p m priority sync o w here accepts fewer
    rcases accepts.queue_of_ok with ⟨_, queue⟩ | ⟨_, queue⟩
    · exact .inl (queue ▸ fewer)
    · exact .inr ⟨p, m, here, queue ▸ fewer⟩
  have turned := s.turned
  cases turn : s.turn with
  | other =>
    rw [turn] at turned
    cases turned with
    | other outbox => exact .inl (outbox ▸ .refl _)
  | submits p priority sync late =>
    rw [turn] at turned
    cases turned with
    | refused taken => exact .inl ((Outbox.accepts_of_eq taken).queue_of_error ▸ .refl _)
    | @handed _ _ _ m o taken outbox =>
      have here : s.Accepts p m := ⟨priority, false, late, turn, congrArg Prod.fst taken⟩
      exact of_accepts here (Outbox.accepts_of_eq taken) (outbox ▸ .refl _)
    | @entered _ _ _ m o taken outbox =>
      have here : s.Accepts p m := ⟨priority, true, late, turn, congrArg Prod.fst taken⟩
      exact of_accepts here (Outbox.accepts_of_eq taken) (outbox ▸ o.seek_queue m late)
  | asks m late =>
    rw [turn] at turned
    cases turned with
    | asked _ outbox => exact .inl (outbox ▸ s.before.outbox.seek_queue m late)
  | begins => exact .inl (of_drains (.inl turn))
  | hears id reason => exact .inl (of_drains (.inr ⟨id, reason, turn⟩))
  | loses =>
    rw [turn] at turned
    cases turned with
    | lost outbox => exact .inl (outbox ▸ Outbox.purge_queue _)
  | clears =>
    rw [turn] at turned
    cases turned with
    | cleared _ outbox =>
      left
      rw [outbox, Outbox.clear_queue]
      exact List.nil_sublist _

theorem ordered_after (sound : s.before.Sound) (ordered : s.before.outbox.Ordered) :
    s.after.outbox.Ordered := by
  rcases queue_after sound with fewer | ⟨p, m, accepts, fewer⟩
  · exact List.Pairwise.sublist fewer ordered
  · have numbered := (accepts.numbered sound).1
    refine List.Pairwise.sublist fewer (ordered.enqueue ?_)
    intro n waits
    rw [numbered]
    exact sound.outbox.drawn_of_queue waits

/-- The queue was sent from in order: these messages went to the transport, each while
nothing waited that precedes it. -/
structure SendsInOrder (s : Step σ) (sent : List Message) : Prop where
  queue : s.before.outbox.queue = sent ++ s.after.outbox.queue
  requests : s.attempts.map Prod.fst = sent.map Message.publication
  first : ∀ earlier m later, sent = earlier ++ m :: later →
    ∀ n ∈ later ++ s.after.outbox.queue, m.Precedes n

theorem Drains.sendsInOrder (drains : s.Drains) (sound : s.before.Sound)
    (ordered : s.before.outbox.Ordered) : ∃ sent, s.SendsInOrder sent := by
  obtain ⟨sent, split, requests⟩ := drains.sent sound
  refine ⟨sent, split, requests, ?_⟩
  intro earlier m later parts n waits
  rw [parts, List.append_assoc, List.cons_append] at split
  rw [Outbox.Ordered, split] at ordered
  exact (List.pairwise_cons.mp (List.pairwise_append.mp ordered).2.1).1 n waits

/-- At most a publication is handed over, whose publisher does not give it up at once. -/
def Parks (s : Step σ) : Prop :=
  s.turn = .other ∨ ∃ p priority sync, s.turn = .submits p priority sync false

/-- Without a session whatever is taken in waits. -/
theorem Parks.queue (parks : s.Parks) (offline : s.before.outbox.connected = false) :
    s.after.outbox.connected = false ∧
      s.after.outbox.queue.Perm (s.before.outbox.queue ++ s.message?.toList) := by
  have unready : ¬s.before.outbox.Ready := by
    rintro ⟨online, _⟩
    rw [offline] at online
    contradiction
  have turned := s.turned
  rcases parks with turn | ⟨p, priority, sync, turn⟩
  · have silent : s.message? = none := by simp only [message?, turn]
    rw [turn] at turned
    cases turned with
    | other outbox =>
      rw [outbox, silent, Option.toList_none, List.append_nil]
      exact ⟨offline, .refl _⟩
  · have connected := (s.before.outbox.accept_session s.before.wire s.before.nextSeq p priority
      sync).1
    have waits : ∀ {m o} {w : Wire σ}, s.before.outbox.accept s.before.wire s.before.nextSeq p
        priority sync = (.ok m, o, w) → s.after.outbox.queue = o.queue →
        s.after.outbox.queue.Perm (s.before.outbox.queue ++ s.message?.toList) := by
      intro m o w taken queue
      have here : s.message? = some m :=
        message?_eq_some_iff.mpr ⟨p, priority, sync, false, turn, congrArg Prod.fst taken⟩
      rcases (Outbox.accepts_of_eq taken).queue_of_ok with ⟨ready, _⟩ | ⟨_, parked⟩
      · exact absurd ready unready
      · rw [queue, parked, here, ← Multiset.coe_eq_coe, Outbox.enqueue, Outbox.coe_insertBehind,
          Option.toList_some, ← Multiset.coe_add, Multiset.coe_singleton, Multiset.add_comm,
          Multiset.singleton_add]
    rw [turn] at turned
    cases turned with
    | @refused _ _ _ _ fault taken =>
      have silent : s.message? = none := by
        simp only [message?, turn, accepted, taken, Except.toOption]
      rw [taken] at connected
      rw [(Outbox.accepts_of_eq taken).queue_of_error, silent, Option.toList_none, List.append_nil]
      exact ⟨connected.trans offline, .refl _⟩
    | handed taken outbox =>
      rw [taken] at connected
      refine ⟨?_, waits taken (outbox ▸ rfl)⟩
      rw [outbox]
      exact connected.trans offline
    | @entered _ _ _ m o taken outbox =>
      rw [taken] at connected
      refine ⟨?_, waits taken (outbox ▸ o.seek_queue_of_early m)⟩
      rw [outbox, Outbox.seek_connected]
      exact connected.trans offline

end Step

namespace History

variable {history : History σ} {m : Message}

theorem mem_accepted_iff : m ∈ history.accepted ↔ ∃ p, history.Submitted p m := by
  simp only [accepted, List.mem_filterMap, Step.message?_eq_some_iff, Submitted]
  constructor
  · rintro ⟨s, member, p, accepts⟩
    exact ⟨p, s, member, accepts⟩
  · rintro ⟨p, s, member, accepts⟩
    exact ⟨s, member, p, accepts⟩

theorem accepted_snoc (history : History σ) (s : Step σ) :
    accepted (history ++ [s]) = history.accepted ++ s.message?.toList := by
  rw [accepted, List.filterMap_append, accepted]
  cases found : s.message? with
  | none => rw [List.filterMap_cons_none found]; rfl
  | some m => rw [List.filterMap_cons_some found]; rfl

end History

namespace Client

variable {c d e : Client σ} {options : Options} {wire : Wire σ} {actions more : List (Action σ)}

/-- Sequence numbers are drawn in the order in which publications are taken in. -/
theorem Reaches.accepted_ascending (sound : d.Sound) (run : Reaches d more e) :
    (d.trace more).accepted.Pairwise (·.seq < ·.seq) ∧
      ∀ m ∈ (d.trace more).accepted, d.nextSeq ≤ m.seq := by
  have all := run.induct
    (P := fun history e => e.Sound ∧ d.nextSeq ≤ e.nextSeq ∧
      history.accepted.Pairwise (·.seq < ·.seq) ∧
      ∀ m ∈ history.accepted, d.nextSeq ≤ m.seq ∧ m.seq < e.nextSeq)
    ⟨sound, Nat.le_refl _, .nil, List.forall_mem_nil _⟩ ?_
  · obtain ⟨_, _, ascending, drawn⟩ := all
    exact ⟨ascending, fun m member => (drawn m member).1⟩
  · rintro history s ⟨sound, grown, ascending, drawn⟩
    have grows := Step.number_mono sound
    refine ⟨Step.sound_after sound, grown.trans grows, ?_⟩
    rw [History.accepted_snoc]
    cases here : s.message? with
    | none =>
      rw [Option.toList_none, List.append_nil]
      refine ⟨ascending, ?_⟩
      intro m member
      have := drawn m member
      omega
    | some m =>
      obtain ⟨p, accepts⟩ := Step.message?_eq_some_iff.mp here
      have numbered := accepts.numbered sound
      rw [Option.toList_some, List.forall_mem_append, List.forall_mem_singleton]
      refine ⟨List.pairwise_append.mpr ⟨ascending, List.pairwise_singleton _ m, ?_⟩, ?_, ?_⟩
      · intro n member k now
        rw [List.mem_singleton.mp now]
        have := drawn n member
        omega
      · intro n member
        have := drawn n member
        omega
      · omega

theorem Reaches.ordered (created : create options wire = .ok c) (run : Reaches c actions d) :
    d.outbox.Ordered := by
  refine run.induct_run (P := fun _ d => d.outbox.Ordered) ?_ ?_
  · obtain ⟨slots, _, outbox⟩ := outbox_of_create created
    rw [outbox]
    exact List.Pairwise.nil
  · intro _ s past ordered
    exact Step.ordered_after (past.sound created) ordered

/-- As long as there is no session, what is taken in joins the queue. -/
theorem Reaches.parked (offline : d.outbox.connected = false) (run : Reaches d more e)
    (parks : ∀ s ∈ d.trace more, s.Parks) :
    e.outbox.queue.Perm (d.outbox.queue ++ (d.trace more).accepted) := by
  have all := run.induct
    (P := fun history e => (∀ s ∈ history, s.Parks) → e.outbox.connected = false ∧
      e.outbox.queue.Perm (d.outbox.queue ++ history.accepted))
    (fun _ => ⟨offline, by rw [History.accepted, List.filterMap_nil, List.append_nil]⟩) ?_
  · exact (all parks).2
  · intro history s joined parks
    rw [List.forall_mem_append, List.forall_mem_singleton] at parks
    obtain ⟨offline, before⟩ := joined parks.1
    obtain ⟨still, after⟩ := parks.2.queue offline
    refine ⟨still, after.trans ?_⟩
    rw [History.accepted_snoc, ← List.append_assoc]
    exact before.append_right _

structure InOrder (history : History σ) (d : Client σ) : Prop where
  /-- Strictly by class, the highest first, and within a class by sequence number. -/
  ordered : d.outbox.queue.Pairwise Message.Precedes
  /-- One queue after the other, one for each class. -/
  lanes : d.outbox.queue = d.outbox.lane .high ++ d.outbox.lane .medium ++ d.outbox.lane .low
  /-- In each of them the messages are in the order in which they were taken in. -/
  fifo : ∀ priority, (d.outbox.lane priority).Sublist history.accepted
  numbered : history.accepted.Pairwise (·.seq < ·.seq)
  /-- Nothing is sent from the queue while a message waits that precedes it. -/
  sent : ∀ s ∈ history, s.Drains → ∃ sent, s.SendsInOrder sent
  /-- What is taken in while there is no session is sorted into the queue. -/
  sorted : d.outbox.connected = false → ∀ more e, Reaches d more e →
    (∀ s ∈ d.trace more, s.Parks) →
      e.outbox.queue = Message.sortByClass (d.outbox.queue ++ (d.trace more).accepted)

theorem Reaches.lane_fifo (created : create options wire = .ok c) (run : Reaches c actions d)
    (priority : Priority) : (d.outbox.lane priority).Sublist (c.trace actions).accepted := by
  have antisymm : Std.Antisymm fun m n : Message => m.seq < n.seq :=
    ⟨fun _ _ earlier later => absurd later (Nat.lt_asymm earlier)⟩
  have ordered := run.ordered created
  have ascending : (d.outbox.lane priority).Pairwise fun m n => m.seq < n.seq := by
    refine List.Pairwise.imp_of_mem ?_ (List.Pairwise.filter _ ordered)
    intro m n first second precedes
    rcases precedes with above | ⟨_, earlier⟩
    · have one : m.priority = priority := of_decide_eq_true (List.mem_filter.mp first).2
      have two : n.priority = priority := of_decide_eq_true (List.mem_filter.mp second).2
      rw [one, two] at above
      omega
    · exact earlier
  have among : d.outbox.lane priority ⊆ (c.trace actions).accepted := by
    intro m member
    have waits : m ∈ d.outbox.queue := List.mem_of_mem_filter member
    exact History.mem_accepted_iff.mpr
      (run.submitted created (Outbox.mem_places_of_queue waits))
  have distinct : (d.outbox.lane priority).Nodup :=
    List.Nodup.filter _ (run.sound created).outbox.queue_nodup
  exact List.sublist_of_subperm_of_pairwise (distinct.subperm among) ascending
    (run.accepted_ascending (sound_of_create created)).1

theorem Reaches.sorted (created : create options wire = .ok c) (run : Reaches c actions d)
    (offline : d.outbox.connected = false) (later : Reaches d more e)
    (parks : ∀ s ∈ d.trace more, s.Parks) :
    e.outbox.queue = Message.sortByClass (d.outbox.queue ++ (d.trace more).accepted) := by
  have sound := run.sound created
  have whole : Reaches c (actions ++ more) e := run.append later.run?_eq
  obtain ⟨ascending, drawn⟩ := later.accepted_ascending sound
  have numbered : (d.outbox.queue ++ (d.trace more).accepted).Pairwise
      fun m n => m.priority = n.priority → m.seq < n.seq := by
    refine List.pairwise_append.mpr ⟨?_, ascending.imp ?_, ?_⟩
    · refine List.Pairwise.imp ?_ (run.ordered created)
      rintro m n (above | ⟨_, earlier⟩) same
      · rw [same] at above
        omega
      · exact earlier
    · exact fun earlier _ => earlier
    · intro m waits n new _
      exact Nat.lt_of_lt_of_le (sound.outbox.drawn_of_queue waits) (drawn n new)
  exact Message.eq_of_precedes (whole.ordered created) (Message.sortByClass_precedes numbered)
    ((later.parked offline parks).trans (List.mergeSort_perm _ _).symm)

/-- Whatever the transport does and in whatever order callers, handlers and the network
thread take their turns. -/
theorem queue_in_order (created : create options wire = .ok c) (run : Reaches c actions d) :
    InOrder (c.trace actions) d := by
  have ordered := run.ordered created
  refine ⟨ordered, ordered.lanes, run.lane_fifo created,
    (run.accepted_ascending (sound_of_create created)).1, ?_, ?_⟩
  · intro s member drains
    obtain ⟨earlier, past⟩ := run.before s member
    exact drains.sendsInOrder (past.sound created) (past.ordered created)
  · intro offline more e later parks
    exact run.sorted created offline later parks

open Rehearsal in
/-- Without a session two publications wait, the later one of the higher class in front. -/
theorem queue_in_order_offline :
    ∃ actions, create settings Line.wire = .ok client ∧
      Reaches client actions (client.after actions) ∧
      (client.after actions).outbox.queue.map Message.seq = [1, 0] ∧
      InOrder (client.trace actions) (client.after actions) := by
  let actions : List (Action Line) := [.publish publication .low, .publish publication .high]
  have created : create settings Line.wire = .ok client := rfl
  have run : Reaches client actions (client.after actions) := reaches_after (by decide +kernel)
  exact ⟨actions, created, run, by decide +kernel, queue_in_order created run⟩

end Client

end Courier
