import Courier.Proofs.Client.Submissions
import Courier.Proofs.Outbox.Session

/-! What reaches the transport. Every publish call is made for one publish of a caller
that has passed all checks, with just what the caller passed; and however often a
connection is lost and found again, no two are made for the same one. -/
namespace Courier

variable {σ : Type}

/-- Who publishes: an asynchronous publish is known by its place in the history, a
synchronous one by its number. -/
inductive Producer where
  | async (place : Nat)
  | sync (call : Nat)

namespace Step

variable {s : Step σ} {p : Publication}

/-- The publish calls of a step, each with the sequence number of the message it is for:
of the message that has just come in, or of those at the front of the queue. -/
def sendings (s : Step σ) : List (Nat × Attempt) :=
  match s.turn with
  | .submits _ _ _ _ => s.attempts.map fun a => (s.before.nextSeq, a)
  | _ => (s.before.outbox.queue.map Message.seq).zip s.attempts

theorem wire_extends (s : Step σ) : s.before.wire.Extends s.after.wire fun _ => True := by
  have turned := s.turned
  generalize s.turn = turn at turned
  have accepted : ∀ {p priority sync result o}, s.before.outbox.accept s.before.wire
      s.before.nextSeq p priority sync = (result, o, s.after.wire) →
      s.before.wire.Extends s.after.wire fun _ => True := by
    intro p priority sync result o taken
    have spares := (s.before.outbox.accept_session s.before.wire s.before.nextSeq p priority
      sync).2
    rw [taken] at spares
    exact spares.any
  cases turned with
  | other _ _ wire | asked _ _ _ wire | lost _ _ wire | cleared _ _ _ wire => exact wire.any
  | refused taken | handed taken | entered taken => exact accepted taken
  | @begun w renewed outbox =>
    have spares := (Outbox.pump_session { s.before.outbox with connected := true } w).2
    rw [outbox] at spares
    exact renewed.any.trans spares.any
  | @heard id reason outbox =>
    have spares := (s.before.outbox.acknowledge_session s.before.wire id reason).2
    rw [outbox] at spares
    exact spares.any

theorem sendings_of_idle (idle : s.attempts = []) : s.sendings = [] := by
  unfold sendings
  split
  · rw [idle, List.map_nil]
  · rw [idle, List.zip_nil_right]

/-- The calls of a drain are for the messages that leave the queue, in order. -/
theorem Drains.sendings (drains : s.Drains) (sound : s.before.Sound) :
    s.sendings.map Prod.snd = s.attempts ∧ ∃ sent,
      s.before.outbox.queue = sent ++ s.after.outbox.queue ∧
        s.sendings.map (fun x => (x.1, x.2.1)) = sent.map fun m => (m.seq, m.publication) := by
  obtain ⟨sent, split, requests⟩ := drains.sent sound
  have length : (sent.map Message.seq).length = s.attempts.length := by
    simpa only [List.length_map] using (congrArg List.length requests).symm
  have zipped : s.sendings = (sent.map Message.seq).zip s.attempts := by
    have whole : s.sendings = (s.before.outbox.queue.map Message.seq).zip s.attempts := by
      rcases drains with turn | ⟨id, reason, turn⟩ <;> simp only [Step.sendings, turn]
    rw [whole, split, List.map_append, ← List.append_nil s.attempts, List.zip_append length,
      List.zip_nil_right, List.append_nil, List.append_nil]
  refine ⟨?_, sent, split, ?_⟩
  · rw [zipped, List.map_snd_zip length.ge]
  · have paired : s.sendings.map (fun x => (x.1, x.2.1)) =
        (sent.map Message.seq).zip (s.attempts.map Prod.fst) := by
      rw [zipped, List.zip_map_right]
      rfl
    rw [paired, requests, List.zip_map']

/-- The calls of a step are for the publication that is handed over, or for messages that
leave the queue. -/
theorem sendings_cases (sound : s.before.Sound) : s.sendings.map Prod.snd = s.attempts ∧
    (s.sendings = [] ∨
      (∃ p result, s.Submits p ∧ s.sendings = [(s.before.nextSeq, p, result)]) ∨
      ∃ sent, s.before.outbox.queue = sent ++ s.after.outbox.queue ∧
        s.sendings.map (fun x => (x.1, x.2.1)) = sent.map fun m => (m.seq, m.publication)) := by
  have idle : s.attempts = [] → s.sendings.map Prod.snd = s.attempts ∧ s.sendings = [] := by
    intro none
    rw [sendings_of_idle none, none]
    exact ⟨rfl, rfl⟩
  cases turn : s.turn with
  | submits p priority sync late =>
    have submits : s.Submits p := ⟨priority, sync, late, turn⟩
    rcases submits.attempts with none | ⟨result, one⟩
    · exact (idle none).imp_right .inl
    · have sendings : s.sendings = [(s.before.nextSeq, p, result)] := by
        simp only [Step.sendings, turn, one, List.map_cons, List.map_nil]
      rw [sendings, one]
      exact ⟨rfl, .inr (.inl ⟨p, result, submits, rfl⟩)⟩
  | begins => exact (Drains.sendings (.inl turn) sound).imp_right fun sent => .inr (.inr sent)
  | hears id reason =>
    exact (Drains.sendings (.inr ⟨id, reason, turn⟩) sound).imp_right fun sent => .inr (.inr sent)
  | other => exact (idle (untouched sound turn).2.2).imp_right .inl
  | asks m late => exact (idle (asked sound turn).2.2.1).imp_right .inl
  | loses => exact (idle (lost sound turn).2.2.1).imp_right .inl
  | clears => exact (idle (cleared sound turn).2.2.1).imp_right .inl

end Step

namespace History

variable {history : History σ} {s t : Step σ} {producer other : Producer} {seq seq' next : Nat}
  {p q : Publication}

def sendings (history : History σ) : List (Nat × Attempt) := history.flatMap Step.sendings

/-- The producer passed this publication, which was handed over under this sequence number
when it had passed every check. -/
inductive Draws (history : History σ) : Producer → Nat → Publication → Prop where
  | async {place : Nat} {s : Step σ} {p : Publication} {priority : Priority} {seq : Nat}
      (found : history[place]? = some s) (doing : s.action = .publish p priority)
      (admitted : s.before.admits p priority = true) (number : s.before.nextSeq = seq) :
      Draws history (.async place) seq p
  | sync {s : Step σ} {call : Nat} {p : Publication} {seq : Nat} (member : s ∈ history)
      (caller : s.action.call? = some call) (submits : s.Submits p)
      (entered : history.Entered call p) (checked : Topic.checkPublish p.topic = .ok ())
      (room : s.before.outbox.hasRoom .low = true) (number : s.before.nextSeq = seq) :
      Draws history (.sync call) seq p

theorem Draws.snoc (draws : history.Draws producer seq p) (s : Step σ) :
    Draws (history ++ [s]) producer seq p := by
  cases draws with
  | async found doing admitted number =>
    obtain ⟨within, _⟩ := List.getElem?_eq_some_iff.mp found
    refine .async ?_ doing admitted number
    rw [List.getElem?_append_left within]
    exact found
  | sync member caller submits entered checked room number =>
    exact .sync (List.mem_append_left _ member) caller submits (entered.snoc s) checked room number

/-- Whatever is handed over has a producer. -/
theorem draws_of_submits (followed : Followed history s.before) (submits : s.Submits p) :
    ∃ producer, Draws (history ++ [s]) producer s.before.nextSeq p := by
  have now : s ∈ history ++ [s] := List.mem_append_right _ (List.mem_singleton_self s)
  have handed := submits
  obtain ⟨priority, sync, late, turn⟩ := submits
  have comes := Step.comes_of_turn turn
  cases comes with
  | published doing admitted =>
    exact ⟨.async history.length, .async List.getElem?_concat_length doing admitted rfl⟩
  | @entered call late doing admitted =>
    have caller : s.action.call? = some call := by rw [doing]; rfl
    obtain ⟨checked, _, room⟩ := Client.admits_iff.mp admitted
    exact ⟨.sync call, .sync now caller handed ⟨s, now, late, doing⟩ checked room rfl⟩
  | @resumed call late doing waited room =>
    have caller : s.action.call? = some call := by rw [doing]; rfl
    have tracks := followed.tracks call
    rw [waited] at tracks
    obtain ⟨checked, entered, _⟩ := tracks
    exact ⟨.sync call, .sync now caller handed (entered.snoc s) checked room rfl⟩

/-- A sequence number has one producer, and one publication. -/
theorem Draws.same_number (numbered : history.Numbered next)
    (first : history.Draws producer seq p) (second : history.Draws other seq q) :
    other = producer ∧ q = p := by
  cases first with
  | async found doing admitted number =>
    have submits := Step.submits_of_publish doing admitted
    cases second with
    | async found' doing' admitted' number' =>
      have again := Step.submits_of_publish doing' admitted'
      have place := numbered.place_unique found found' submits again (number.trans number'.symm)
      subst place
      cases found.symm.trans found'
      cases doing.symm.trans doing'
      exact ⟨rfl, rfl⟩
    | sync member' caller' submits' _ _ _ number' =>
      have same := numbered.step_unique (List.mem_of_getElem? found) member' submits submits'
        (number.trans number'.symm)
      rw [← same, doing] at caller'
      contradiction
  | sync member caller submits _ _ _ number =>
    cases second with
    | async found' doing' admitted' number' =>
      have same := numbered.step_unique member (List.mem_of_getElem? found') submits
        (Step.submits_of_publish doing' admitted') (number.trans number'.symm)
      rw [same, doing'] at caller
      contradiction
    | sync member' caller' submits' _ _ _ number' =>
      have same := numbered.step_unique member member' submits submits'
        (number.trans number'.symm)
      subst same
      cases caller.symm.trans caller'
      obtain ⟨_, _, _, turn⟩ := submits
      obtain ⟨_, _, _, turn'⟩ := submits'
      cases turn.symm.trans turn'
      exact ⟨rfl, rfl⟩

/-- A producer draws one sequence number. -/
theorem Draws.same_producer {c : Client σ} (followed : Followed history c)
    (first : history.Draws producer seq p) (second : history.Draws producer seq' q) :
    seq = seq' := by
  cases first with
  | async found doing admitted number =>
    cases second with
    | async found' _ _ number' =>
      cases found.symm.trans found'
      exact number.symm.trans number'
  | sync member caller submits _ _ _ number =>
    cases second with
    | sync member' caller' submits' _ _ _ number' =>
      have same := followed.once _ member _ member' _ _ _ caller caller' submits submits'
      subst same
      exact number.symm.trans number'

theorem sendings_snoc (history : History σ) (s : Step σ) :
    sendings (history ++ [s]) = history.sendings ++ s.sendings := by
  simp only [sendings, List.flatMap_append, List.flatMap_singleton]

end History

/-- Every publish call was made for a producer, and what waits is still to be sent. -/
structure Relayed (history : History σ) (d : Client σ) : Prop where
  drawn : ∀ seq ∈ history.sendings.map Prod.fst, seq < d.nextSeq
  once : (history.sendings.map Prod.fst).Nodup
  unsent : ∀ m ∈ d.outbox.queue, m.seq ∉ history.sendings.map Prod.fst
  waiting : ∀ m ∈ d.outbox.queue, ∃ producer, history.Draws producer m.seq m.publication
  made : ∀ x ∈ history.sendings, ∃ producer, history.Draws producer x.1 x.2.1

namespace Relayed

variable {history : History σ} {s : Step σ} {m : Message}

theorem numbers_of_sent {sendings : List (Nat × Attempt)} {sent : List Message}
    (same : sendings.map (fun x => (x.1, x.2.1)) = sent.map fun m => (m.seq, m.publication)) :
    sendings.map Prod.fst = sent.map Message.seq := by
  have firsts := congrArg (List.map Prod.fst) same
  rwa [List.map_map, List.map_map] at firsts

theorem drawn_after (relayed : Relayed history s.before) (sound : s.before.Sound) :
    ∀ seq ∈ (history ++ [s]).sendings.map Prod.fst, seq < s.after.nextSeq := by
  rw [History.sendings_snoc, List.map_append, List.forall_mem_append]
  have grows := Step.number_mono sound
  refine ⟨fun seq past => Nat.lt_of_lt_of_le (relayed.drawn seq past) grows, ?_⟩
  rcases (Step.sendings_cases sound).2 with none | ⟨p, result, submits, one⟩ | ⟨sent, split, same⟩
  · rw [none]
    exact List.forall_mem_nil _
  · rw [one, submits.number]
    exact List.forall_mem_singleton.mpr (Nat.lt_succ_self _)
  · rw [numbers_of_sent same, List.forall_mem_map]
    intro m member
    have waited : m ∈ s.before.outbox.queue := split ▸ List.mem_append_left _ member
    exact Nat.lt_of_lt_of_le (sound.outbox.drawn_of_queue waited) grows

theorem once_after (relayed : Relayed history s.before) (sound : s.before.Sound) :
    ((history ++ [s]).sendings.map Prod.fst).Nodup := by
  rw [History.sendings_snoc, List.map_append, List.nodup_append']
  refine ⟨relayed.once, ?_⟩
  rcases (Step.sendings_cases sound).2 with none | ⟨p, result, submits, one⟩ | ⟨sent, split, same⟩
  · rw [none]
    exact ⟨List.nodup_nil, List.disjoint_nil_right _⟩
  · rw [one]
    refine ⟨List.nodup_singleton _, List.disjoint_singleton.mpr ?_⟩
    intro past
    exact Nat.lt_irrefl _ (relayed.drawn _ past)
  · -- A drain sends what waits, and what waits has not been sent yet.
    have distinct := sound.outbox.queue_seqs_nodup
    rw [split, List.map_append] at distinct
    rw [numbers_of_sent same]
    refine ⟨(List.nodup_append'.mp distinct).1, ?_⟩
    intro seq past now
    obtain ⟨m, member, rfl⟩ := List.mem_map.mp now
    exact relayed.unsent m (split ▸ List.mem_append_left _ member) past

theorem unsent_after (relayed : Relayed history s.before) (sound : s.before.Sound)
    (waits : m ∈ s.after.outbox.queue) : m.seq ∉ (history ++ [s]).sendings.map Prod.fst := by
  rw [History.sendings_snoc, List.map_append, List.mem_append, not_or]
  rcases Step.queue_arrives sound waits with waited | ⟨p, accepts, idle, _⟩
  · refine ⟨relayed.unsent m waited, ?_⟩
    rcases (Step.sendings_cases sound).2 with none | ⟨p, result, submits, one⟩ |
        ⟨sent, split, same⟩
    · rw [none]
      exact List.not_mem_nil
    · rw [one]
      intro now
      have := sound.outbox.drawn_of_queue waited
      have : m.seq = s.before.nextSeq := List.mem_singleton.mp now
      omega
    · have distinct := sound.outbox.queue_seqs_nodup
      rw [split, List.map_append] at distinct
      rw [numbers_of_sent same]
      intro now
      exact (List.nodup_append'.mp distinct).2.2 now (List.mem_map_of_mem waits)
  · rw [Step.sendings_of_idle idle, (accepts.numbered sound).1]
    exact ⟨fun past => Nat.lt_irrefl _ (relayed.drawn _ past), List.not_mem_nil⟩

theorem waiting_after (relayed : Relayed history s.before) (followed : Followed history s.before)
    (sound : s.before.Sound) (waits : m ∈ s.after.outbox.queue) :
    ∃ producer, (history ++ [s]).Draws producer m.seq m.publication := by
  rcases Step.queue_arrives sound waits with waited | ⟨p, accepts, _, same⟩
  · obtain ⟨producer, draws⟩ := relayed.waiting m waited
    exact ⟨producer, draws.snoc s⟩
  · rw [(accepts.numbered sound).1, same]
    exact History.draws_of_submits followed accepts.submits

theorem made_after (relayed : Relayed history s.before) (followed : Followed history s.before)
    (sound : s.before.Sound) :
    ∀ x ∈ (history ++ [s]).sendings, ∃ producer, (history ++ [s]).Draws producer x.1 x.2.1 := by
  rw [History.sendings_snoc, List.forall_mem_append]
  refine ⟨?_, ?_⟩
  · intro x past
    obtain ⟨producer, draws⟩ := relayed.made x past
    exact ⟨producer, draws.snoc s⟩
  · rcases (Step.sendings_cases sound).2 with none | ⟨p, result, submits, one⟩ |
        ⟨sent, split, same⟩
    · rw [none]
      exact List.forall_mem_nil _
    · rw [one]
      exact List.forall_mem_singleton.mpr (History.draws_of_submits followed submits)
    · intro x member
      have among : (x.1, x.2.1) ∈ sent.map fun m => (m.seq, m.publication) :=
        same ▸ List.mem_map_of_mem member
      obtain ⟨m, here, pair⟩ := List.mem_map.mp among
      obtain ⟨number, content⟩ := Prod.mk.inj pair
      obtain ⟨producer, draws⟩ := relayed.waiting m (split ▸ List.mem_append_left _ here)
      rw [← number, ← content]
      exact ⟨producer, draws.snoc s⟩

theorem after (relayed : Relayed history s.before) (followed : Followed history s.before)
    (sound : s.before.Sound) : Relayed (history ++ [s]) s.after where
  drawn := relayed.drawn_after sound
  once := relayed.once_after sound
  unsent _ waits := relayed.unsent_after sound waits
  waiting _ waits := relayed.waiting_after followed sound waits
  made := relayed.made_after followed sound

end Relayed

/-- The `k`-th publish call was made for this producer, which had passed this publication. -/
def History.MadeFor (history : History σ) (k : Nat) (producer : Producer) (p : Publication) :
    Prop :=
  ∃ x, history.sendings[k]? = some x ∧ history.Draws producer x.1 p

/-- Every publish call is for one producer, with what it passed, and no other call is for
the same producer. -/
structure History.PublishesOnce (history : History σ) (calls : List Attempt) : Prop where
  listed : history.sendings.map Prod.snd = calls
  one : ∀ k a, calls[k]? = some a → ∃ producer, history.MadeFor k producer a.1 ∧
    ∀ other q, history.MadeFor k other q → other = producer ∧ q = a.1
  once : ∀ j k producer p q, history.MadeFor j producer p → history.MadeFor k producer q → j = k

namespace Client

variable {c d : Client σ} {options : Options} {wire : Wire σ} {actions : List (Action σ)}

theorem Reaches.relayed (created : create options wire = .ok c) (run : Reaches c actions d) :
    Relayed (c.trace actions) d := by
  obtain ⟨slots, _, outbox⟩ := outbox_of_create created
  refine run.induct_run (P := Relayed) ?_ ?_
  · have empty : ∀ {P : Message → Prop}, ∀ m ∈ c.outbox.queue, P m := by
      rw [outbox]
      exact List.forall_mem_nil _
    exact ⟨List.forall_mem_nil _, .nil, empty, empty, List.forall_mem_nil _⟩
  · intro _ s past relayed
    exact relayed.after (past.followed created) (past.sound created)

/-- The publish calls in the log of the transport are those of the steps. -/
theorem Reaches.sendings_eq (created : create options wire = .ok c) (run : Reaches c actions d) :
    (c.trace actions).sendings.map Prod.snd = c.wire.attemptsSince d.wire := by
  have both := run.induct_run
    (P := fun history d => (c.wire.Extends d.wire fun _ => True) ∧
      history.sendings.map Prod.snd = c.wire.attemptsSince d.wire)
    ⟨.refl _, (Wire.Idles.attemptsSince (.refl _)).symm⟩ ?_
  · exact both.2
  · rintro earlier s past ⟨extended, listed⟩
    have further := s.wire_extends
    have made := (Step.sendings_cases (past.sound created)).1
    refine ⟨extended.trans further, ?_⟩
    rw [History.sendings_snoc, List.map_append, listed, made,
      extended.attemptsSince_trans further]
    rfl

/-- Whatever the transport does, however often sessions end and begin, and in whatever
order callers, handlers and the network thread take their turns. -/
theorem publishes_once (created : create options wire = .ok c) (run : Reaches c actions d) :
    (c.trace actions).PublishesOnce (c.wire.attemptsSince d.wire) := by
  have relayed := run.relayed created
  have numbered := run.numbered created
  have listed := run.sendings_eq created
  refine ⟨listed, ?_, ?_⟩
  · intro k a called
    rw [← listed, List.getElem?_map, Option.map_eq_some_iff] at called
    obtain ⟨x, here, rfl⟩ := called
    obtain ⟨producer, draws⟩ := relayed.made x (List.mem_of_getElem? here)
    refine ⟨producer, ⟨x, here, draws⟩, ?_⟩
    rintro other q ⟨y, there, drew⟩
    cases here.symm.trans there
    exact draws.same_number numbered drew
  · rintro j k producer p q ⟨x, here, draws⟩ ⟨y, there, drew⟩
    have same := draws.same_producer (run.followed created) drew
    have first : ((c.trace actions).sendings.map Prod.fst)[j]? = some x.1 := by
      rw [List.getElem?_map, here, Option.map_some]
    have second : ((c.trace actions).sendings.map Prod.fst)[k]? = some x.1 := by
      rw [List.getElem?_map, there, Option.map_some, same]
    obtain ⟨within, found⟩ := List.getElem?_eq_some_iff.mp first
    obtain ⟨inside, again⟩ := List.getElem?_eq_some_iff.mp second
    exact (List.Nodup.getElem_inj_iff relayed.once).mp (found.trans again.symm)

open Rehearsal in
/-- One publication is sent at once and one waits, with no payload and default properties,
until the first is acknowledged. -/
theorem publishes_once_drained :
    ∃ actions, create settings Line.wire = .ok client ∧
      Reaches client actions (client.after actions) ∧
      (client.wire.attemptsSince (client.after actions).wire).map Prod.fst =
        [publication, ⟨"b", [], .atMostOnce, some {}⟩] ∧
      (client.trace actions).PublishesOnce
        (client.wire.attemptsSince (client.after actions).wire) := by
  let actions := connects ++ [.enter 0 publication false,
    .publish ⟨"b", [], .atMostOnce, some {}⟩ .high, .hear (.acknowledged 1 .success)]
  have created : create settings Line.wire = .ok client := rfl
  have run : Reaches client actions (client.after actions) := reaches_after (by decide +kernel)
  exact ⟨actions, created, run, by decide +kernel, publishes_once created run⟩

end Client

end Courier
