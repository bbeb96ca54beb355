import Courier.Proofs.Client.Turn
import Courier.Rehearsal.Line

/-! What happened to a message in a step of a client, told from the action, the
state before it and the publish calls it made. The history of a run is the list
of its steps. -/
namespace Courier

structure Step (σ : Type) where
  before : Client σ
  action : Action σ
  reply : Reply
  after : Client σ
  stepped : before.step action = some (reply, after)

variable {σ : Type}

namespace Step

def take (c : Client σ) (action : Action σ) (possible : (c.step action).isSome = true) :
    Step σ where
  before := c
  action := action
  reply := ((c.step action).get possible).1
  after := ((c.step action).get possible).2
  stepped := (Option.some_get possible).symm

def turn (s : Step σ) : Turn := s.before.turn s.action

theorem turned (s : Step σ) : s.before.Turned s.reply s.after s.turn :=
  Client.step_turned s.stepped

def calls (s : Step σ) : List Call := s.before.wire.callsSince s.after.wire

def attempts (s : Step σ) : List Attempt := s.before.wire.attemptsSince s.after.wire

def accepted (s : Step σ) (p : Publication) (priority : Priority) (sync : Bool) :
    Except ClientFault Message :=
  (s.before.outbox.accept s.before.wire s.before.nextSeq p priority sync).1

def Accepts (s : Step σ) (p : Publication) (m : Message) : Prop :=
  ∃ priority sync late, s.turn = .submits p priority sync late ∧
    s.accepted p priority sync = .ok m

def Drains (s : Step σ) : Prop := s.turn = .begins ∨ ∃ id reason, s.turn = .hears id reason

def Offers (s : Step σ) (m : Message) (result : Except TransportFault PacketId) : Prop :=
  s.Drains ∧ s.before.outbox.Offers s.attempts m result

def Takes (s : Step σ) (p : Publication) (m : Message) (id : PacketId) : Prop :=
  s.Accepts p m ∧ s.attempts = [(p, .ok id)] ∨ s.Offers m (.ok id) ∧ m.publication = p

def Acknowledges (s : Step σ) (m : Message) (id : PacketId) (reason : Reason) : Prop :=
  s.turn = .hears id reason ∧ s.before.outbox.inFlight.get? id = some m

/-- A connection ended while the message, which does not outlive it, was there. -/
def Loses (s : Step σ) (m : Message) : Prop := s.turn = .loses ∧ s.before.outbox.Loses m

def Answers (s : Step σ) (m : Message) (result : Except ClientFault Unit) : Prop :=
  s.reply = some result ∧ ((∃ late, s.turn = .asks m late) ∨
    ∃ p priority late, s.turn = .submits p priority true late ∧ s.accepted p priority true = .ok m)

def Clears (s : Step σ) (m : Message) : Prop := s.turn = .clears ∧ m ∈ s.before.outbox.places

inductive Ends (s : Step σ) (m : Message) : Outcome → Prop where
  | acknowledged {id : PacketId} {reason : Reason} (heard : s.Acknowledges m id reason) :
      Ends s m (.ofReason reason)
  | refused {fault : TransportFault} (offered : s.Offers m (.error fault)) : Ends s m .sendFailed
  | lost (loses : s.Loses m) : Ends s m .connectionLost

/-- The numbers in use when the transport is first asked in this step. -/
def numbersInUse (s : Step σ) : List PacketId :=
  match s.turn with
  | .hears id _ => (s.before.outbox.inFlight.erase id).keys
  | _ => s.before.outbox.inFlight.keys

/-- The transport gave out no number that was in use at that moment. -/
def Fresh (s : Step σ) : Prop := (s.numbersInUse ++ numbersOf s.attempts).Nodup

instance (s : Step σ) : Decidable s.Fresh := inferInstanceAs (Decidable (List.Nodup _))

end Step

abbrev History (σ : Type) := List (Step σ)

namespace History

variable (history : History σ)

def Submitted (p : Publication) (m : Message) : Prop := ∃ s ∈ history, s.Accepts p m

def Taken (p : Publication) (m : Message) (id : PacketId) : Prop := ∃ s ∈ history, s.Takes p m id

def Entered (call : Nat) (p : Publication) : Prop :=
  ∃ s ∈ history, ∃ late, s.action = .enter call p late

def Follows (first : History σ → Prop) (event : Step σ → Prop) : Prop :=
  ∃ past s later, history = past ++ s :: later ∧ first past ∧ event s

variable {history} {s : Step σ} {p : Publication} {m : Message} {id : PacketId}

theorem Submitted.snoc (submitted : history.Submitted p m) (s : Step σ) :
    Submitted (history ++ [s]) p m := by
  obtain ⟨t, member, accepts⟩ := submitted
  exact ⟨t, List.mem_append_left _ member, accepts⟩

theorem submitted_snoc_iff :
    Submitted (history ++ [s]) p m ↔ history.Submitted p m ∨ s.Accepts p m := by
  simp only [Submitted, List.mem_append, List.mem_singleton, or_and_right, exists_or,
    exists_eq_left]

theorem Taken.snoc (taken : history.Taken p m id) (s : Step σ) :
    Taken (history ++ [s]) p m id := by
  obtain ⟨t, member, takes⟩ := taken
  exact ⟨t, List.mem_append_left _ member, takes⟩

theorem Entered.snoc {call : Nat} (entered : history.Entered call p) (s : Step σ) :
    Entered (history ++ [s]) call p := by
  obtain ⟨t, member, enters⟩ := entered
  exact ⟨t, List.mem_append_left _ member, enters⟩

theorem Follows.snoc {first : History σ → Prop} {event : Step σ → Prop}
    (follows : history.Follows first event) (s : Step σ) :
    Follows (history ++ [s]) first event := by
  obtain ⟨past, t, later, rfl, before, happened⟩ := follows
  exact ⟨past, t, later ++ [s], by rw [List.append_assoc, List.cons_append], before, happened⟩

theorem Follows.last {first : History σ → Prop} {event : Step σ → Prop} (before : first history)
    (happens : event s) : Follows (history ++ [s]) first event :=
  ⟨history, s, [], rfl, before, happens⟩

end History

namespace Client

def after (c : Client σ) (actions : List (Action σ)) : Client σ := (c.run? actions).getD c

theorem reaches_after {c : Client σ} {actions : List (Action σ)}
    (possible : (c.run? actions).isSome = true) : Reaches c actions (c.after actions) := by
  obtain ⟨d, taken⟩ := Option.isSome_iff_exists.mp possible
  rw [after, taken]
  exact reaches_iff_run?.mpr taken

/-- A run leads to where the next step is taken. -/
theorem Reaches.take {c d : Client σ} {actions : List (Action σ)} {action : Action σ}
    (run : Reaches c actions d) (possible : (d.step action).isSome = true) :
    Reaches c actions (Step.take d action possible).before :=
  run

def trace (c : Client σ) : List (Action σ) → History σ
  | [] => []
  | action :: rest =>
    match stepped : c.step action with
    | none => []
    | some (reply, d) => ⟨c, action, reply, d, stepped⟩ :: d.trace rest

theorem trace_cons {c d : Client σ} {action : Action σ} {reply : Reply} (rest : List (Action σ))
    (stepped : c.step action = some (reply, d)) :
    c.trace (action :: rest) = ⟨c, action, reply, d, stepped⟩ :: d.trace rest := by
  rw [trace]
  split
  · rename_i refused
    rw [refused] at stepped
    contradiction
  · rename_i other after taken
    cases taken.symm.trans stepped
    rfl

/-- One more action is one more step. -/
theorem Reaches.trace_snoc {c d e : Client σ} {actions : List (Action σ)} {action : Action σ}
    {reply : Reply} (run : Reaches c actions d) (stepped : d.step action = some (reply, e)) :
    c.trace (actions ++ [action]) = c.trace actions ++ [⟨d, action, reply, e, stepped⟩] := by
  have taken := run.run?_eq
  clear run
  induction actions generalizing c with
  | nil =>
    cases taken
    exact trace_cons [] stepped
  | cons first rest ih =>
    obtain ⟨⟨reply', c'⟩, began, further⟩ := Option.bind_eq_some_iff.mp taken
    rw [List.cons_append, trace_cons _ began, trace_cons _ began, ih further, List.cons_append]

/-- An induction over runs that sees the history, and what holds of every run so far. -/
theorem Reaches.induct_run {c d : Client σ} {actions : List (Action σ)}
    {P : History σ → Client σ → Prop} (run : Reaches c actions d) (start : P [] c)
    (extend : ∀ (actions : List (Action σ)) (s : Step σ), Reaches c actions s.before →
      P (c.trace actions) s.before → P (c.trace actions ++ [s]) s.after) :
    P (c.trace actions) d := by
  induction run with
  | nil => exact start
  | snoc run stepped ih =>
    rw [run.trace_snoc stepped]
    exact extend _ ⟨_, _, _, _, stepped⟩ run ih

theorem Reaches.induct {c d : Client σ} {actions : List (Action σ)}
    {P : History σ → Client σ → Prop} (run : Reaches c actions d) (start : P [] c)
    (extend : ∀ (history : History σ) (s : Step σ), P history s.before →
      P (history ++ [s]) s.after) : P (c.trace actions) d :=
  run.induct_run start fun actions s _ => extend (c.trace actions) s

/-- Every step of a run is taken in a state the run has led to. -/
theorem Reaches.before {c d : Client σ} {actions : List (Action σ)} (run : Reaches c actions d) :
    ∀ s ∈ c.trace actions, ∃ earlier, Reaches c earlier s.before := by
  refine run.induct_run (P := fun history _ => ∀ s ∈ history, ∃ earlier, Reaches c earlier s.before)
    (List.forall_mem_nil _) ?_
  intro actions s led past
  rw [List.forall_mem_append, List.forall_mem_singleton]
  exact ⟨past, actions, led⟩

end Client

namespace Rehearsal

def settings : Options := { clientId := "c", capacity := 2, inFlightLimit := 1 }

def client : Client Line where
  terms := Client.sessionTerms settings
  onMessage := false
  onConnected := false
  shared := { outbox := { slots := ⟨2, [0, 1], ∅⟩, inFlightLimit := 1 } }
  wire := Line.wire
  retry := { step := .ofSecs 1, longest := .ofSecs 30 }

def connects : List (Action Line) :=
  [.drift { reachable := ["h:1"] }, .addBroker 0 "h" 1, .advance, .advance, .advance, .advance,
    .advance, .advance, .advance, .hear (.connected (.ok ()))]

def publication : Publication := ⟨"a", [1], .atLeastOnce, none⟩

end Rehearsal

end Courier
