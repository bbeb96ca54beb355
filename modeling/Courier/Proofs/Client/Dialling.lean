import Courier.Proofs.Client.Course

/-! Which brokers are dialled. A round reads the table of candidates twice: to see whether the
broker in use is still registered, and to list them all. The client knows the broker in use by
its registration and the transport by its address, so the two part when the registration is
given another address. -/
namespace Courier

variable {σ : Type}

def Call.connected? : Call → Option Broker
  | connect broker _ (.ok _) => some broker
  | _ => none

namespace Wire

variable {v w : Wire σ} {kind : Call → Prop}

/-- The broker of the last successful `connect`, which `reconnect` dials. -/
def redial (w : Wire σ) : Option Broker := (w.calls.filterMap Call.connected?).getLast?

theorem redial_after (w : Wire σ) (s : σ) (call : Call) :
    (w.after s call).redial = call.connected?.or w.redial := by
  simp only [redial, after, List.filterMap_append]
  cases reached : call.connected? with
  | none => simp [reached]
  | some broker => simp [reached]

theorem connect_redial {broker : Broker} {terms : SessionTerms}
    {result : Except TransportFault Unit} (told : w.connect broker terms = (result, v)) :
    v.redial = (Call.connect broker terms result).connected?.or w.redial := by
  cases told
  exact w.redial_after _ _

theorem Extends.redial (extended : v.Extends w kind)
    (other : ∀ call, kind call → call.connected? = none) : w.redial = v.redial := by
  obtain ⟨more, calls, all⟩ := extended
  have none : more.filterMap Call.connected? = [] := by
    apply List.filterMap_eq_nil_iff.mpr
    intro call made
    exact other call (all call made)
  simp only [Wire.redial, calls, List.filterMap_append, none, List.append_nil]

theorem InSession.redial (calls : v.InSession w) : w.redial = v.redial := by
  apply Extends.redial calls
  intro call needs
  cases call with
  | connect => contradiction
  | _ => rfl

theorem redial_of_farewells (calls : v.Extends w Call.IsFarewell) : w.redial = v.redial := by
  apply calls.redial
  intro call farewell
  cases call with
  | connect => contradiction
  | _ => rfl

end Wire

/-- The network thread goes by what it has read. -/
def Network.holds : Network → Bool
  | reconnecting | dialling _ _ | reached _ => true
  | _ => false

theorem Network.Makes.unconnected {n : Network} {call : Call} (makes : n.Makes call)
    (other : ∀ rest last, n ≠ .dialling rest last) : call.connected? = none := by
  unfold Network.Makes at makes
  split at makes
  · exact absurd rfl (other _ _)
  · rfl
  · rfl
  · contradiction

theorem Network.Makes.connect {n : Network} {b : Broker} {terms : SessionTerms}
    {result : Except TransportFault Unit} (makes : n.Makes (.connect b terms result)) :
    ∃ id rest last, n = .dialling ((id, b) :: rest) last := by
  cases n with
  | dialling rest last =>
    cases rest with
    | nil => contradiction
    | cons candidate rest =>
      have same : b = candidate.2 := makes
      exact ⟨candidate.1, rest, last, by rw [same]⟩
  | _ => contradiction

theorem Network.Makes.reconnect {n : Network} {result : Except TransportFault Unit}
    (makes : n.Makes (.reconnect result)) : n = .reconnecting := by
  cases n with
  | reconnecting => rfl
  | dialling rest last => cases rest <;> contradiction
  | _ => contradiction

namespace Client

variable {c : Client σ}

/-- The registration under which the transport's last broker was dialled. -/
def inUse (c : Client σ) : Option BrokerId :=
  match c.network with
  | .reached id => some id
  | _ => c.shared.lastReached

theorem inUse_of_not_holds (free : c.network.holds = false) : c.inUse = c.shared.lastReached := by
  unfold inUse
  split
  · rename_i here
    rw [here] at free
    contradiction
  · rfl

theorem advance_redial (other : ∀ rest last, c.network ≠ .dialling rest last) :
    c.advance.wire.redial = c.wire.redial :=
  c.advance_makes.redial fun _ makes => makes.unconnected other

/-- Where the network thread neither reads nor goes by what it has read, it begins nothing
of the kind. -/
theorem advance_free (free : c.network.holds = false) (ready : c.network ≠ .choosing)
    (unlisted : c.network ≠ .listing) :
    c.advance.network.holds = false ∧ c.advance.shared.lastReached = c.shared.lastReached := by
  cases here : c.network with
  | choosing | listing => contradiction
  | reconnecting | dialling | reached =>
    rw [here] at free
    contradiction
  | resting pause =>
    simp only [advance, here, beginRound]
    split
    · exact ⟨rfl, rfl⟩
    · split <;> exact ⟨rfl, rfl⟩
  | settling accepted =>
    simp only [advance, here, settleRound]
    split
    · exact ⟨rfl, rfl⟩
    · split <;> exact ⟨rfl, rfl⟩
  | opened | entering | ended =>
    simp only [advance, here]
    split <;> simp [Network.holds]
  | _ => simp [advance, here, Network.holds, Shared.endSession]

end Client

namespace Step

variable {s : Step σ} {id : BrokerId} {b : Broker}

/-- A broker is dialled: it is named, or it is the one the transport dials again. -/
def Dials (s : Step σ) (b : Broker) : Prop :=
  (∃ terms result, .connect b terms result ∈ s.calls) ∨
    (∃ result, .reconnect result ∈ s.calls) ∧ s.before.wire.redial = some b

def reads (s : Step σ) : Bool :=
  match s.action, s.before.network with
  | .advance, .choosing | .advance, .listing => true
  | _, _ => false

def Registers (s : Step σ) (id : BrokerId) (b : Broker) : Prop :=
  s.action = .addBroker id b.host b.port ∧ s.reply = some (.ok ())

theorem unread (apart : s.action = .advance →
    s.before.network ≠ .choosing ∧ s.before.network ≠ .listing) : s.reads = false := by
  apply Bool.eq_false_iff.mpr
  intro reads
  unfold Step.reads at reads
  split at reads
  · rename_i doing here
    exact (apart doing).1 here
  · rename_i doing here
    exact (apart doing).2 here
  · contradiction

/-- The table itself is left alone by whoever reads it. -/
theorem brokers_of_reads (reads : s.reads = true) :
    s.after.shared.brokers = s.before.shared.brokers := by
  unfold Step.reads at reads
  split at reads
  · rename_i doing here
    simp only [advanced doing, Client.advance, here, Client.chooseBroker]
    split <;> rfl
  · rename_i doing here
    simp only [advanced doing, Client.advance, here]
  · contradiction

/-- A registration that is there after a step was there before, or is new. -/
theorem brokers_arrive (found : s.after.shared.brokers.get? id = some b) :
    s.before.shared.brokers.get? id = some b ∨ s.Registers id b := by
  have moves := s.moves
  have still : s.after.shared.brokers = s.before.shared.brokers →
      s.before.shared.brokers.get? id = some b ∨ s.Registers id b := by
    intro same
    rw [same] at found
    exact .inl found
  generalize doing : s.action = action at moves
  cases moves with
  | bypasses other bypasses => exact still (congrArg Course.brokers bypasses.course)
  | @adds key host port answer after =>
    rw [after] at found
    rw [Table.get?_insert] at found
    split at found
    · rename_i same
      cases same
      cases found
      exact .inr ⟨doing, answer⟩
    · exact .inl found
  | @removes key after =>
    rw [after] at found
    simp only [Client.removeBroker, Table.get?_erase] at found
    split at found
    · contradiction
    · exact .inl found
  | advances after =>
    rw [after] at still
    exact still (congrArg Course.brokers s.before.advance_course)
  | wakes _ after | leaves _ after => exact still (after ▸ rfl)
  | shuts after =>
    rw [after] at still
    exact still (congrArg Course.brokers s.before.shutDown_course)

end Step

namespace History

def listed (history : History σ) : Table BrokerId Broker :=
  history.foldl (fun seen s => if s.reads then s.before.shared.brokers else seen) ∅

def Registered (history : History σ) (b : Broker) : Prop := ∃ id, history.listed.get? id = some b

/-- Since this broker was read under a registration, that has been given another one. -/
def Replaced (history : History σ) (id : BrokerId) (b : Broker) : Prop :=
  ∃ first r since, history = first ++ r :: since ∧ r.reads = true ∧
    r.before.shared.brokers.get? id = some b ∧
    ∃ t ∈ since, ∃ other, t.Registers id other ∧ other ≠ b

/-- This broker was read under a registration, and what stands there now is the same, or has
been given since. -/
def Knows (history : History σ) (brokers : Table BrokerId Broker) (id : BrokerId) (b : Broker) :
    Prop :=
  ∃ first r since, history = first ++ r :: since ∧ r.reads = true ∧
    r.before.shared.brokers.get? id = some b ∧
    ∀ other, brokers.get? id = some other → other = b ∨ ∃ t ∈ since, t.Registers id other

variable {history : History σ} {s : Step σ} {id : BrokerId} {b other : Broker}
  {brokers : Table BrokerId Broker}

theorem listed_snoc (history : History σ) (s : Step σ) : listed (history ++ [s]) =
    if s.reads then s.before.shared.brokers else history.listed := by
  simp only [listed, List.foldl_append, List.foldl_cons, List.foldl_nil]

theorem Replaced.snoc (replaced : history.Replaced id b) (s : Step σ) :
    Replaced (history ++ [s]) id b := by
  obtain ⟨first, r, since, rfl, reads, found, t, later, registers⟩ := replaced
  refine ⟨first, r, since ++ [s], ?_, reads, found, t, ?_, registers⟩
  · rw [List.append_assoc, List.cons_append]
  · exact List.mem_append_left _ later

theorem Knows.replaced (knows : history.Knows brokers id b)
    (found : brokers.get? id = some other) (apart : other ≠ b) : history.Replaced id b := by
  obtain ⟨first, r, since, parts, reads, known, now⟩ := knows
  rcases now other found with same | ⟨t, later, registers⟩
  · contradiction
  · exact ⟨first, r, since, parts, reads, known, t, later, other, registers, apart⟩

theorem Knows.snoc (knows : history.Knows s.before.shared.brokers id b) :
    Knows (history ++ [s]) s.after.shared.brokers id b := by
  obtain ⟨first, r, since, rfl, reads, known, now⟩ := knows
  refine ⟨first, r, since ++ [s], ?_, reads, known, ?_⟩
  · rw [List.append_assoc, List.cons_append]
  · intro other found
    rcases Step.brokers_arrive found with before | registers
    · rcases now other before with same | ⟨t, later, registers⟩
      · exact .inl same
      · exact .inr ⟨t, List.mem_append_left _ later, registers⟩
    · exact .inr ⟨s, List.mem_append_right _ (List.mem_singleton_self s), registers⟩

/-- What has just been read is known. -/
theorem knows_of_reads (reads : s.reads = true)
    (found : s.before.shared.brokers.get? id = some b) :
    Knows (history ++ [s]) s.after.shared.brokers id b := by
  refine ⟨history, s, [], rfl, reads, found, ?_⟩
  intro other now
  rw [Step.brokers_of_reads reads, found] at now
  exact .inl (Option.some.inj now).symm

end History

/-- What the network thread is about to dial agrees with what it has read. -/
structure Mapped (history : History σ) (c : Client σ) : Prop where
  candidates : ∀ rest last, c.network = .dialling rest last → ∀ id b, (id, b) ∈ rest →
    history.listed.get? id = some b ∧ history.Knows c.shared.brokers id b
  inUse : ∀ id, c.inUse = some id →
    ∃ b, c.wire.redial = some b ∧ history.Knows c.shared.brokers id b
  again : c.network = .reconnecting → ∃ id b, c.shared.lastReached = some id ∧
    c.wire.redial = some b ∧ (history.listed.get? id = some b ∨ history.Replaced id b)

namespace Mapped

variable {history : History σ} {s : Step σ}

theorem inUse_after (mapped : Mapped history s.before)
    (redial : s.after.wire.redial = s.before.wire.redial)
    (inUse : s.after.inUse = s.before.inUse) : ∀ id, s.after.inUse = some id →
      ∃ b, s.after.wire.redial = some b ∧
        History.Knows (history ++ [s]) s.after.shared.brokers id b := by
  intro id used
  rw [inUse] at used
  obtain ⟨b, dialled, knows⟩ := mapped.inUse id used
  rw [redial]
  exact ⟨b, dialled, knows.snoc⟩

/-- A step that neither reads nor dials keeps it. -/
theorem keep (mapped : Mapped history s.before) (unread : s.reads = false)
    (redial : s.after.wire.redial = s.before.wire.redial) (inUse : s.after.inUse = s.before.inUse)
    (rest : ∀ rest last, s.after.network = .dialling rest last →
      ∃ more earlier, s.before.network = .dialling more earlier ∧ rest ⊆ more)
    (again : s.after.network = .reconnecting → s.before.network = .reconnecting ∧
      s.after.shared.lastReached = s.before.shared.lastReached) :
    Mapped (history ++ [s]) s.after := by
  have listed : History.listed (history ++ [s]) = history.listed := by
    rw [History.listed_snoc, unread, if_neg Bool.false_ne_true]
  constructor
  · intro left last here id b member
    obtain ⟨more, earlier, before, kept⟩ := rest left last here
    obtain ⟨found, knows⟩ := mapped.candidates more earlier before id b (kept member)
    rw [listed]
    exact ⟨found, knows.snoc⟩
  · exact mapped.inUse_after redial inUse
  · intro here
    obtain ⟨before, same⟩ := again here
    obtain ⟨id, b, last, dialled, found⟩ := mapped.again before
    rw [same, redial, listed]
    exact ⟨id, b, last, dialled, found.imp_right fun replaced => replaced.snoc s⟩

/-- Nothing that was read is held on to any longer. -/
theorem letGo (mapped : Mapped history s.before) (unread : s.reads = false)
    (redial : s.after.wire.redial = s.before.wire.redial) (inUse : s.after.inUse = s.before.inUse)
    (after : s.after.network.holds = false) : Mapped (history ++ [s]) s.after := by
  apply mapped.keep unread redial inUse
  · intro rest fault here
    rw [here] at after
    contradiction
  · intro here
    rw [here] at after
    contradiction

theorem free_after (mapped : Mapped history s.before) (unread : s.reads = false)
    (redial : s.after.wire.redial = s.before.wire.redial)
    (last : s.after.shared.lastReached = s.before.shared.lastReached)
    (before : s.before.network.holds = false) (after : s.after.network.holds = false) :
    Mapped (history ++ [s]) s.after := by
  apply mapped.letGo unread redial _ after
  rw [Client.inUse_of_not_holds after, Client.inUse_of_not_holds before, last]

theorem still_after (mapped : Mapped history s.before) (unread : s.reads = false)
    (redial : s.after.wire.redial = s.before.wire.redial)
    (last : s.after.shared.lastReached = s.before.shared.lastReached)
    (network : s.after.network = s.before.network) : Mapped (history ++ [s]) s.after := by
  apply mapped.keep unread redial
  · simp only [Client.inUse, network, last]
  · intro rest fault here
    rw [network] at here
    exact ⟨rest, fault, here, List.Subset.refl rest⟩
  · intro here
    rw [network] at here
    exact ⟨here, last⟩

/-- The broker in use is looked up by its registration. -/
theorem chosen (mapped : Mapped history s.before) (doing : s.action = .advance)
    (here : s.before.network = .choosing) : Mapped (history ++ [s]) s.after := by
  have reads : s.reads = true := by simp only [Step.reads, doing, here]
  have listed : History.listed (history ++ [s]) = s.before.shared.brokers := by
    rw [History.listed_snoc, if_pos reads]
  have used : s.before.inUse = s.before.shared.lastReached := by
    simp only [Client.inUse, here]
  have after := Step.advanced doing
  simp only [Client.advance, here, Client.chooseBroker] at after
  constructor
  · intro rest fault now
    rw [after] at now
    split at now <;> cases now
  · apply mapped.inUse_after
    · rw [after]
      split <;> rfl
    · rw [used, after]
      split <;> rfl
  · intro now
    by_cases registered :
        s.before.shared.lastReached.any s.before.shared.brokers.contains = true
    · rw [if_pos registered] at after
      obtain ⟨id, last, present⟩ := Option.any_eq_true _ _ |>.mp registered
      obtain ⟨other, found⟩ := Option.isSome_iff_exists.mp present
      obtain ⟨b, dialled, knows⟩ := mapped.inUse id (used.trans last)
      rw [after, listed]
      refine ⟨id, b, last, dialled, ?_⟩
      -- The registration is there, but perhaps with another broker than was dialled under it.
      by_cases same : other = b
      · rw [found, same]
        exact .inl rfl
      · exact .inr ((knows.replaced found same).snoc s)
    · rw [after, if_neg registered] at now
      cases now

/-- The candidates are listed as they are registered. -/
theorem listed (mapped : Mapped history s.before) (doing : s.action = .advance)
    (here : s.before.network = .listing) : Mapped (history ++ [s]) s.after := by
  have reads : s.reads = true := by simp only [Step.reads, doing, here]
  have after := Step.advanced doing
  simp only [Client.advance, here] at after
  constructor
  · intro rest fault now id b member
    rw [after] at now
    cases now
    have found := Table.get?_eq_some_iff.mpr member
    rw [History.listed_snoc, if_pos reads]
    exact ⟨found, History.knows_of_reads reads found⟩
  · apply mapped.inUse_after
    · rw [after]
    · simp only [Client.inUse, after, here]
  · intro now
    rw [after] at now
    cases now

/-- One candidate is dialled. -/
theorem dialled (mapped : Mapped history s.before) (doing : s.action = .advance)
    {rest : List (BrokerId × Broker)} {last : TransportFault}
    (here : s.before.network = .dialling rest last) : Mapped (history ++ [s]) s.after := by
  have unread : s.reads = false := by simp only [Step.reads, doing, here]
  have after := Step.advanced doing
  simp only [Client.advance, here] at after
  cases rest with
  | nil =>
    simp only [Client.dial] at after
    apply mapped.letGo unread
    · rw [after]
    · simp only [Client.inUse, after, here]
    · simp only [after, Network.holds]
  | cons candidate rest =>
    obtain ⟨id, broker⟩ := candidate
    cases told : s.before.wire.connect broker s.before.terms with
    | mk result w =>
      simp only [Client.dial, told] at after
      have redial := Wire.connect_redial told
      cases result with
      | error fault =>
        apply mapped.keep unread
        · rw [after]
          exact redial
        · simp only [Client.inUse, after, here]
        · intro more later now
          rw [after] at now
          cases now
          exact ⟨_, _, here, List.subset_cons_self _ _⟩
        · intro now
          rw [after] at now
          cases now
      | ok _ =>
        have knows := (mapped.candidates _ _ here id broker List.mem_cons_self).2
        constructor
        · intro more later now
          rw [after] at now
          cases now
        · intro key used
          simp only [Client.inUse, after] at used
          cases used
          refine ⟨broker, ?_, knows.snoc⟩
          rw [after]
          exact redial
        · intro now
          rw [after] at now
          cases now

/-- The transport dials its last broker again. -/
theorem dialledAgain (mapped : Mapped history s.before) (doing : s.action = .advance)
    (here : s.before.network = .reconnecting) : Mapped (history ++ [s]) s.after := by
  have unread : s.reads = false := by simp only [Step.reads, doing, here]
  have after := Step.advanced doing
  have redial : s.after.wire.redial = s.before.wire.redial := by
    rw [after]
    apply Client.advance_redial
    simp [here]
  simp only [Client.advance, here, Client.dialAgain] at after
  apply mapped.letGo unread redial
  · rw [after]
    split <;> simp only [Client.inUse, here]
  · rw [after]
    split <;> rfl

/-- The candidate that was reached becomes the broker in use. -/
theorem noted (mapped : Mapped history s.before) (doing : s.action = .advance) {id : BrokerId}
    (here : s.before.network = .reached id) : Mapped (history ++ [s]) s.after := by
  have unread : s.reads = false := by simp only [Step.reads, doing, here]
  have after := Step.advanced doing
  simp only [Client.advance, here] at after
  apply mapped.letGo unread
  · rw [after]
  · simp only [Client.inUse, after, here]
  · simp only [after, Network.holds]

theorem advanced (mapped : Mapped history s.before) (doing : s.action = .advance) :
    Mapped (history ++ [s]) s.after := by
  have free : s.before.network.holds = false → s.before.network ≠ .choosing →
      s.before.network ≠ .listing → Mapped (history ++ [s]) s.after := by
    intro free ready unlisted
    obtain ⟨after, last⟩ := Client.advance_free free ready unlisted
    rw [← Step.advanced doing] at after last
    apply mapped.free_after _ _ last free after
    · exact Step.unread fun _ => ⟨ready, unlisted⟩
    · rw [Step.advanced doing]
      apply Client.advance_redial
      intro rest fault here
      rw [here] at free
      contradiction
  cases here : s.before.network with
  | choosing => exact mapped.chosen doing here
  | listing => exact mapped.listed doing here
  | reconnecting => exact mapped.dialledAgain doing here
  | dialling rest last => exact mapped.dialled doing here
  | reached id => exact mapped.noted doing here
  | _ =>
    rw [here] at free
    exact free rfl nofun nofun

/-- Whatever happens to the client. -/
theorem after (mapped : Mapped history s.before) : Mapped (history ++ [s]) s.after := by
  by_cases advances : s.action = .advance
  · exact mapped.advanced advances
  have unread : s.reads = false := Step.unread fun doing => absurd doing advances
  have moves := s.moves
  generalize s.action = action at moves advances
  cases moves with
  | bypasses _ bypasses =>
    exact mapped.still_after unread bypasses.calls.redial
      (congrArg Course.lastReached bypasses.course) bypasses.network
  | adds _ after => apply mapped.still_after unread <;> simp only [after]
  | removes after =>
    apply mapped.still_after unread <;> simp only [after, Client.removeBroker]
  | advances => contradiction
  | wakes here after =>
    apply mapped.free_after unread
    · rw [after]
    · rw [after]
    · simp only [here, Network.holds]
    · simp only [after, Network.holds]
  | @leaves failed here after =>
    apply mapped.free_after unread
    · rw [after]
    · rw [after]
    · simp only [here, Network.holds]
    · cases failed <;> simp [after, Network.holds]
  | shuts after =>
    have course := s.before.shutDown_course
    rw [← after] at course
    apply mapped.still_after unread _ (congrArg Course.lastReached course)
      (congrArg Course.network course)
    have farewells := s.before.shutDown_farewells
    rw [← after] at farewells
    exact Wire.redial_of_farewells farewells

end Mapped

namespace Step

variable {s : Step σ} {past : History σ} {b : Broker}

/-- Only the network thread dials. -/
theorem dials_cases (dials : s.Dials b) : s.action = .advance ∧
    ((∃ id rest last, s.before.network = .dialling ((id, b) :: rest) last) ∨
      s.before.network = .reconnecting ∧ s.before.wire.redial = some b) := by
  rcases dials with ⟨terms, result, made⟩ | ⟨⟨result, made⟩, redial⟩
  · rcases s.calls_by _ made with needs | ⟨doing, makes⟩ | ⟨_, farewell⟩
    · contradiction
    · exact ⟨doing, .inl makes.connect⟩
    · exact absurd farewell id
  · rcases s.calls_by _ made with needs | ⟨doing, makes⟩ | ⟨_, farewell⟩
    · contradiction
    · exact ⟨doing, .inr ⟨makes.reconnect, redial⟩⟩
    · exact absurd farewell id

theorem reconnects (doing : s.action = .advance) (here : s.before.network = .reconnecting) :
    ∃ result, .reconnect result ∈ s.calls := by
  have after := advanced doing
  simp only [Client.advance, here, Client.dialAgain] at after
  have calls : s.after.wire.calls =
      s.before.wire.calls ++ [.reconnect s.before.wire.reconnect.1] := by
    rw [after]
    unfold Wire.reconnect
    obtain ⟨result, state⟩ := s.before.wire.transport.reconnect s.before.wire.state
    cases result <;> rfl
  refine ⟨s.before.wire.reconnect.1, ?_⟩
  rw [Step.calls, Wire.callsSince_of_append calls]
  exact List.mem_singleton_self _

/-- The broker in use is dialled where it was registered before, though its registration has
been given another broker since and none of the candidates is that one. -/
def Strays (s : Step σ) (past : History σ) : Prop :=
  s.action = .advance ∧ s.before.network = .reconnecting ∧
    ∃ id b, s.before.shared.lastReached = some id ∧ s.before.wire.redial = some b ∧
      past.Replaced id b ∧ ¬past.Registered b

end Step

namespace Client

variable {c d : Client σ} {options : Options} {wire : Wire σ} {actions : List (Action σ)}

theorem Reaches.mapped (created : create options wire = .ok c) (run : Reaches c actions d) :
    Mapped (c.trace actions) d := by
  refine run.induct ?_ fun _ _ => Mapped.after
  obtain ⟨slots, _, rfl⟩ := eq_of_create created
  exact ⟨nofun, nofun, nofun⟩

/-- However brokers come, go and change between the rounds of a run and during them: every
broker that is dialled was a candidate when they were read last, unless the broker in use is
dialled again after its registration has been given another one. -/
theorem dials_registered_iff (created : create options wire = .ok c)
    (run : Reaches c actions d) :
    (∀ (past : History σ) s later, c.trace actions = past ++ s :: later →
      ∀ b, s.Dials b → past.Registered b) ↔
    ∀ past s later, c.trace actions = past ++ s :: later → ¬s.Strays past := by
  constructor
  · rintro registered past s later parts ⟨doing, here, id, b, _, redial, _, unregistered⟩
    have dials : s.Dials b := .inr ⟨Step.reconnects doing here, redial⟩
    exact unregistered (registered past s later parts b dials)
  · intro loyal past s later parts b dials
    obtain ⟨earlier, led, rfl⟩ := run.split parts
    have mapped := led.mapped created
    obtain ⟨doing, ⟨id, rest, last, here⟩ | ⟨here, redial⟩⟩ := Step.dials_cases dials
    · exact ⟨id, (mapped.candidates _ _ here id b List.mem_cons_self).1⟩
    · -- Only here the client goes by the registration and the transport by the address.
      obtain ⟨id, other, last, dialled, found⟩ := mapped.again here
      cases redial.symm.trans dialled
      rcases found with listed | replaced
      · exact ⟨id, listed⟩
      · by_contra unregistered
        exact loyal _ s later parts ⟨doing, here, id, b, last, redial, replaced, unregistered⟩

open Rehearsal in
/-- The connection is lost, and the broker in use is dialled again. -/
theorem dials_registered_iff_again :
    ∃ actions, ∃ s ∈ client.trace actions, create settings Line.wire = .ok client ∧
      Reaches client actions s.after ∧ (∃ result, .reconnect result ∈ s.calls) ∧
      s.Dials ⟨"h", 1⟩ ∧
      ((∀ (past : History Line) s later, client.trace actions = past ++ s :: later →
        ∀ b, s.Dials b → past.Registered b) ↔
      ∀ past s later, client.trace actions = past ++ s :: later → ¬s.Strays past) := by
  let earlier := connects ++ [.leaveLoop true, .advance, .advance, .advance, .advance, .advance,
    .advance]
  let s := Step.take (client.after earlier) .advance (by decide +kernel)
  have created : create settings Line.wire = .ok client := rfl
  have run : Reaches client earlier s.before := (reaches_after (by decide +kernel)).take _
  have here : s.before.network = .reconnecting := by decide +kernel
  have again : ∃ result, .reconnect result ∈ s.calls := Step.reconnects rfl here
  have dials : s.Dials ⟨"h", 1⟩ := .inr ⟨again, by decide +kernel⟩
  have member : s ∈ client.trace (earlier ++ [s.action]) := by
    rw [run.trace_snoc s.stepped]
    exact List.mem_append_right _ (List.mem_singleton_self s)
  have further := run.snoc s.stepped
  exact ⟨earlier ++ [s.action], s, member, created, further, again, dials,
    dials_registered_iff created further⟩

open Rehearsal in
/-- The broker in use is given another address and the connection is lost: the next round
dials the address nobody has registered any more. -/
theorem replaced_broker_dialled :
    ∃ actions, ∃ s : Step Line, create settings Line.wire = .ok client ∧
      Reaches client actions s.before ∧ s.Dials ⟨"h", 1⟩ ∧
      (client.trace actions).Registered ⟨"g", 2⟩ ∧
      ¬(client.trace actions).Registered ⟨"h", 1⟩ := by
  let actions := connects ++ [.addBroker 0 "g" 2, .leaveLoop true, .advance, .advance, .advance,
    .advance, .advance, .advance]
  let s := Step.take (client.after actions) .advance (by decide +kernel)
  have created : create settings Line.wire = .ok client := rfl
  have run : Reaches client actions s.before := (reaches_after (by decide +kernel)).take _
  have here : s.before.network = .reconnecting := by decide +kernel
  have dials : s.Dials ⟨"h", 1⟩ := .inr ⟨Step.reconnects rfl here, by decide +kernel⟩
  have listed : (client.trace actions).listed.entries = [(0, ⟨"g", 2⟩)] := by decide +kernel
  refine ⟨actions, s, created, run, dials, ⟨0, ?_⟩, ?_⟩
  · rw [Table.get?_eq_some_iff, listed]
    exact List.mem_singleton_self _
  · rintro ⟨id, found⟩
    rw [Table.get?_eq_some_iff, listed] at found
    simp at found

end Client

end Courier
