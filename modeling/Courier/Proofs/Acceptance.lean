import Courier.Client.State
import Courier.Proofs.Filters
import Courier.Rehearsal.Line

/-! Which options are accepted, and that what a session is opened with then fits its fields on the
wire. The session expiry is bounded in whole seconds, while the delay of the last will is twice
the whole of it, with a carry from the nanoseconds. -/
namespace Courier

namespace Duration

theorem eq_of_toNanos {a b : Duration} (same : a.toNanos = b.toNanos) : a = b := by
  obtain ⟨secs, nanos, _, few⟩ := a
  obtain ⟨secs', nanos', _, few'⟩ := b
  simp only [toNanos, perSecond] at same
  have parts : secs = secs' ∧ nanos = nanos' := by omega
  obtain ⟨rfl, rfl⟩ := parts
  rfl

theorem toNanos_pos_iff {d : Duration} : 0 < d.toNanos ↔ d ≠ .zero := by
  rw [Nat.pos_iff_ne_zero]
  apply not_congr
  constructor
  · exact fun none => eq_of_toNanos none
  · rintro rfl
    rfl

/-- Twice a time of at most so many seconds has its seconds in 32 bits, whatever is carried. -/
theorem times?_two {d : Duration} (bounded : d.secs ≤ 2147483647) :
    ∃ e, d.times? 2 = some e ∧ e.toNanos = 2 * d.toNanos ∧ e.secs < 4294967296 := by
  have nanos := d.nanos_lt
  have carried : d.secs * 2 + d.nanos * 2 / 1000000000 < 4294967296 := by omega
  have fits : d.secs * 2 + d.nanos * 2 / 1000000000 < 18446744073709551616 := by omega
  have doubled : d.times? 2 = some ⟨d.secs * 2 + d.nanos * 2 / 1000000000,
      d.nanos * 2 % 1000000000, fits, Nat.mod_lt _ (by decide)⟩ := dif_pos fits
  exact ⟨_, doubled, (toNanos_times? doubled).trans (Nat.mul_comm _ _), carried⟩

end Duration

/-- The will a session is opened with, for one that was asked for: it goes to the same topic with
the same properties and says no more, and the broker holds it back for twice the expiry. -/
structure Will.Sealed (asked : Will) (expiry : Duration) (sent : Will) : Prop where
  topic : sent.topic = asked.topic
  properties : sent.properties = asked.properties
  payload : sent.payload = []
  qos : sent.qos = .atLeastOnce
  unretained : sent.retain = false
  delay : sent.delay.toNanos = 2 * expiry.toNanos
  fits : sent.delay.secs < 4294967296

namespace Options

variable {o : Options}

structure Acceptable (o : Options) : Prop where
  named : o.clientId ≠ ""
  capacity : 1 ≤ o.capacity ∧ o.capacity ≤ 2048
  inFlightLimit : 1 ≤ o.inFlightLimit ∧ o.inFlightLimit ≤ 2048
  sessionExpiry : 1 ≤ o.sessionExpiry.secs ∧ o.sessionExpiry.secs ≤ 2147483647
  keepAlive : 1 ≤ o.keepAlive.secs ∧ o.keepAlive.secs ≤ 65535
  reconnect : 0 < o.reconnectStep.toNanos ∧ o.reconnectStep.toNanos ≤ o.reconnectMax.toNanos
  will : ∀ will, o.will = some will →
    Topic.WellFormed will.topic ∧ Topic.patternWildcard ∉ will.topic.toList

/-- A check lets pass what has no fault of its own and passes the checks behind it. -/
theorem passes_iff {P : Prop} [Decidable P] {fault : OptionsFault}
    {rest : Except OptionsFault Unit} :
    (if P then .error fault else rest) = .ok () ↔ ¬P ∧ rest = .ok () := by
  by_cases faulty : P
  · rw [if_pos faulty]
    exact ⟨nofun, fun passed => absurd faulty passed.1⟩
  · rw [if_neg faulty]
    exact (and_iff_right faulty).symm

theorem checkWill_iff {will : Will} :
    (Topic.checkPublish will.topic).mapError OptionsFault.willTopic = .ok () ↔
      Topic.WellFormed will.topic ∧ Topic.patternWildcard ∉ will.topic.toList := by
  rw [← Topic.checkPublish_eq_ok_iff]
  cases Topic.checkPublish will.topic with
  | error fault => exact ⟨nofun, nofun⟩
  | ok _ => exact ⟨fun _ => rfl, fun _ => rfl⟩

theorem check_eq_ok_iff : o.check = .ok () ↔ o.Acceptable := by
  have delays : ¬(o.reconnectStep = .zero ∨ ¬o.reconnectStep ≤ o.reconnectMax) ↔
      0 < o.reconnectStep.toNanos ∧ o.reconnectStep.toNanos ≤ o.reconnectMax.toNanos := by
    rw [not_or, Decidable.not_not, Duration.toNanos_pos_iff, Duration.le_iff_toNanos_le]
  unfold check
  rw [passes_iff, passes_iff, passes_iff, passes_iff, passes_iff, passes_iff, delays]
  simp only [not_or, Nat.not_lt, String.isEmpty_iff]
  constructor
  · rintro ⟨named, capacity, inFlightLimit, sessionExpiry, keepAlive, reconnect, passed⟩
    refine ⟨named, capacity, inFlightLimit, sessionExpiry, keepAlive, reconnect, ?_⟩
    intro asked will
    rw [will] at passed
    exact checkWill_iff.mp passed
  · rintro ⟨named, capacity, inFlightLimit, sessionExpiry, keepAlive, reconnect, passed⟩
    refine ⟨named, capacity, inFlightLimit, sessionExpiry, keepAlive, reconnect, ?_⟩
    cases will : o.will with
    | none => rfl
    | some asked => exact checkWill_iff.mpr (passed asked will)

theorem lastWill_of_none (unasked : o.will = none) : o.lastWill = none := by
  rw [lastWill, unasked]
  rfl

theorem lastWill_of_bounded {asked : Will} (bounded : o.sessionExpiry.secs ≤ 2147483647)
    (will : o.will = some asked) :
    ∃ sent, o.lastWill = some sent ∧ asked.Sealed o.sessionExpiry sent := by
  obtain ⟨delay, doubled, exact, fits⟩ := Duration.times?_two bounded
  refine ⟨{ asked with payload := [], qos := .atLeastOnce, retain := false, delay }, ?_, ?_⟩
  · rw [lastWill, will, Option.bind_eq_bind, Option.bind_some, doubled]
    rfl
  · exact ⟨rfl, rfl, rfl, rfl, rfl, exact, fits⟩

end Options

namespace Client

variable {σ : Type} {o : Options}

/-- Options that pass make a client, over as many slots as they ask for. -/
theorem create_of_check (passed : o.check = .ok ()) (wire : Wire σ) :
    ∃ c, create o wire = .ok c ∧ c.shared.outbox.slots.capacity = o.capacity ∧
      c.terms = sessionTerms o := by
  have positive : ¬o.capacity = 0 := by
    have := (Options.check_eq_ok_iff.mp passed).capacity
    omega
  unfold create
  rw [passed, Slots.ofCapacity?, if_neg positive]
  exact ⟨_, rfl, rfl, rfl⟩

theorem create_of_fault {fault : OptionsFault} (refused : o.check = .error fault) (wire : Wire σ) :
    create o wire = .error fault.clientFault := by
  unfold create
  rw [refused]
  rfl

/-- Options are accepted exactly within their bounds, and for them alone a client is created:
never is one refused for want of slots. The will of its sessions, if one is asked for, is held
back for exactly twice the session expiry, and all times fit their fields on the wire. -/
theorem accepted_options_fit (o : Options) (wire : Wire σ) :
    (o.check = .ok () ↔ o.Acceptable) ∧
    (∀ fault, create o wire = .error fault ↔
      ∃ found, o.check = .error found ∧ found.clientFault = fault) ∧
    (o.Acceptable → ∃ c, create o wire = .ok c ∧
      c.shared.outbox.slots.capacity = o.capacity ∧
      c.terms.keepAlive.secs ≤ 65535 ∧ c.terms.sessionExpiry.secs < 4294967296 ∧
      c.terms.will = o.lastWill ∧ (o.will = none → o.lastWill = none) ∧
      ∀ asked, o.will = some asked →
        ∃ sent, o.lastWill = some sent ∧ asked.Sealed o.sessionExpiry sent) := by
  refine ⟨Options.check_eq_ok_iff, ?_, ?_⟩
  · intro fault
    cases result : o.check with
    | ok _ =>
      obtain ⟨c, created, _⟩ := create_of_check result wire
      rw [created]
      exact ⟨nofun, fun refused => nomatch refused.choose_spec.1⟩
    | error found =>
      rw [create_of_fault result]
      simp only [Except.error.injEq, exists_eq_left']
  · intro acceptable
    obtain ⟨c, created, capacity, terms⟩ :=
      create_of_check (Options.check_eq_ok_iff.mpr acceptable) wire
    have bounded := acceptable.sessionExpiry.2
    refine ⟨c, created, capacity, ?_⟩
    rw [terms]
    refine ⟨acceptable.keepAlive.2, ?_, rfl, Options.lastWill_of_none, ?_⟩
    · exact Nat.lt_of_le_of_lt bounded (by decide)
    · intro asked will
      exact Options.lastWill_of_bounded bounded will

open Rehearsal in
/-- With the longest expiry there is, its nanoseconds carried, the delay has as many seconds as
32 bits can count. -/
theorem accepted_options_fit_longest :
    ∃ (o : Options) (c : Client Line) (asked sent : Will), o.Acceptable ∧
      o.sessionExpiry = ⟨2147483647, 999999999, by decide, by decide⟩ ∧
      o.will = some asked ∧ asked.payload ≠ [] ∧ create o Line.wire = .ok c ∧
      c.terms.will = some sent ∧ asked.Sealed o.sessionExpiry sent ∧
      sent.delay = ⟨4294967295, 999999998, by decide, by decide⟩ := by
  let asked : Will := { topic := "é", payload := [1], qos := .atMostOnce, retain := true }
  let o : Options := {
    clientId := "c"
    capacity := 2048
    sessionExpiry := ⟨2147483647, 999999999, by decide, by decide⟩
    will := some asked }
  have passed : o.check = .ok () := by decide +kernel
  obtain ⟨accepted, _, opens⟩ := accepted_options_fit o Line.wire
  obtain ⟨c, created, _, _, _, terms, _, wills⟩ := opens (accepted.mp passed)
  obtain ⟨sent, last, seals⟩ := wills asked rfl
  have delayed : o.lastWill.map Will.delay =
      some ⟨4294967295, 999999998, by decide, by decide⟩ := by decide +kernel
  rw [last] at delayed
  exact ⟨o, c, asked, sent, accepted.mp passed, rfl, rfl, List.cons_ne_nil _ _, created,
    terms.trans last, seals, Option.some.inj delayed⟩

end Client

end Courier
