import Courier.Proofs.Client.Callers
import Courier.Proofs.Renewals
import Mathlib.Data.List.Induction

/-! The ledger of subscriptions against the broker's session. While a session goes
on they agree record by record; in between every filter the broker may still hold
is on record, so that the next session can be told of it. -/
namespace Courier

variable {σ : Type}

/-- Where a connection was accepted no call that repeats a record failed. -/
def Step.Renews (s : Step σ) : Prop := s.turn = .begins → ∀ call ∈ s.calls, call.misses = false

instance (s : Step σ) : Decidable s.Renews :=
  inferInstanceAs (Decidable (s.turn = .begins → ∀ call ∈ s.calls, call.misses = false))

namespace History

/-- What the broker's session may hold after these steps. An accepted connection
goes on with the session before it, or begins an empty one. -/
inductive Leaves : History σ → Session → Prop where
  | nil : Leaves [] ∅
  | goesOn {history : History σ} {s : Step σ} {held : Session} (left : Leaves history held) :
      Leaves (history ++ [s]) (held.told s.calls)
  | anew {history : History σ} {s : Step σ} {held : Session} (left : Leaves history held)
      (begins : s.turn = .begins) : Leaves (history ++ [s]) (Session.told ∅ s.calls)

variable {history : History σ} {s : Step σ} {session : Session}

theorem Leaves.of_snoc (left : Leaves (history ++ [s]) session) :
    ∃ held, history.Leaves held ∧ (session = held.told s.calls ∨
      s.turn = .begins ∧ session = Session.told ∅ s.calls) := by
  generalize whole : history ++ [s] = steps at left
  cases left with
  | nil => simp at whole
  | goesOn left =>
    obtain ⟨rfl, same⟩ := List.append_inj' whole rfl
    cases same
    exact ⟨_, left, .inl rfl⟩
  | anew left begins =>
    obtain ⟨rfl, same⟩ := List.append_inj' whole rfl
    cases same
    exact ⟨_, left, .inr ⟨begins, rfl⟩⟩

/-- The session where every accepted connection goes on with the one before it. -/
def kept (history : History σ) : Session := history.foldl (fun held s => held.told s.calls) ∅

theorem leaves_kept (history : History σ) : history.Leaves history.kept := by
  induction history using List.reverseRecOn with
  | nil => exact .nil
  | append_singleton history s ih =>
    rw [kept, List.foldl_append]
    exact ih.goesOn

end History

/-- A session begins with the calls that repeat the records; the calls after them
are about messages. -/
theorem Shared.beginSession_calls (s : Shared) (w : Wire σ) :
    ∃ calls others, (s.beginSession w).2.calls = w.calls ++ (calls ++ others) ∧
      calls.map Call.request? = s.subscriptions.renewals.map some ∧
      ∀ call ∈ others, call.isSubscription = false := by
  obtain ⟨calls, repeated, asked⟩ := w.renewals_calls s.subscriptions.renewals
  obtain ⟨_, others, pumped, quiet⟩ := Outbox.pump_session
    ({ s.outbox with connected := true } : Outbox) (s.subscriptions.renewals.foldl renew w)
  refine ⟨calls, others, ?_, asked, quiet⟩
  rw [← List.append_assoc, ← repeated]
  exact pumped

namespace Client

variable {c d : Client σ} {held : Session}

theorem begin_wire (c : Client σ) :
    (c.hear (.connected (.ok ()))).wire = (c.shared.beginSession c.wire).2 := by
  cases told : c.onConnected <;> simp only [hear, told, Bool.false_eq_true, if_false, if_true]
  rfl

theorem begin_subscriptions (c : Client σ) :
    (c.hear (.connected (.ok ()))).shared.subscriptions = c.shared.subscriptions.renewed := by
  cases told : c.onConnected <;> simp only [hear, told, Bool.false_eq_true, if_false, if_true]
  · rfl
  · rfl

structure Agrees (c : Client σ) (held : Session) : Prop where
  covered : held.Covered c.shared.subscriptions
  mirrors : c.outbox.connected = true → held.Mirrors c.shared.subscriptions

namespace Agrees

theorem of_mirrors (mirrors : held.Mirrors d.shared.subscriptions) : d.Agrees held :=
  ⟨mirrors.covered, fun _ => mirrors⟩

/-- What leaves the subscriptions alone leaves the agreement. -/
theorem of_untold (agrees : c.Agrees held) (untold : c.Untold d) :
    d.Agrees (held.told (c.wire.callsSince d.wire)) := by
  obtain ⟨same, connected, more, calls, others⟩ := untold
  rw [Wire.callsSince_of_append calls, Session.told_of_others others]
  refine ⟨same ▸ agrees.covered, ?_⟩
  intro online
  rcases connected with stays | ends
  · rw [same]
    exact agrees.mirrors (stays ▸ online)
  · rw [ends] at online
    contradiction

theorem subscribe (agrees : c.Agrees held) (pattern : String) (qos : QoS) :
    (c.subscribe pattern qos).2.Agrees
      (held.told (c.wire.callsSince (c.subscribe pattern qos).2.wire)) := by
  unfold Client.subscribe
  split
  · exact agrees.of_untold ⟨rfl, .inl rfl, .refl _⟩
  · rename_i filter _
    dsimp only
    split
    · rename_i online
      have mirrors := agrees.mirrors online
      split
      · rename_i w told
        rw [withSubscriptions, Wire.callsSince_of_append (Wire.subscribe_calls told)]
        exact .of_mirrors (mirrors.insert filter qos)
      · rename_i fault w told
        rw [withSubscriptions, Wire.callsSince_of_append (Wire.subscribe_calls told)]
        exact .of_mirrors fun other =>
          (Table.get?_restore_insert _ filter other _).trans (mirrors other)
    · rename_i offline
      rw [withSubscriptions, Wire.callsSince_of_append (List.append_nil _).symm]
      exact ⟨agrees.covered.insert filter _, fun online => absurd online offline⟩

theorem unsubscribe (agrees : c.Agrees held) (pattern : String) :
    (c.unsubscribe pattern).2.Agrees
      (held.told (c.wire.callsSince (c.unsubscribe pattern).2.wire)) := by
  unfold Client.unsubscribe
  split
  · exact agrees.of_untold ⟨rfl, .inl rfl, .refl _⟩
  · rename_i filter _
    split
    · rename_i online
      have mirrors := agrees.mirrors online
      dsimp only
      split
      · rename_i w told
        rw [withSubscriptions, Wire.callsSince_of_append (Wire.unsubscribe_calls told)]
        exact .of_mirrors (mirrors.erase filter)
      · rename_i fault w told
        rw [withSubscriptions, Wire.callsSince_of_append (Wire.unsubscribe_calls told)]
        exact .of_mirrors fun other =>
          (Table.get?_restore_erase _ filter other).trans (mirrors other)
    · rename_i offline
      rw [withSubscriptions, Wire.callsSince_of_append (List.append_nil _).symm]
      exact ⟨agrees.covered.insert filter _, fun online => absurd online offline⟩

/-- A session that is told all records agrees, whatever it held of them before. -/
theorem of_begin (covered : held.Covered c.shared.subscriptions)
    (succeed : ∀ call ∈ c.wire.callsSince (c.hear (.connected (.ok ()))).wire,
      call.misses = false) :
    (c.hear (.connected (.ok ()))).Agrees
      (held.told (c.wire.callsSince (c.hear (.connected (.ok ()))).wire)) := by
  obtain ⟨calls, others, made, asked, quiet⟩ := c.shared.beginSession_calls c.wire
  have since := Wire.callsSince_of_append made
  rw [begin_wire, since] at succeed ⊢
  have repeated := Call.eq_of_requests asked fun call member =>
    succeed call (List.mem_append_left _ member)
  rw [repeated, Session.told_append, Session.told_of_others quiet]
  refine .of_mirrors ?_
  rw [begin_subscriptions]
  exact covered.renewed

end Agrees

theorem turn_begins {action : Action σ} (begins : c.turn action = .begins) :
    action = .hear (.connected (.ok ())) := by
  unfold turn at begins
  split at begins
  · split at begins <;> contradiction
  · split at begins <;> contradiction
  · split at begins
    · split at begins <;> contradiction
    · contradiction
    · contradiction
  · split at begins <;> contradiction
  · rfl
  · contradiction
  · contradiction
  · split at begins <;> contradiction
  · contradiction

theorem step_agrees {action : Action σ} {reply : Reply}
    (stepped : c.step action = some (reply, d)) (agrees : c.Agrees held)
    (succeed : c.turn action = .begins → ∀ call ∈ c.wire.callsSince d.wire, call.misses = false) :
    d.Agrees (held.told (c.wire.callsSince d.wire)) := by
  by_cases silent : action.tells = false
  · exact agrees.of_untold (step_untold silent stepped)
  cases action with
  | subscribe pattern qos =>
    obtain ⟨_, taken⟩ := of_guard stepped
    cases taken
    exact agrees.subscribe pattern qos
  | unsubscribe pattern =>
    obtain ⟨_, taken⟩ := of_guard stepped
    cases taken
    exact agrees.unsubscribe pattern
  | hear e =>
    obtain ⟨_, rfl, rfl⟩ := hear_of_step stepped
    cases Event.begins_of_tells (Bool.not_eq_false _ ▸ silent)
    exact .of_begin agrees.covered (succeed rfl)
  | _ => exact absurd rfl silent

/-- An empty session agrees as well once it has been told everything. -/
theorem step_agrees_anew {action : Action σ} {reply : Reply}
    (stepped : c.step action = some (reply, d)) (begins : c.turn action = .begins)
    (succeed : ∀ call ∈ c.wire.callsSince d.wire, call.misses = false) :
    d.Agrees (Session.told ∅ (c.wire.callsSince d.wire)) := by
  cases turn_begins begins
  obtain ⟨_, rfl, rfl⟩ := hear_of_step stepped
  exact .of_begin (Session.covered_empty _) succeed

theorem agrees_of_create {options : Options} {wire : Wire σ}
    (created : create options wire = .ok c) : c.Agrees ∅ := by
  obtain ⟨_, _, outbox⟩ := outbox_of_create created
  refine ⟨Session.covered_empty _, ?_⟩
  intro online
  rw [outbox] at online
  contradiction

theorem Reaches.agrees {actions : List (Action σ)} (run : Reaches c actions d)
    (start : c.Agrees ∅) (renews : ∀ s ∈ c.trace actions, s.Renews)
    (left : (c.trace actions).Leaves held) : d.Agrees held := by
  refine run.induct (P := fun history c =>
    (∀ s ∈ history, s.Renews) → ∀ held, history.Leaves held → c.Agrees held) ?_ ?_ renews held left
  · intro _ held left
    generalize none : ([] : History σ) = steps at left
    cases left with
    | nil => exact start
    | goesOn _ => simp at none
    | anew _ _ => simp at none
  · intro history s ih renews held leaves
    have before := ih fun t member => renews t (List.mem_append_left _ member)
    have succeed := renews s (List.mem_append_right _ List.mem_cons_self)
    obtain ⟨earlier, left, rfl | ⟨begins, rfl⟩⟩ := leaves.of_snoc
    · exact step_agrees s.stepped (before earlier left) succeed
    · exact step_agrees_anew s.stepped begins (succeed begins)

/-- While a session goes on the broker holds exactly the subscriptions that are
active on record, and none is marked as given up; in between there is a record of
every filter the broker may still hold. -/
theorem session_agrees {options : Options} {wire : Wire σ} {actions : List (Action σ)}
    {session : Session} (created : create options wire = .ok c) (run : Reaches c actions d)
    (renews : ∀ s ∈ c.trace actions, s.Renews) (left : (c.trace actions).Leaves session) :
    (d.outbox.connected = true →
      (∀ filter qos, session.get? filter = some qos ↔
        d.shared.subscriptions.get? filter = some (.active qos)) ∧
      ∀ filter, d.shared.subscriptions.get? filter ≠ some .givenUp) ∧
    (d.outbox.connected = false → ∀ filter qos, session.get? filter = some qos →
      ∃ record, d.shared.subscriptions.get? filter = some record) := by
  have agrees := run.agrees (agrees_of_create created) renews left
  refine ⟨?_, ?_⟩
  · intro online
    have mirrors := agrees.mirrors online
    exact ⟨mirrors.active_iff, mirrors.ne_givenUp⟩
  · intro _ filter qos holds
    have held : session.get? filter ≠ none := by
      rw [holds]
      exact Option.some_ne_none qos
    exact Option.ne_none_iff_exists'.mp (agrees.covered filter held)

open Rehearsal in
/-- A filter is given up and another one asked for between two sessions; the second
session goes on with what the first one held. -/
theorem session_agrees_resumed :
    ∃ actions session, create settings Line.wire = .ok client ∧
      Reaches client actions (client.after actions) ∧
      (∀ s ∈ client.trace actions, s.Renews) ∧ (client.trace actions).Leaves session ∧
      (client.after actions).outbox.connected = true ∧
      session.get? "a" = none ∧ session.get? "b" = some .exactlyOnce ∧
      ∀ filter qos, session.get? filter = some qos ↔
        (client.after actions).shared.subscriptions.get? filter = some (.active qos) := by
  let actions := connects ++ [.subscribe "a" .atLeastOnce,
    .hear (.disconnected .connectionLost), .unsubscribe "a", .subscribe "b" .exactlyOnce,
    .hear (.connected (.ok ()))]
  let session := (client.trace actions).kept
  have created : create settings Line.wire = .ok client := rfl
  have run : Reaches client actions (client.after actions) := reaches_after (by decide +kernel)
  have renews : ∀ s ∈ client.trace actions, s.Renews := by decide +kernel
  have left : (client.trace actions).Leaves session := History.leaves_kept _
  have online : (client.after actions).outbox.connected = true := by decide +kernel
  exact ⟨actions, session, created, run, renews, left, online, by decide +kernel,
    by decide +kernel, ((session_agrees created run renews left).1 online).1⟩

end Client

end Courier
