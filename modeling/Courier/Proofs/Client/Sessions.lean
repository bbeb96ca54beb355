import Courier.Proofs.Client.Callers
import Courier.Proofs.Outbox.Room

/-! When a session is up. An accepted connection begins one, a lost connection and a
shutdown end it, and nothing else does either; and only while it is up the transport is
asked for what needs one. -/
namespace Courier

def Turn.online : Turn → Bool → Bool
  | begins, _ => true
  | loses, _ | clears, _ => false
  | _, before => before

def Call.needsSession : Call → Bool
  | publish _ _ | subscribe _ _ _ _ | unsubscribe _ _ => true
  | _ => false

theorem Call.needsSession_eq_false {call : Call} (unpublished : call.attempt? = none)
    (other : call.isSubscription = false) : call.needsSession = false := by
  cases call with
  | publish => contradiction
  | subscribe | unsubscribe => contradiction
  | _ => rfl

variable {σ : Type}

theorem Wire.forall_callsSince {v w : Wire σ} {kind : Call → Prop} (extended : v.Extends w kind) :
    ∀ call ∈ v.callsSince w, kind call := by
  obtain ⟨more, calls, all⟩ := extended
  rw [Wire.callsSince_of_append calls]
  exact all

/-- Without a session an acknowledgement sets nothing in motion. -/
theorem Outbox.acknowledge_of_offline {o : Outbox} (offline : o.connected = false) (w : Wire σ)
    (id : PacketId) (reason : Reason) : (o.acknowledge w id reason).2 = w := by
  have rests : ∀ p : Outbox, p.connected = false → (p.pump w).2 = w := by
    intro p off
    rw [pump, if_neg (Bool.eq_false_iff.mp off)]
  unfold acknowledge
  split
  · rename_i m _
    apply rests
    have same : (({ o with inFlight := o.inFlight.erase id } : Outbox).finish m
      (.ofReason reason)).setup = o.setup := finish_setup _ _ _
    exact (congrArg Prod.fst same).trans offline
  · exact rests o offline

namespace Client

variable {c d : Client σ}

theorem subscribe_wire (offline : c.outbox.connected = false) (pattern : String) (qos : QoS) :
    (c.subscribe pattern qos).2.wire = c.wire := by
  have down : ¬c.shared.outbox.connected = true := Bool.eq_false_iff.mp offline
  unfold subscribe
  split
  · rfl
  · exact congrArg (wire ∘ Prod.snd) (if_neg down)

theorem unsubscribe_wire (offline : c.outbox.connected = false) (pattern : String) :
    (c.unsubscribe pattern).2.wire = c.wire := by
  have down : ¬c.shared.outbox.connected = true := Bool.eq_false_iff.mp offline
  unfold unsubscribe
  split
  · rfl
  · exact congrArg (wire ∘ Prod.snd) (if_neg down)

/-- Without a session nobody is told about subscriptions. -/
theorem spares_of_offline {action : Action σ} {reply : Reply}
    (stepped : c.step action = some (reply, d))
    (offline : (c.turn action).online c.outbox.connected = false) : c.wire.Spares d.wire := by
  by_cases tells : action.tells = true
  · cases action with
    | subscribe pattern qos =>
      obtain ⟨_, taken⟩ := of_guard stepped
      cases taken
      exact .of_calls (congrArg Wire.calls (subscribe_wire offline pattern qos))
    | unsubscribe pattern =>
      obtain ⟨_, taken⟩ := of_guard stepped
      cases taken
      exact .of_calls (congrArg Wire.calls (unsubscribe_wire offline pattern))
    | hear e =>
      cases Event.begins_of_tells tells
      contradiction
    | _ => contradiction
  · exact (step_untold (Bool.eq_false_iff.mpr tells) stepped).calls

end Client

namespace Step

variable {s : Step σ}

/-- A step can begin or end a session; the limits stay as they are. -/
theorem setup_after (s : Step σ) : s.after.outbox.setup =
    ({ s.before.outbox with
      connected := s.turn.online s.before.outbox.connected } : Outbox).setup := by
  have accepted : ∀ {p priority sync result o} {w : Wire σ}, s.before.outbox.accept
      s.before.wire s.before.nextSeq p priority sync = (result, o, w) →
      o.setup = s.before.outbox.setup := by
    intro p priority sync result o w taken
    have same := s.before.outbox.accept_setup s.before.wire s.before.nextSeq p priority sync
    rwa [taken] at same
  have turned := s.turned
  generalize s.turn = turn at turned
  cases turned with
  | other outbox => rw [outbox]; rfl
  | refused taken => exact accepted taken
  | @handed _ _ _ m o taken outbox =>
    rw [outbox]
    exact (o.release_setup m).trans (accepted taken)
  | @entered _ _ late m o taken outbox =>
    rw [outbox]
    exact (o.seek_setup m late).trans (accepted taken)
  | @asked m late _ _ outbox =>
    rw [outbox]
    exact s.before.outbox.seek_setup m late
  | @begun w _ outbox =>
    have same := Outbox.pump_setup { s.before.outbox with connected := true } w
    rwa [outbox] at same
  | @heard id reason outbox =>
    have same := s.before.outbox.acknowledge_setup s.before.wire id reason
    rwa [outbox] at same
  | lost outbox =>
    rw [outbox]
    exact Outbox.purge_setup _
  | cleared _ outbox =>
    rw [outbox]
    exact Outbox.clear_setup _

theorem connected_after (s : Step σ) :
    s.after.outbox.connected = s.turn.online s.before.outbox.connected :=
  congrArg Prod.fst s.setup_after

theorem inFlightLimit_after (s : Step σ) :
    s.after.outbox.inFlightLimit = s.before.outbox.inFlightLimit :=
  congrArg (·.2.1) s.setup_after

/-- The number of slots stays as it is. -/
theorem capacity_after (s : Step σ) :
    s.after.outbox.slots.capacity = s.before.outbox.slots.capacity :=
  congrArg (·.2.2) s.setup_after

/-- A session that is up after a step was up before, or the step began it. -/
theorem online_before (online : s.after.outbox.connected = true) :
    s.before.outbox.connected = true ∨ s.turn = .begins := by
  rw [connected_after] at online
  cases turn : s.turn with
  | begins => exact .inr rfl
  | loses | clears =>
    rw [turn] at online
    contradiction
  | _ =>
    rw [turn] at online
    exact .inl online

/-- A step that leaves no session behind publishes nothing. -/
theorem idles_of_offline (offline : s.after.outbox.connected = false) :
    s.before.wire.Idles s.after.wire := by
  rw [connected_after] at offline
  have unready : s.before.outbox.connected = false → ¬s.before.outbox.Ready := by
    rintro off ⟨online, _⟩
    rw [off] at online
    contradiction
  have turned := s.turned
  generalize s.turn = turn at turned offline
  cases turned with
  | other _ _ wire | asked _ _ _ wire | lost _ _ wire | cleared _ _ _ wire => exact wire
  | refused taken | handed taken | entered taken =>
    by_contra called
    exact unready offline ((Outbox.accepts_of_eq taken).ready called)
  | begun => contradiction
  | @heard id reason outbox =>
    have same := Outbox.acknowledge_of_offline offline s.before.wire id reason
    rw [outbox] at same
    exact .of_calls (congrArg Wire.calls same)

/-- A step that leaves no session behind makes no call that needs one. -/
theorem calls_of_offline (offline : s.after.outbox.connected = false) :
    ∀ call ∈ s.calls, call.needsSession = false := by
  have unpublished := Wire.forall_callsSince (idles_of_offline offline)
  rw [connected_after] at offline
  have spared := Wire.forall_callsSince (Client.spares_of_offline s.stepped offline)
  intro call made
  exact Call.needsSession_eq_false (unpublished call made) (spared call made)

end Step

namespace History

variable {history past later : History σ} {s t : Step σ}

/-- The step that is split off is the last one, or one of those before. -/
theorem snoc_parts (parts : history ++ [t] = past ++ s :: later) :
    later = [] ∧ history = past ∧ t = s ∨
      ∃ others, later = others ++ [t] ∧ history = past ++ s :: others := by
  rcases List.eq_nil_or_concat later with rfl | ⟨others, last, rfl⟩
  · obtain ⟨same, one⟩ := List.append_inj' parts rfl
    exact .inl ⟨rfl, same, List.singleton_inj.mp one⟩
  · rw [List.concat_eq_append, ← List.cons_append, ← List.append_assoc] at parts
    obtain ⟨same, one⟩ := List.append_inj' parts rfl
    rw [List.concat_eq_append, List.singleton_inj.mp one]
    exact .inr ⟨others, rfl, same⟩

/-- A connection was accepted, and since then none was lost and no shutdown has ended it. -/
def Online (history : History σ) : Prop :=
  ∃ past s since, history = past ++ s :: since ∧ s.turn = .begins ∧
    ∀ t ∈ since, t.turn ≠ .loses ∧ t.turn ≠ .clears

theorem not_online_nil : ¬Online ([] : History σ) := by
  rintro ⟨past, s, since, parts, _⟩
  simp at parts

theorem online_snoc_iff : Online (history ++ [s]) ↔
    s.turn = .begins ∨ history.Online ∧ s.turn ≠ .loses ∧ s.turn ≠ .clears := by
  constructor
  · rintro ⟨past, t, since, parts, begins, goesOn⟩
    rcases snoc_parts parts with ⟨_, _, rfl⟩ | ⟨earlier, rfl, rfl⟩
    · exact .inl begins
    · rw [List.forall_mem_append, List.forall_mem_singleton] at goesOn
      exact .inr ⟨⟨past, t, earlier, rfl, begins, goesOn.1⟩, goesOn.2⟩
  · rintro (begins | ⟨⟨past, t, since, rfl, begins, goesOn⟩, stays⟩)
    · exact ⟨history, s, [], rfl, begins, List.forall_mem_nil _⟩
    · refine ⟨past, t, since ++ [s], ?_, begins, ?_⟩
      · rw [List.append_assoc, List.cons_append]
      · rw [List.forall_mem_append, List.forall_mem_singleton]
        exact ⟨goesOn, stays⟩

end History

namespace Client

variable {c d : Client σ} {options : Options} {wire : Wire σ} {actions : List (Action σ)}

/-- A session is up exactly since a connection was accepted that has not been ended. -/
theorem Reaches.online_iff (created : create options wire = .ok c) (run : Reaches c actions d) :
    d.outbox.connected = true ↔ (c.trace actions).Online := by
  refine run.induct (P := fun history d => d.outbox.connected = true ↔ history.Online) ?_ ?_
  · obtain ⟨_, _, outbox⟩ := outbox_of_create created
    rw [outbox]
    exact ⟨fun up => absurd up Bool.false_ne_true, fun up => absurd up History.not_online_nil⟩
  · intro history s before
    rw [s.connected_after, History.online_snoc_iff, ← before]
    cases s.turn <;> simp [Turn.online]

/-- The state before a step of a run is where the steps before it lead. -/
theorem Reaches.split (run : Reaches c actions d) {past later : History σ} {s : Step σ}
    (parts : c.trace actions = past ++ s :: later) :
    ∃ earlier, Reaches c earlier s.before ∧ c.trace earlier = past := by
  revert past later s
  refine run.induct_run (P := fun history _ => ∀ {past later : History σ} {s : Step σ},
    history = past ++ s :: later → ∃ earlier, Reaches c earlier s.before ∧
      c.trace earlier = past) ?_ ?_
  · intro past later s parts
    simp at parts
  · intro earlier t led before past later s parts
    rcases History.snoc_parts parts with ⟨_, same, rfl⟩ | ⟨others, _, same⟩
    · exact ⟨earlier, led, same⟩
    · exact before same

end Client

end Courier
