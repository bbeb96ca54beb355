import Courier.Proofs.Client.Ledger
import Courier.Proofs.Insertions

/-! What subscriptions asked for and given up between two sessions come to. Each edit takes the
place of what was on record under its filter, so the next session is told of every filter once,
as its last edit has it; a session after that is told of the active ones alone. -/
namespace Courier

variable {σ : Type}

def Renewal.filter : Renewal → String
  | subscribe filter _ => filter
  | unsubscribe filter => filter

/-- Some of these calls are requests about subscriptions: in whatever order, one for each filter
of which there is a record, and the one the record stands for. -/
def Asks (calls : List Call) (recorded : String → Subscription → Prop) : Prop :=
  ∃ requests : List Renewal,
    (calls.filter Call.isSubscription).map Call.request? = requests.map some ∧
    (requests.map Renewal.filter).Nodup ∧
    ∀ r, r ∈ requests ↔ ∃ filter record, recorded filter record ∧ record.renewal filter = r

def Action.edit? : Action σ → Option (String × Subscription)
  | subscribe pattern qos => (Topic.toFilter pattern).toOption.map (·, .active qos)
  | unsubscribe pattern => (Topic.toFilter pattern).toOption.map (·, .givenUp)
  | _ => none

def edits (actions : List (Action σ)) : List (String × Subscription) :=
  actions.filterMap Action.edit?

/-- The last edit of a filter decides on it, and where there is none the record there was. -/
def Decided (before : Subscriptions) (edits : List (String × Subscription)) (filter : String)
    (record : Subscription) : Prop :=
  (∃ earlier later, edits = earlier ++ (filter, record) :: later ∧
    filter ∉ later.map Prod.fst) ∨
  filter ∉ edits.map Prod.fst ∧ before.get? filter = some record

theorem Subscription.renewal_filter (record : Subscription) (filter : String) :
    (record.renewal filter).filter = filter := by
  cases record <;> rfl

theorem Subscriptions.decided_iff (s : Subscriptions) (edits : List (String × Subscription))
    (filter : String) (record : Subscription) :
    Decided s edits filter record ↔ (s.insertEach edits).get? filter = some record := by
  constructor
  · rintro (⟨earlier, later, rfl, last⟩ | ⟨unedited, held⟩)
    · exact Table.get?_insertEach_last last
    · rw [Table.get?_insertEach_of_absent unedited, held]
  · intro found
    by_cases edited : filter ∈ edits.map Prod.fst
    · obtain ⟨earlier, decided, later, rfl, last⟩ := Table.exists_last_entry edited
      cases (Table.get?_insertEach_last last).symm.trans found
      exact .inl ⟨earlier, later, rfl, last⟩
    · rw [Table.get?_insertEach_of_absent edited] at found
      exact .inr ⟨edited, found⟩

theorem Asks.congr {calls : List Call} {recorded other : String → Subscription → Prop}
    (asks : Asks calls recorded)
    (same : ∀ filter record, recorded filter record ↔ other filter record) :
    Asks calls other := by
  obtain ⟨requests, made, once, all⟩ := asks
  refine ⟨requests, made, once, ?_⟩
  simpa only [same] using all

namespace Client

variable {c d : Client σ} {actions : List (Action σ)}

/-- A session is told of every record. -/
theorem begin_asks (c : Client σ) :
    Asks (c.wire.callsSince (c.hear (.connected (.ok ()))).wire) fun filter record =>
      c.shared.subscriptions.get? filter = some record := by
  obtain ⟨calls, others, made, asked, quiet⟩ := c.shared.beginSession_calls c.wire
  have about : ∀ call ∈ calls, call.isSubscription = true := by
    intro call member
    have listed : call.request? ∈ c.shared.subscriptions.renewals.map some :=
      asked ▸ List.mem_map_of_mem member
    obtain ⟨r, _, request⟩ := List.mem_map.mp listed
    exact Call.isSubscription_of_request? request.symm
  have none : others.filter Call.isSubscription = [] := by
    rw [List.filter_eq_nil_iff]
    intro call member
    rw [quiet call member]
    exact Bool.false_ne_true
  have keys : c.shared.subscriptions.renewals.map Renewal.filter =
      c.shared.subscriptions.keys := by
    simp only [Subscriptions.renewals, Table.keys, List.map_map]
    exact List.map_congr_left fun entry _ => entry.2.renewal_filter entry.1
  rw [begin_wire, Wire.callsSince_of_append made]
  refine ⟨c.shared.subscriptions.renewals, ?_, ?_, ?_⟩
  · rw [List.filter_append, List.filter_eq_self.mpr about, none, List.append_nil, asked]
  · rw [keys]
    exact c.shared.subscriptions.keys_nodup
  · intro r
    simp only [Subscriptions.renewals, List.mem_map, Prod.exists, Table.get?_eq_some_iff]

theorem subscribe_of_offline (offline : c.outbox.connected = false) (pattern : String) (qos : QoS) :
    (c.subscribe pattern qos).2.outbox.connected = false ∧
      (c.subscribe pattern qos).2.shared.subscriptions =
        c.shared.subscriptions.insertEach
          (Action.edit? (.subscribe pattern qos : Action σ)).toList := by
  have unconnected : ¬c.shared.outbox.connected = true := Bool.eq_false_iff.mp offline
  unfold subscribe
  cases parsed : Topic.toFilter pattern with
  | error fault =>
    simp only [Action.edit?, parsed]
    exact ⟨offline, rfl⟩
  | ok filter =>
    simp only [Action.edit?, parsed, if_neg unconnected]
    exact ⟨offline, rfl⟩

theorem unsubscribe_of_offline (offline : c.outbox.connected = false) (pattern : String) :
    (c.unsubscribe pattern).2.outbox.connected = false ∧
      (c.unsubscribe pattern).2.shared.subscriptions =
        c.shared.subscriptions.insertEach
          (Action.edit? (.unsubscribe pattern : Action σ)).toList := by
  have unconnected : ¬c.shared.outbox.connected = true := Bool.eq_false_iff.mp offline
  unfold unsubscribe
  cases parsed : Topic.toFilter pattern with
  | error fault =>
    simp only [Action.edit?, parsed]
    exact ⟨offline, rfl⟩
  | ok filter =>
    simp only [Action.edit?, parsed, if_neg unconnected]
    exact ⟨offline, rfl⟩

/-- Without a session a step records its edit, if it makes one, and no more. -/
theorem step_edits {action : Action σ} {reply : Reply} (stepped : c.step action = some (reply, d))
    (offline : c.outbox.connected = false) (other : action ≠ .hear (.connected (.ok ()))) :
    d.outbox.connected = false ∧
      d.shared.subscriptions = c.shared.subscriptions.insertEach action.edit?.toList := by
  by_cases silent : action.tells = false
  · obtain ⟨same, connected, _⟩ := step_untold silent stepped
    have none : action.edit? = none := by
      cases action with
      | subscribe | unsubscribe => contradiction
      | _ => rfl
    rw [none]
    refine ⟨?_, same⟩
    rcases connected with stays | ends
    · rw [stays, offline]
    · exact ends
  cases action with
  | subscribe pattern qos =>
    obtain ⟨_, taken⟩ := of_guard stepped
    cases taken
    exact subscribe_of_offline offline pattern qos
  | unsubscribe pattern =>
    obtain ⟨_, taken⟩ := of_guard stepped
    cases taken
    exact unsubscribe_of_offline offline pattern
  | hear e =>
    cases Event.begins_of_tells (Bool.not_eq_false _ ▸ silent)
    exact absurd rfl other
  | _ => exact absurd rfl silent

theorem Reaches.edited (run : Reaches c actions d) (offline : c.outbox.connected = false)
    (between : .hear (.connected (.ok ())) ∉ actions) : d.outbox.connected = false ∧
      d.shared.subscriptions = c.shared.subscriptions.insertEach (edits actions) := by
  induction run with
  | nil => exact ⟨offline, rfl⟩
  | @snoc d e actions action reply run stepped ih =>
    rw [List.mem_append, not_or, List.mem_singleton] at between
    obtain ⟨still, recorded⟩ := ih between.1
    obtain ⟨offline, edited⟩ := step_edits stepped still (Ne.symm between.2)
    have last : edits (actions ++ [action]) =
        edits actions ++ action.edit?.toList := by
      rw [edits, List.filterMap_append]
      cases made : action.edit? <;> simp [made, edits]
    refine ⟨offline, ?_⟩
    rw [edited, recorded, last, Table.insertEach_append]

/-- A connection is accepted, and the records are gone through in this order. -/
def renewing (c : Client σ) (listed : Subscriptions) : Client σ :=
  (c.withSubscriptions listed c.wire).hear (.connected (.ok ()))

theorem renewing_asks (c : Client σ) (listed : Subscriptions) :
    Asks (c.wire.callsSince (c.renewing listed).wire) fun filter record =>
      listed.get? filter = some record :=
  begin_asks (c.withSubscriptions listed c.wire)

theorem renewing_subscriptions (c : Client σ) (listed : Subscriptions) :
    (c.renewing listed).shared.subscriptions = listed.renewed :=
  begin_subscriptions (c.withSubscriptions listed c.wire)

/-- Between two sessions any number of edits is made, with anything else in between. The next
session is told once of each filter on record: as its last edit has it, or if it was not
edited as it was on record before. The active ones stay on record, whatever became of the
requests, and a session right after that is told of them again and changes nothing. The order
in which the records are gone through is free each time. -/
theorem edits_collapse (offline : c.outbox.connected = false) (run : Reaches c actions d)
    (between : .hear (.connected (.ok ())) ∉ actions) {listed again : Subscriptions}
    (order : ∀ filter, listed.get? filter = d.shared.subscriptions.get? filter)
    (reordered : ∀ filter,
      again.get? filter = (d.renewing listed).shared.subscriptions.get? filter) :
    let recorded := Decided c.shared.subscriptions (edits actions)
    let active := fun filter record => recorded filter record ∧ record.isActive = true
    Asks (d.wire.callsSince (d.renewing listed).wire) recorded ∧
    (∀ filter record,
      (d.renewing listed).shared.subscriptions.get? filter = some record ↔ active filter record) ∧
    Asks ((d.renewing listed).wire.callsSince ((d.renewing listed).renewing again).wire) active ∧
    ((d.renewing listed).renewing again).shared.subscriptions = again := by
  intro recorded active
  obtain ⟨_, made⟩ := run.edited offline between
  have held : ∀ filter record, listed.get? filter = some record ↔ recorded filter record := by
    intro filter record
    rw [order, made, ← Subscriptions.decided_iff]
  have kept : ∀ filter record,
      (d.renewing listed).shared.subscriptions.get? filter = some record ↔
        active filter record := by
    intro filter record
    rw [renewing_subscriptions, Subscriptions.get?_renewed, Option.filter_eq_some_iff]
    exact and_congr_left' (held filter record)
  have stays : again.renewed = again := by
    apply Table.retain_of_all
    intro entry member
    have found := Table.get?_eq_some_iff.mpr member
    rw [reordered, kept] at found
    exact found.2
  refine ⟨(renewing_asks d listed).congr held, kept, (renewing_asks _ again).congr ?_, ?_⟩
  · intro filter record
    rw [reordered, kept]
  · rw [renewing_subscriptions, stays]

open Rehearsal in
/-- One of two filters is given up and asked for again, one is asked for and given up, and one
that was never asked for is given up; then the transport fails every subscribe call. -/
theorem edits_collapse_missed :
    ∃ (c d : Client Line) (actions : List (Action Line)) (listed again : Subscriptions),
      c.outbox.connected = false ∧ Reaches c actions d ∧
      .hear (.connected (.ok ())) ∉ actions ∧
      (∀ filter, listed.get? filter = d.shared.subscriptions.get? filter) ∧
      (∀ filter, again.get? filter = (d.renewing listed).shared.subscriptions.get? filter) ∧
      listed.keys = ["n", "c/#", "b", "a"] ∧ again.keys = ["a", "b"] ∧
      (∃ call ∈ d.wire.callsSince (d.renewing listed).wire, call.misses = true) ∧
      Asks (d.wire.callsSince (d.renewing listed).wire)
        (Decided c.shared.subscriptions (edits actions)) ∧
      ((d.renewing listed).renewing again).shared.subscriptions = again := by
  let c := client.after (connects ++ [.subscribe "a" .atLeastOnce, .subscribe "b" .atMostOnce,
    .hear (.disconnected .connectionLost)])
  let actions : List (Action Line) := [.unsubscribe "a", .subscribe "c/*" .exactlyOnce,
    .subscribe "#" .atMostOnce, .subscribe "a" .exactlyOnce, .unsubscribe "n", .unsubscribe "c/*",
    .drift { trouble := fun _ => some ⟨.notConnected, none⟩ }]
  let d := c.after actions
  let listed : Subscriptions := ⟨[("n", .givenUp), ("c/#", .givenUp), ("b", .active .atMostOnce),
    ("a", .active .exactlyOnce)], by decide⟩
  let again : Subscriptions :=
    ⟨[("a", .active .exactlyOnce), ("b", .active .atMostOnce)], by decide⟩
  have offline : c.outbox.connected = false := by decide +kernel
  have run : Reaches c actions d := reaches_after (by decide +kernel)
  have between : .hear (.connected (.ok ())) ∉ actions := by simp [actions]
  have order : ∀ filter, listed.get? filter = d.shared.subscriptions.get? filter :=
    Table.get?_of_perm (by decide +kernel)
  have reordered : ∀ filter,
      again.get? filter = (d.renewing listed).shared.subscriptions.get? filter :=
    Table.get?_of_perm (by decide +kernel)
  obtain ⟨asks, _, _, unchanged⟩ := edits_collapse offline run between order reordered
  exact ⟨c, d, actions, listed, again, offline, run, between, order, reordered, rfl, rfl,
    by decide +kernel, asks, unchanged⟩

end Client

end Courier
