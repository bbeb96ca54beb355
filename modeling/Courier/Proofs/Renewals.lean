import Courier.Client.Events
import Courier.Proofs.Calls
import Courier.Proofs.Contents

/-! The broker's side of the subscriptions. A session holds what the calls that
succeeded left in it. Repeating the records to a session that holds nothing else
leaves exactly the active ones, provided no call fails. -/
namespace Courier

abbrev Session := Table String QoS

namespace Table

variable {κ α : Type} [DecidableEq κ] (t : Table κ α) (k j : κ) (a : α)

theorem get?_restore (before : Option α) :
    (t.restore k before).get? j = if k = j then before else t.get? j := by
  cases before with
  | none => exact t.get?_erase k j
  | some a => exact t.get?_insert k j a

theorem get?_restore_insert : ((t.insert k a).restore k (t.get? k)).get? j = t.get? j := by
  rw [get?_restore, get?_insert]
  split
  · rename_i same
    rw [same]
  · rfl

theorem get?_restore_erase : ((t.erase k).restore k (t.get? k)).get? j = t.get? j := by
  rw [get?_restore, get?_erase]
  split
  · rename_i same
    rw [same]
  · rfl

end Table

theorem Subscriptions.get?_renewed (s : Subscriptions) (filter : String) :
    s.renewed.get? filter = (s.get? filter).filter Subscription.isActive := by
  ext record
  rw [Option.filter_eq_some_iff]
  exact Table.get?_retain

def Call.misses : Call → Bool
  | subscribe _ _ _ result | unsubscribe _ result => !result.toBool
  | _ => false

def Renewal.call : Renewal → Except TransportFault Unit → Call
  | subscribe filter qos, result => .subscribe filter qos true result
  | unsubscribe filter, result => .unsubscribe filter result

/-- The request a call makes, if it is one that leaves out the client's own messages. -/
def Call.request? : Call → Option Renewal
  | subscribe filter qos true _ => some (.subscribe filter qos)
  | unsubscribe filter _ => some (.unsubscribe filter)
  | _ => none

theorem Call.isSubscription_of_request? {call : Call} {r : Renewal}
    (asked : call.request? = some r) : call.isSubscription = true := by
  cases call with
  | subscribe | unsubscribe => rfl
  | _ => contradiction

theorem Renewal.request?_call (r : Renewal) (result : Except TransportFault Unit) :
    (r.call result).request? = some r := by
  cases r <;> rfl

theorem Call.eq_of_request? {call : Call} {r : Renewal} (asked : call.request? = some r)
    (succeeds : call.misses = false) : call = r.call (.ok ()) := by
  have told {result : Except TransportFault Unit} (ok : (!result.toBool) = false) :
      result = .ok () := by
    cases result with
    | ok _ => rfl
    | error _ => contradiction
  unfold Call.request? at asked
  split at asked
  · cases asked
    rw [told succeeds]
    rfl
  · cases asked
    rw [told succeeds]
    rfl
  · contradiction

/-- Requests that all succeed make one list of calls only. -/
theorem Call.eq_of_requests {calls : List Call} {requests : List Renewal}
    (asked : calls.map Call.request? = requests.map some)
    (succeed : ∀ call ∈ calls, call.misses = false) :
    calls = requests.map (·.call (.ok ())) := by
  induction calls generalizing requests with
  | nil => rw [List.map_eq_nil_iff.mp asked.symm]; rfl
  | cons call calls ih =>
    obtain ⟨r, rest, rfl, first, further⟩ := List.map_eq_cons_iff.mp asked.symm
    obtain ⟨one, others⟩ := List.forall_mem_cons.mp succeed
    rw [List.map_cons, ← ih further.symm others, ← Call.eq_of_request? first.symm one]

def Subscription.qos? : Subscription → Option QoS
  | active qos => some qos
  | givenUp => none

namespace Wire

variable {σ : Type}

theorem renew_calls (w : Wire σ) (r : Renewal) :
    ∃ result, (Shared.renew w r).calls = w.calls ++ [r.call result] := by
  cases r with
  | subscribe filter qos => exact ⟨_, rfl⟩
  | unsubscribe filter => exact ⟨_, rfl⟩

/-- One call for each request, in order. -/
theorem renewals_calls (renewals : List Renewal) (w : Wire σ) :
    ∃ calls, (renewals.foldl Shared.renew w).calls = w.calls ++ calls ∧
      calls.map Call.request? = renewals.map some := by
  induction renewals generalizing w with
  | nil => exact ⟨[], (List.append_nil _).symm, rfl⟩
  | cons r rest ih =>
    obtain ⟨result, first⟩ := w.renew_calls r
    obtain ⟨calls, further, asked⟩ := ih (Shared.renew w r)
    refine ⟨r.call result :: calls, ?_, ?_⟩
    · rw [List.foldl_cons, further, first, List.append_assoc, List.singleton_append]
    · rw [List.map_cons, asked, r.request?_call, List.map_cons]

/-- No call is made but such as are about subscriptions. -/
theorem renewals_extends (renewals : List Renewal) (w : Wire σ) :
    w.Extends (renewals.foldl Shared.renew w) fun call => call.isSubscription = true := by
  obtain ⟨calls, made, asked⟩ := w.renewals_calls renewals
  refine ⟨calls, made, fun call member => ?_⟩
  have request : call.request? ∈ renewals.map some := asked ▸ List.mem_map_of_mem member
  obtain ⟨r, _, same⟩ := List.mem_map.mp request
  exact Call.isSubscription_of_request? same.symm

end Wire

namespace Session

variable {held : Session} {s : Subscriptions}

/-- A failed call changes nothing. -/
def hear (held : Session) : Call → Session
  | .subscribe filter qos _ (.ok ()) => held.insert filter qos
  | .unsubscribe filter (.ok ()) => held.erase filter
  | _ => held

def told (held : Session) (calls : List Call) : Session := calls.foldl hear held

theorem hear_of_other {call : Call} (other : call.isSubscription = false) :
    held.hear call = held := by
  cases call <;> first | rfl | contradiction

theorem told_of_others {calls : List Call} (others : ∀ call ∈ calls, call.isSubscription = false) :
    held.told calls = held := by
  induction calls with
  | nil => rfl
  | cons call rest ih =>
    obtain ⟨first, further⟩ := List.forall_mem_cons.mp others
    rw [told, List.foldl_cons, hear_of_other first]
    exact ih further

theorem told_append (first second : List Call) :
    held.told (first ++ second) = (held.told first).told second :=
  List.foldl_append

/-- The session holds the active records, and none but them are there. -/
def Mirrors (held : Session) (s : Subscriptions) : Prop :=
  ∀ filter, s.get? filter = (held.get? filter).map .active

def Covered (held : Session) (s : Subscriptions) : Prop :=
  ∀ filter, held.get? filter ≠ none → s.get? filter ≠ none

theorem covered_empty (s : Subscriptions) : Covered ∅ s := fun _ holds => absurd rfl holds

theorem Covered.insert (covered : held.Covered s) (filter : String) (record : Subscription) :
    held.Covered (s.insert filter record) := by
  intro other holds
  rw [Table.get?_insert]
  split
  · exact Option.some_ne_none record
  · exact covered other holds

namespace Mirrors

theorem covered (mirrors : held.Mirrors s) : held.Covered s := by
  intro filter holds
  rw [mirrors filter]
  exact fun absent => holds (Option.map_eq_none_iff.mp absent)

theorem insert (mirrors : held.Mirrors s) (filter : String) (qos : QoS) :
    Mirrors (Table.insert held filter qos) (s.insert filter (.active qos)) := by
  intro other
  rw [Table.get?_insert, Table.get?_insert]
  split
  · rfl
  · exact mirrors other

theorem erase (mirrors : held.Mirrors s) (filter : String) :
    Mirrors (Table.erase held filter) (s.erase filter) := by
  intro other
  rw [Table.get?_erase, Table.get?_erase]
  split
  · rfl
  · exact mirrors other

theorem active_iff (mirrors : held.Mirrors s) (filter : String) (qos : QoS) :
    held.get? filter = some qos ↔ s.get? filter = some (.active qos) := by
  rw [mirrors filter]
  cases held.get? filter <;> simp

theorem ne_givenUp (mirrors : held.Mirrors s) (filter : String) :
    s.get? filter ≠ some .givenUp := by
  rw [mirrors filter]
  cases held.get? filter <;> simp

end Mirrors

theorem hear_renewal (held : Session) (record : Subscription) (key filter : String) :
    (held.hear ((record.renewal key).call (.ok ()))).get? filter =
      if key = filter then record.qos? else held.get? filter := by
  cases record with
  | active qos => exact Table.get?_insert held key filter qos
  | givenUp => exact Table.get?_erase held key filter

theorem told_entries {entries : List (String × Subscription)}
    (distinct : (entries.map Prod.fst).Nodup) (held : Session) (filter : String) :
    (held.told (entries.map fun entry => (entry.2.renewal entry.1).call (.ok ()))).get? filter =
      (Table.find filter entries).elim (held.get? filter) Subscription.qos? := by
  induction entries generalizing held with
  | nil => rfl
  | cons entry rest ih =>
    obtain ⟨key, record⟩ := entry
    obtain ⟨unlisted, distinct⟩ := List.nodup_cons.mp distinct
    have further := ih distinct (held.hear ((record.renewal key).call (.ok ())))
    have first := hear_renewal held record key filter
    rw [List.map_cons, told, List.foldl_cons, Table.find]
    by_cases same : key = filter
    · rw [if_pos same] at first ⊢
      have absent : (⟨rest, distinct⟩ : Subscriptions).get? filter = none :=
        Table.get?_eq_none_iff.mpr (same ▸ unlisted)
      rw [show Table.find filter rest = none from absent] at further
      exact further.trans first
    · rw [if_neg same] at first ⊢
      rw [first] at further
      exact further

/-- A record decides what is held under its filter; where there is none the
session keeps what it held. -/
theorem told_renewals (held : Session) (s : Subscriptions) (filter : String) :
    (held.told (s.renewals.map (·.call (.ok ())))).get? filter =
      (s.get? filter).elim (held.get? filter) Subscription.qos? := by
  rw [Subscriptions.renewals, List.map_map]
  exact told_entries s.keys_nodup held filter

theorem Covered.renewed (covered : held.Covered s) :
    (held.told (s.renewals.map (·.call (.ok ())))).Mirrors s.renewed := by
  intro filter
  rw [Subscriptions.get?_renewed, told_renewals]
  cases found : s.get? filter with
  | none =>
    have unheld : held.get? filter = none := by
      by_contra holds
      exact covered filter holds found
    rw [Option.elim_none, unheld]
    rfl
  | some record => cases record <;> rfl

end Session

end Courier
