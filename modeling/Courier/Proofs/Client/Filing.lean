import Courier.Proofs.Client.Events
import Courier.Proofs.Filters
import Courier.Proofs.Renewals

/-! Records are kept under filters and looked for by patterns. As no two patterns share a filter,
what becomes of the record under one of them is never seen under another. -/
namespace Courier.Client

variable {σ : Type} {c : Client σ} {pattern filter other : String} {qos : QoS}

theorem get?_subscribe (parsed : Topic.toFilter pattern = .ok filter) (apart : filter ≠ other) :
    (c.subscribe pattern qos).2.shared.subscriptions.get? other =
      c.shared.subscriptions.get? other := by
  by_cases online : c.shared.outbox.connected = true
  · cases told : c.wire.subscribe filter qos true with
    | mk result w =>
      simp only [subscribe, parsed, if_pos online, told]
      cases result with
      | ok _ => exact (Table.get?_insert _ filter other _).trans (if_neg apart)
      | error refused => exact Table.get?_restore_insert _ filter other _
  · simp only [subscribe, parsed, if_neg online]
    exact (Table.get?_insert _ filter other _).trans (if_neg apart)

theorem get?_unsubscribe (parsed : Topic.toFilter pattern = .ok filter) (apart : filter ≠ other) :
    (c.unsubscribe pattern).2.shared.subscriptions.get? other =
      c.shared.subscriptions.get? other := by
  by_cases online : c.shared.outbox.connected = true
  · cases told : c.wire.unsubscribe filter with
    | mk result w =>
      simp only [unsubscribe, parsed, if_pos online, told]
      cases result with
      | ok _ => exact (Table.get?_erase _ filter other).trans (if_neg apart)
      | error refused => exact Table.get?_restore_erase _ filter other
  · simp only [unsubscribe, parsed, if_neg online]
    exact (Table.get?_insert _ filter other _).trans (if_neg apart)

/-- What a call does about one pattern, no other pattern shows. -/
theorem subscription?_of_records {d : Client σ} {pattern other : String}
    (kept : ∀ filter filed, Topic.toFilter pattern = .ok filter → filter ≠ filed →
      d.shared.subscriptions.get? filed = c.shared.subscriptions.get? filed)
    (untouched : ∀ fault, Topic.toFilter pattern = .error fault → d = c)
    (apart : pattern ≠ other) : d.subscription? other = c.subscription? other := by
  cases parsed : Topic.toFilter pattern with
  | error fault => rw [untouched fault parsed]
  | ok filter =>
    simp only [subscription?]
    cases translated : Topic.toFilter other with
    | error fault => rfl
    | ok filed =>
      refine kept filter filed parsed ?_
      rintro rfl
      exact apart (Topic.toFilter_injective parsed translated)

theorem subscription?_subscribe (apart : pattern ≠ other) :
    (c.subscribe pattern qos).2.subscription? other = c.subscription? other := by
  apply subscription?_of_records _ _ apart
  · intro filter filed parsed apart
    exact get?_subscribe parsed apart
  · intro fault refused
    simp only [subscribe, refused]

theorem subscription?_unsubscribe (apart : pattern ≠ other) :
    (c.unsubscribe pattern).2.subscription? other = c.subscription? other := by
  apply subscription?_of_records _ _ apart
  · intro filter filed parsed apart
    exact get?_unsubscribe parsed apart
  · intro fault refused
    simp only [unsubscribe, refused]

/-- Every well-formed filter is that of one pattern and of no other, the one with the wildcard
exchanged, and no other text is a filter at all; the topics to publish to are the patterns that
are their own filters, and what the common checks refuse is refused alike. Hence what is asked
for or given up under one pattern is never seen under another. -/
theorem filters_one_to_one (c : Client σ) {pattern other : String} (apart : pattern ≠ other) :
    (∀ filter, Topic.toFilter pattern = .ok filter → Topic.toFilter other ≠ .ok filter) ∧
    (∀ filter, (∃ p, Topic.toFilter p = .ok filter) ↔ Topic.Form '#' filter) ∧
    (∀ filter, Topic.Form '#' filter → ∀ p,
      Topic.toFilter p = .ok filter ↔
        p = String.ofList (Topic.exchangeLast '#' '*' filter.toList)) ∧
    (∀ topic, Topic.checkPublish topic = .ok () ↔ Topic.toFilter topic = .ok topic) ∧
    (∀ topic fault, Topic.check topic = .error fault ↔
      Topic.toFilter topic = .error fault ∧ Topic.checkPublish topic = .error fault) ∧
    (∀ qos, (c.subscribe pattern qos).2.subscription? other = c.subscription? other) ∧
    (c.unsubscribe pattern).2.subscription? other = c.subscription? other := by
  refine ⟨?_, ?_, ?_, fun _ => Topic.checkPublish_iff_toFilter,
    fun _ _ => Topic.check_eq_error_iff, fun _ => subscription?_subscribe apart,
    subscription?_unsubscribe apart⟩
  · intro filter parsed same
    exact apart (Topic.toFilter_injective parsed same)
  · intro filter
    constructor
    · rintro ⟨p, parsed⟩
      exact (Topic.toFilter_eq_ok_iff_form.mp parsed).1
    · intro form
      exact ⟨Topic.patternOf filter, Topic.toFilter_eq_ok_iff_form.mpr ⟨form, rfl⟩⟩
  · intro filter form p
    exact Topic.toFilter_eq_ok_iff_form.trans (and_iff_right form)

open Rehearsal in
/-- Everything below `é/` is one pattern, and `é/` itself another. -/
theorem filters_one_to_one_prefix :
    ∃ c : Client Line, "é/*" ≠ "é/" ∧ c.shared.outbox.connected = true ∧
      c.subscription? "é/" = some (.active .exactlyOnce) ∧
      Topic.toFilter "é/*" = .ok "é/#" ∧ Topic.toFilter "é/" ≠ .ok "é/#" ∧
      (c.subscribe "é/*" .atMostOnce).2.subscription? "é/" = some (.active .exactlyOnce) ∧
      (c.unsubscribe "é/*").2.subscription? "é/" = some (.active .exactlyOnce) := by
  let c := client.after (connects ++ [.subscribe "é/" .exactlyOnce])
  have apart : "é/*" ≠ "é/" := by decide
  have recorded : c.subscription? "é/" = some (.active .exactlyOnce) := by decide +kernel
  have parsed : Topic.toFilter "é/*" = .ok "é/#" := by decide +kernel
  obtain ⟨distinct, _, _, _, _, asked, givenUp⟩ := filters_one_to_one c apart
  exact ⟨c, apart, by decide +kernel, recorded, parsed, distinct _ parsed,
    (asked .atMostOnce).trans recorded, givenUp.trans recorded⟩

end Courier.Client
