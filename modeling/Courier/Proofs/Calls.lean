import Courier.Wire

/-! The calls a transport takes in a stretch of time, told apart by their kind. -/
namespace Courier

abbrev Attempt := Publication × Except TransportFault PacketId

def Attempt.call (a : Attempt) : Call := .publish a.1 a.2

def numbersOf (attempts : List Attempt) : List PacketId :=
  attempts.filterMap fun a => a.2.toOption

namespace Call

def attempt? : Call → Option Attempt
  | publish p result => some (p, result)
  | _ => none

def isSubscription : Call → Bool
  | subscribe _ _ _ _ | unsubscribe _ _ => true
  | _ => false

end Call

namespace Wire

variable {σ : Type} {v w x : Wire σ} {kind : Call → Prop}

def callsSince (v w : Wire σ) : List Call := w.calls.drop v.calls.length

def attemptsSince (v w : Wire σ) : List Attempt := (v.callsSince w).filterMap Call.attempt?

/-- Calls were made, all of one kind. -/
def Extends (v w : Wire σ) (kind : Call → Prop) : Prop :=
  ∃ more, w.calls = v.calls ++ more ∧ ∀ call ∈ more, kind call

/-- No publish call was made. -/
abbrev Idles (v w : Wire σ) : Prop := v.Extends w fun call => call.attempt? = none

/-- No subscription call was made. -/
abbrev Spares (v w : Wire σ) : Prop := v.Extends w fun call => call.isSubscription = false

abbrev Publishes (v w : Wire σ) : Prop := v.Extends w fun call => call.attempt?.isSome = true

theorem callsSince_of_append {more : List Call} (calls : w.calls = v.calls ++ more) :
    v.callsSince w = more := by
  rw [callsSince, calls, List.drop_left]

namespace Extends

theorem refl (w : Wire σ) : w.Extends w kind :=
  ⟨[], (List.append_nil _).symm, fun _ member => absurd member List.not_mem_nil⟩

theorem of_calls (same : w.calls = v.calls) : v.Extends w kind :=
  ⟨[], by rw [same, List.append_nil], fun _ member => absurd member List.not_mem_nil⟩

theorem trans (first : v.Extends w kind) (second : w.Extends x kind) : v.Extends x kind := by
  obtain ⟨more, calls, all⟩ := first
  obtain ⟨further, later, rest⟩ := second
  refine ⟨more ++ further, by rw [later, calls, List.append_assoc], ?_⟩
  intro call member
  rcases List.mem_append.mp member with one | two
  · exact all call one
  · exact rest call two

theorem after {call : Call} (holds : kind call) (s : σ) : w.Extends (w.after s call) kind := by
  refine ⟨[call], rfl, ?_⟩
  intro other member
  rw [List.mem_singleton.mp member]
  exact holds

theorem imp {other : Call → Prop} (extended : v.Extends w kind)
    (weaker : ∀ call, kind call → other call) : v.Extends w other := by
  obtain ⟨more, calls, all⟩ := extended
  exact ⟨more, calls, fun call made => weaker call (all call made)⟩

/-- Calls were made, of whatever kind. -/
theorem any (extended : v.Extends w kind) : v.Extends w fun _ => True := by
  obtain ⟨more, calls, _⟩ := extended
  exact ⟨more, calls, fun _ _ => trivial⟩

theorem attemptsSince_trans {other : Call → Prop} (first : v.Extends w kind)
    (second : w.Extends x other) :
    v.attemptsSince x = v.attemptsSince w ++ w.attemptsSince x := by
  obtain ⟨more, calls, _⟩ := first
  obtain ⟨further, later, _⟩ := second
  have all : x.calls = v.calls ++ (more ++ further) := by rw [later, calls, List.append_assoc]
  simp only [Wire.attemptsSince, callsSince_of_append calls, callsSince_of_append later,
    callsSince_of_append all, List.filterMap_append]

end Extends

theorem Idles.after {call : Call} (other : call.attempt? = none) (s : σ) :
    w.Idles (w.after s call) :=
  Extends.after other s

theorem Spares.after {call : Call} (other : call.isSubscription = false) (s : σ) :
    w.Spares (w.after s call) :=
  Extends.after other s

theorem Publishes.after {call : Call} (publishes : call.attempt?.isSome = true) (s : σ) :
    w.Publishes (w.after s call) :=
  Extends.after publishes s

theorem Publishes.spares (published : v.Publishes w) : v.Spares w := by
  refine published.imp fun call attempted => ?_
  cases call with
  | publish _ _ => rfl
  | _ => contradiction

theorem Idles.attemptsSince (idles : v.Idles w) : v.attemptsSince w = [] := by
  obtain ⟨more, calls, none⟩ := idles
  rw [Wire.attemptsSince, callsSince_of_append calls]
  exact List.filterMap_eq_nil_iff.mpr none

/-- Attempts made after calls of another kind. -/
theorem Idles.attempts {attempts : List Attempt} (idles : v.Idles w)
    (calls : x.calls = w.calls ++ attempts.map Attempt.call) : v.attemptsSince x = attempts := by
  obtain ⟨more, earlier, none⟩ := idles
  have all : x.calls = v.calls ++ (more ++ attempts.map Attempt.call) := by
    rw [calls, earlier, List.append_assoc]
  have silent := List.filterMap_eq_nil_iff.mpr none
  rw [Wire.attemptsSince, callsSince_of_append all, List.filterMap_append, silent,
    List.nil_append, List.filterMap_map]
  exact List.filterMap_some

section Subscriptions

variable {filter : String} {qos : QoS} {noLocal : Bool} {result : Except TransportFault Unit}

theorem subscribe_calls (told : w.subscribe filter qos noLocal = (result, x)) :
    x.calls = w.calls ++ [.subscribe filter qos noLocal result] := by
  cases told
  rfl

theorem unsubscribe_calls (told : w.unsubscribe filter = (result, x)) :
    x.calls = w.calls ++ [.unsubscribe filter result] := by
  cases told
  rfl

end Subscriptions

end Wire

end Courier
