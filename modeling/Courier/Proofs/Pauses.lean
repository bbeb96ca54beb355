import Courier.Proofs.Acceptance
import Courier.Retry
import Mathlib.Data.List.Induction

/-! How long the pauses between failed attempts are. Lengths of time are compared and
multiplied as numbers of nanoseconds, which have no bound; the product stops at the longest
duration, but a cap is never longer than that, so under a cap the stop is not seen. -/
namespace Courier

namespace Duration

theorem toNanos_le_longest (d : Duration) : d.toNanos ≤ longest.toNanos := by
  have secs := d.secs_lt
  have nanos := d.nanos_lt
  simp only [toNanos, perSecond, longest]
  omega

theorem toNanos_min (a b : Duration) : (min a b).toNanos = min a.toNanos b.toNanos := by
  show (if a ≤ b then a else b).toNanos = _
  rw [Nat.min_def]
  by_cases le : a ≤ b
  · rw [if_pos le, if_pos ((le_iff_toNanos_le a b).mp le)]
  · rw [if_neg le, if_neg (mt (le_iff_toNanos_le a b).mpr le)]

/-- A product that does not fit is longer than any duration. -/
theorem longest_lt_of_times? {d : Duration} {n : Nat} (unfit : d.times? n = none) :
    longest.toNanos < d.toNanos * n := by
  unfold times? at unfit
  dsimp only at unfit
  split at unfit
  · contradiction
  · rename_i large
    have split : d.toNanos * n = d.secs * n * 1000000000 + d.nanos * n := by
      simp only [toNanos, perSecond]
      rw [Nat.add_mul, Nat.mul_right_comm]
    rw [split]
    simp only [toNanos, perSecond, longest]
    omega

theorem toNanos_saturatingTimes (d : Duration) (n : Nat) :
    (d.saturatingTimes n).toNanos = min (d.toNanos * n) longest.toNanos := by
  unfold saturatingTimes
  cases product : d.times? n with
  | none =>
    rw [Option.getD_none, Nat.min_eq_right (Nat.le_of_lt (longest_lt_of_times? product))]
  | some e =>
    rw [Option.getD_some, ← toNanos_times? product, Nat.min_eq_left e.toNanos_le_longest]

/-- Under a cap the product is exact. -/
theorem toNanos_capped (d cap : Duration) (n : Nat) :
    (min (d.saturatingTimes n) cap).toNanos = min (d.toNanos * n) cap.toNanos := by
  rw [toNanos_min, toNanos_saturatingTimes, Nat.min_assoc, Nat.min_eq_right cap.toNanos_le_longest]

end Duration

/-- Options that were accepted pause for a while, and for no longer than their cap. -/
theorem Options.delays_of_check {options : Options} (accepted : options.check = .ok ()) :
    options.reconnectStep ≠ .zero ∧ options.reconnectStep ≤ options.reconnectMax := by
  obtain ⟨positive, capped⟩ := (check_eq_ok_iff.mp accepted).reconnect
  exact ⟨Duration.toNanos_pos_iff.mp positive, (Duration.le_iff_toNanos_le _ _).mpr capped⟩

namespace Retry

/-- So many failures in a row, counted as far as the count goes. -/
def counting (r : Retry) (failures : Nat) : Retry :=
  { r with failures := UInt32.ofNat (min failures 4294967295) }

def nth (r : Retry) (n : Nat) : Duration :=
  min (r.step.saturatingTimes (min n 4294967295)) r.longest

theorem toNat_failures_counting (r : Retry) (n : Nat) :
    (r.counting n).failures.toNat = min n 4294967295 := by
  simp only [counting, UInt32.toNat_ofNat']
  omega

theorem pause_counting (r : Retry) (n : Nat) : (r.counting n).pause = r.nth n := by
  simp only [pause, nth, toNat_failures_counting]
  rfl

theorem succeed_counting (r : Retry) (n : Nat) : (r.counting n).succeed = r.counting 0 := rfl

theorem fail_counting (r : Retry) (n : Nat) : (r.counting n).fail = r.counting (n + 1) := by
  have failures : (r.counting n).fail.failures = (r.counting (n + 1)).failures := by
    apply UInt32.toNat_inj.mp
    have counted := r.toNat_failures_counting n
    simp only [toNat_failures_counting, fail]
    split
    · rename_i full
      have most : (r.counting n).failures.toNat = 4294967295 := congrArg UInt32.toNat full
      omega
    · rename_i short
      have fewer : (r.counting n).failures.toNat ≠ 4294967295 := by
        intro most
        exact short (UInt32.toNat_inj.mp most)
      rw [UInt32.toNat_add]
      simp only [UInt32.reduceToNat]
      omega
  exact congrArg (fun failures => { r with failures }) failures

theorem toNanos_nth (r : Retry) (n : Nat) :
    (r.nth n).toNanos = min (r.step.toNanos * min n 4294967295) r.longest.toNanos :=
  Duration.toNanos_capped r.step r.longest _

theorem nth_mono (r : Retry) {m n : Nat} (le : m ≤ n) : r.nth m ≤ r.nth n := by
  have counts : min m 4294967295 ≤ min n 4294967295 := by omega
  have products := Nat.mul_le_mul_left r.step.toNanos counts
  rw [Duration.le_iff_toNanos_le, toNanos_nth, toNanos_nth]
  omega

theorem nth_le_longest (r : Retry) (n : Nat) : r.nth n ≤ r.longest := by
  rw [Duration.le_iff_toNanos_le, toNanos_nth]
  exact Nat.min_le_right _ _

/-- No pause is shorter than the first one. -/
theorem step_le_nth {r : Retry} {n : Nat} (counted : 0 < n) (capped : r.step ≤ r.longest) :
    r.step ≤ r.nth n := by
  rw [Duration.le_iff_toNanos_le] at capped ⊢
  have once : 1 ≤ min n 4294967295 := by omega
  have product := Nat.mul_le_mul_left r.step.toNanos once
  rw [toNanos_nth]
  omega

inductive Report where
  | failed
  | succeeded
  deriving DecidableEq

def hear (r : Retry) : Report → Retry
  | .failed => r.fail
  | .succeeded => r.succeed

/-- The pause that a failure is answered with after these reports. -/
def due (step longest : Duration) (past : List Report) : Duration :=
  (past.foldl hear { step, longest }).fail.pause

def streak (reports : List Report) : Nat := (reports.reverse.takeWhile (· = .failed)).length

theorem streak_failed (reports : List Report) :
    streak (reports ++ [.failed]) = streak reports + 1 := by
  rw [streak, List.reverse_append]
  rfl

theorem streak_succeeded (reports : List Report) : streak (reports ++ [.succeeded]) = 0 := by
  rw [streak, List.reverse_append]
  rfl

/-- Without a success in between the failures add up. -/
theorem streak_append (past : List Report) {more : List Report} (unbroken : .succeeded ∉ more) :
    streak (past ++ more) = streak past + more.length := by
  induction more using List.reverseRecOn with
  | nil => rw [List.append_nil, List.length_nil, Nat.add_zero]
  | append_singleton more last ih =>
    cases last with
    | succeeded => exact absurd (List.mem_append_right _ List.mem_cons_self) unbroken
    | failed =>
      have before := ih fun member => unbroken (List.mem_append_left _ member)
      rw [← List.append_assoc, streak_failed, before, List.length_append, List.length_singleton,
        Nat.add_assoc]

theorem foldl_hear (r : Retry) (reports : List Report) :
    reports.foldl hear (r.counting 0) = r.counting (streak reports) := by
  induction reports using List.reverseRecOn with
  | nil => rfl
  | append_singleton reports last ih =>
    rw [List.foldl_append, ih]
    cases last with
    | failed => exact (r.fail_counting _).trans (by rw [streak_failed])
    | succeeded => exact (r.succeed_counting _).trans (by rw [streak_succeeded])

theorem due_eq (step longest : Duration) (past : List Report) :
    due step longest past = ({ step, longest } : Retry).nth (streak past + 1) := by
  have counted := foldl_hear { step, longest } past
  rw [due, ← pause_counting, ← fail_counting, ← counted]
  rfl

/-- Every pause is as many steps long as failures have been reported since the last success,
this one included and counted as far as the count goes, or as long as the cap; so the pauses
do not shrink until a success is reported, and under accepted options none is shorter than a
step, let alone empty. -/
theorem pauses_exact (step longest : Duration) (past : List Report) :
    (due step longest past).toNanos =
        min (step.toNanos * min (streak (past ++ [.failed])) 4294967295) longest.toNanos ∧
      (∀ more, .succeeded ∉ more →
        due step longest past ≤ due step longest (past ++ .failed :: more)) ∧
      ∀ options : Options, options.check = .ok () → options.reconnectStep = step →
        options.reconnectMax = longest →
        step ≤ due step longest past ∧ due step longest past ≤ longest ∧
          due step longest past ≠ .zero := by
  refine ⟨?_, ?_, ?_⟩
  · rw [due_eq, toNanos_nth, streak_failed]
  · intro more unbroken
    have longer : streak (past ++ .failed :: more) = streak past + (more.length + 1) :=
      streak_append past (by simpa using unbroken)
    rw [due_eq, due_eq, longer]
    apply nth_mono
    omega
  · rintro options accepted rfl rfl
    obtain ⟨positive, capped⟩ := Options.delays_of_check accepted
    rw [due_eq]
    have atLeast := step_le_nth (r := ⟨_, _, 0⟩) (Nat.succ_pos (streak past)) capped
    refine ⟨atLeast, nth_le_longest _ _, ?_⟩
    intro empty
    rw [empty, Duration.le_iff_toNanos_le] at atLeast
    exact positive (Duration.eq_of_toNanos (Nat.le_zero.mp atLeast))

/-- After a success, four steps that are longer together than any duration. -/
theorem pauses_exact_saturated :
    ∃ (options : Options) (past : List Report),
      options.check = .ok () ∧ options.reconnectMax = .longest ∧
      streak (past ++ [.failed]) = 4 ∧ .succeeded ∉ [Report.failed] ∧
      due options.reconnectStep .longest past = .longest ∧
      (due options.reconnectStep .longest past).toNanos =
        min (options.reconnectStep.toNanos * min 4 4294967295) Duration.longest.toNanos ∧
      due options.reconnectStep .longest past ≤
        due options.reconnectStep .longest (past ++ [.failed, .failed]) ∧
      options.reconnectStep ≤ due options.reconnectStep .longest past := by
  let step : Duration := ⟨4611686018427387904, 250000000, by decide, by decide⟩
  let options : Options := { clientId := "c", reconnectStep := step, reconnectMax := .longest }
  let past : List Report := [.failed, .succeeded, .failed, .failed, .failed]
  have accepted : options.check = .ok () := by decide +kernel
  have four : streak (past ++ [.failed]) = 4 := by decide
  have unbroken : .succeeded ∉ [Report.failed] := by decide
  obtain ⟨exact, grows, bounds⟩ := pauses_exact step .longest past
  rw [four] at exact
  exact ⟨options, past, accepted, rfl, four, unbroken, by decide +kernel, exact, grows _ unbroken,
    (bounds options accepted rfl rfl).1⟩

end Retry

end Courier
