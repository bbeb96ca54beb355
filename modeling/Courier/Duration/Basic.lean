/-! Lengths of time as whole seconds, which fit in 64 bits, and a rest in
nanoseconds. `toNanos` is the plain number of nanoseconds; the products below
agree with it up to the largest length, where they stop. -/
namespace Courier

structure Duration where
  secs : Nat
  nanos : Nat
  secs_lt : secs < 18446744073709551616 := by omega
  nanos_lt : nanos < 1000000000 := by omega
  deriving DecidableEq

namespace Duration

def perSecond : Nat := 1000000000

def zero : Duration := ⟨0, 0, by decide, by decide⟩

/-- The largest length. -/
def longest : Duration := ⟨18446744073709551615, 999999999, by decide, by decide⟩

/-- A length of whole seconds, cut off at the largest count. -/
def ofSecs (s : Nat) : Duration :=
  ⟨min s 18446744073709551615, 0, Nat.lt_of_le_of_lt (Nat.min_le_right _ _) (by decide), by decide⟩

def ofParts? (secs nanos : Nat) : Option Duration :=
  if h : secs < 18446744073709551616 ∧ nanos < 1000000000 then some ⟨secs, nanos, h.1, h.2⟩
  else none

def toNanos (d : Duration) : Nat := d.secs * perSecond + d.nanos

instance : LE Duration := ⟨fun a b => a.secs < b.secs ∨ (a.secs = b.secs ∧ a.nanos ≤ b.nanos)⟩

instance (a b : Duration) : Decidable (a ≤ b) :=
  inferInstanceAs (Decidable (_ ∨ _))

instance : Min Duration := ⟨fun a b => if a ≤ b then a else b⟩

/-- The product with a count, nanoseconds carried into seconds; none when the
seconds do not fit. -/
def times? (d : Duration) (n : Nat) : Option Duration :=
  let rest := d.nanos * n
  let secs := d.secs * n + rest / 1000000000
  if h : secs < 18446744073709551616 then
    some ⟨secs, rest % 1000000000, h, Nat.mod_lt _ (by decide)⟩
  else none

/-- The product with a count, or the largest length when it does not fit. -/
def saturatingTimes (d : Duration) (n : Nat) : Duration := (d.times? n).getD longest

theorem le_iff_toNanos_le (a b : Duration) : a ≤ b ↔ a.toNanos ≤ b.toNanos := by
  show (_ ∨ _) ↔ _
  have ha := a.nanos_lt
  have hb := b.nanos_lt
  simp only [toNanos, perSecond]
  omega

theorem toNanos_times? {d e : Duration} {n : Nat} (h : d.times? n = some e) :
    e.toNanos = d.toNanos * n := by
  unfold times? at h
  dsimp only at h
  split at h
  · cases h
    simp only [toNanos, perSecond]
    rw [Nat.add_mul, Nat.add_mul, Nat.mul_right_comm d.secs]
    omega
  · cases h

end Duration

end Courier
