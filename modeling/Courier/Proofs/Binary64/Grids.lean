import Courier.Binary64.Text
import Courier.Proofs.Binary64.Rounding

/-! Grids of decimal numbers over the numbers that round to one floating-point number. On a grid
the nearest of them is one of the two next to that number itself, if there is any. -/
namespace Courier.Binary64

variable {m n digits num den : Nat} {e p : Int} {i : Interval}

/-- Of the grid points that round to a number, the one that is nearest, the upper one of two. -/
structure NearestOnGrid (digits m : Nat) (e p : Int) : Prop where
  rounds : Rounds (digits * 10 ^ p) m e
  closest : ∀ n : Nat, Rounds (n * 10 ^ p) m e →
    |(digits : ℚ) * 10 ^ p - magnitude m e| ≤ |n * 10 ^ p - magnitude m e| ∧
      (|(digits : ℚ) * 10 ^ p - magnitude m e| = |n * 10 ^ p - magnitude m e| → n ≤ digits)

namespace Interval

/-- An interval holds what rounds to a number, in units of a power of ten. -/
structure Measures (i : Interval) (m : Nat) (e p : Int) : Prop where
  den_pos : 0 < i.den
  low : (i.low : ℚ) / i.den * 10 ^ p = magnitude m e - reachBelow m e
  value : (i.value : ℚ) / i.den * 10 ^ p = magnitude m e
  high : (i.high : ℚ) / i.den * 10 ^ p = magnitude m e + 2 ^ e / 2
  closed : i.closed = true ↔ m % 2 = 0

end Interval

/-- A shift by an exponent over a shift against it is a power of two. -/
theorem shift_div_shift (n : Nat) (e : Int) :
    ((n <<< e.toNat : ℕ) : ℚ) / (1 <<< (-e).toNat : ℕ) = n * 2 ^ e := by
  rw [Nat.shiftLeft_eq, Nat.shiftLeft_eq, Nat.one_mul, zpow_eq_div two_ne_zero e, ← mul_div_assoc]
  push_cast
  rfl

/-- The interval of a number in units of its own. -/
theorem measures_interval (nonzero : m ≠ 0) : (interval m e).Measures m e 0 := by
  have quarter : (2 : ℚ) ^ (e - 2) = 2 ^ e / 4 := by
    rw [zpow_sub₀ two_ne_zero]
    norm_num
  have back : (-(e - 2)).toNat = (2 - e).toNat := by omega
  refine ⟨?_, ?_, ?_, ?_, ?_⟩
  · show 0 < 1 <<< (2 - e).toNat
    rw [Nat.shiftLeft_eq]
    exact Nat.mul_pos Nat.one_pos (Nat.two_pow_pos _)
  · rw [interval, ← back, zpow_zero, mul_one, shift_div_shift, quarter, magnitude, reachBelow]
    split
    · rw [Nat.cast_sub (by omega)]
      push_cast
      ring
    · rw [Nat.cast_sub (by omega)]
      push_cast
      ring
  · rw [interval, ← back, zpow_zero, mul_one, shift_div_shift, quarter, magnitude]
    push_cast
    ring
  · rw [interval, ← back, zpow_zero, mul_one, shift_div_shift, quarter, magnitude]
    push_cast
    ring
  · exact decide_eq_true_iff

theorem Interval.Measures.onGrid (measures : i.Measures m e 0) (p : Int) :
    (i.onGrid p).Measures m e p := by
  have den_pos := measures.den_pos
  have unit : (0 : ℚ) < 10 ^ p := zpow_pos (by norm_num) _
  -- Both sides are multiplied by what the unit is short of.
  have rescale (n : Nat) : ((n * Nat.pow 10 (-p).toNat : ℕ) : ℚ) /
      (i.den * Nat.pow 10 p.toNat : ℕ) * 10 ^ p = n / i.den * 10 ^ (0 : Int) := by
    have den_pos' : (0 : ℚ) < i.den := by exact_mod_cast den_pos
    rw [Nat.pow_eq, Nat.pow_eq, zpow_eq_div (by norm_num) p, zpow_zero, mul_one]
    push_cast
    field_simp
  exact {
    den_pos := Nat.mul_pos den_pos (Nat.pow_pos (by decide))
    low := (rescale i.low).trans measures.low
    value := (rescale i.value).trans measures.value
    high := (rescale i.high).trans measures.high
    closed := measures.closed }

namespace Interval

variable (measures : i.Measures m e p)

include measures

/-- A number of units is at most another number just if it is so in quotients. -/
theorem Measures.le_iff {a : Nat} {x : ℚ} (value : (a : ℚ) / i.den * 10 ^ p = x) :
    (n : ℚ) * 10 ^ p ≤ x ↔ n * i.den ≤ a := by
  have unit : (0 : ℚ) < 10 ^ p := zpow_pos (by norm_num) _
  have den_pos : (0 : ℚ) < i.den := by exact_mod_cast measures.den_pos
  rw [← value, mul_le_mul_iff_left₀ unit, le_div_iff₀ den_pos]
  exact_mod_cast Iff.rfl

theorem Measures.ge_iff {a : Nat} {x : ℚ} (value : (a : ℚ) / i.den * 10 ^ p = x) :
    x ≤ (n : ℚ) * 10 ^ p ↔ a ≤ n * i.den := by
  have unit : (0 : ℚ) < 10 ^ p := zpow_pos (by norm_num) _
  have den_pos : (0 : ℚ) < i.den := by exact_mod_cast measures.den_pos
  rw [← value, mul_le_mul_iff_left₀ unit, div_le_iff₀ den_pos]
  exact_mod_cast Iff.rfl

theorem Measures.lt_iff {a : Nat} {x : ℚ} (value : (a : ℚ) / i.den * 10 ^ p = x) :
    (n : ℚ) * 10 ^ p < x ↔ n * i.den < a := by
  rw [← not_le, measures.ge_iff value, Nat.not_le]

theorem Measures.gt_iff {a : Nat} {x : ℚ} (value : (a : ℚ) / i.den * 10 ^ p = x) :
    x < (n : ℚ) * 10 ^ p ↔ a < n * i.den := by
  rw [← not_le, measures.le_iff value, Nat.not_le]

/-- An interval contains the grid points that round to its number. -/
theorem Measures.contains_iff : i.contains n = true ↔ Rounds (n * 10 ^ p) m e := by
  unfold contains
  split
  next closed =>
    rw [rounds_iff_of_even (measures.closed.mp closed), measures.ge_iff measures.low,
      measures.le_iff measures.high, Bool.and_eq_true, decide_eq_true_iff, decide_eq_true_iff]
  next opened =>
    rw [rounds_iff_of_odd (mt measures.closed.mpr opened), measures.gt_iff measures.low,
      measures.lt_iff measures.high, Bool.and_eq_true, decide_eq_true_iff, decide_eq_true_iff]

theorem Measures.floor_le : ((i.value / i.den : ℕ) : ℚ) * 10 ^ p ≤ magnitude m e :=
  (measures.le_iff measures.value).mpr (Nat.div_mul_le_self _ _)

theorem Measures.value_lt : i.value < (i.value / i.den + 1) * i.den := by
  rw [Nat.mul_comm]
  exact Nat.lt_mul_div_succ _ measures.den_pos

theorem Measures.lt_floor_succ : magnitude m e < ((i.value / i.den + 1 : ℕ) : ℚ) * 10 ^ p :=
  (measures.gt_iff measures.value).mpr measures.value_lt

/-- A grid point that rounds to a number leaves one next to that number that does. -/
theorem Measures.next_rounds (rounds : Rounds (n * 10 ^ p) m e) :
    n ≤ i.value / i.den ∧ Rounds ((i.value / i.den : ℕ) * 10 ^ p) m e ∨
      i.value / i.den + 1 ≤ n ∧ Rounds ((i.value / i.den + 1 : ℕ) * 10 ^ p) m e := by
  have unit : (0 : ℚ) < 10 ^ p := zpow_pos (by norm_num) _
  rcases Nat.lt_or_ge (i.value / i.den) n with above | below
  · refine .inr ⟨above, (rounds_magnitude m e).between rounds measures.lt_floor_succ.le ?_⟩
    gcongr
    exact above
  · refine .inl ⟨below, rounds.between (rounds_magnitude m e) ?_ measures.floor_le⟩
    gcongr

/-- Where no grid point is found, none rounds to the number. -/
theorem Measures.not_rounds (none : i.nearest? = none) : ¬Rounds (n * 10 ^ p) m e := by
  intro rounds
  unfold nearest? at none
  dsimp only at none
  rcases measures.next_rounds rounds with ⟨_, rounds⟩ | ⟨_, rounds⟩
  · rw [measures.contains_iff.mpr rounds] at none
    split at none <;> contradiction
  · rw [measures.contains_iff.mpr rounds] at none
    split at none <;> contradiction

theorem Measures.distance_below (below : n ≤ i.value / i.den) :
    |(n : ℚ) * 10 ^ p - magnitude m e| = magnitude m e - n * 10 ^ p := by
  have unit : (0 : ℚ) < 10 ^ p := zpow_pos (by norm_num) _
  have le : (n : ℚ) * 10 ^ p ≤ (i.value / i.den : ℕ) * 10 ^ p := by gcongr
  rw [abs_of_nonpos (sub_nonpos.mpr (le.trans measures.floor_le)), neg_sub]

theorem Measures.distance_above (above : i.value / i.den + 1 ≤ n) :
    |(n : ℚ) * 10 ^ p - magnitude m e| = n * 10 ^ p - magnitude m e := by
  have unit : (0 : ℚ) < 10 ^ p := zpow_pos (by norm_num) _
  have le : ((i.value / i.den + 1 : ℕ) : ℚ) * 10 ^ p ≤ n * 10 ^ p := by gcongr
  exact abs_of_nonneg (sub_nonneg.mpr (measures.lt_floor_succ.le.trans le))

/-- Which of the two points next to a number is the nearer one. -/
theorem Measures.nearer_iff :
    (i.value / i.den + 1) * i.den - i.value ≤ i.value - i.value / i.den * i.den ↔
      ((i.value / i.den + 1 : ℕ) : ℚ) * 10 ^ p - magnitude m e ≤
        magnitude m e - (i.value / i.den : ℕ) * 10 ^ p := by
  have unit : (0 : ℚ) < 10 ^ p := zpow_pos (by norm_num) _
  have den_pos : (0 : ℚ) < i.den := by exact_mod_cast measures.den_pos
  have below : i.value / i.den * i.den ≤ i.value := Nat.div_mul_le_self _ _
  have above := measures.value_lt
  have cross : (i.value / i.den + 1) * i.den - i.value ≤ i.value - i.value / i.den * i.den ↔
      ((i.value / i.den + 1 : ℕ) + (i.value / i.den : ℕ) : ℚ) * i.den ≤ 2 * i.value := by
    norm_cast
    simp only [Nat.add_mul] at above ⊢
    omega
  rw [cross, ← measures.value, ← sub_nonneg, ← sub_nonneg (b := _ - _)]
  have same : i.value / (i.den : ℚ) * 10 ^ p - (i.value / i.den : ℕ) * 10 ^ p -
      ((i.value / i.den + 1 : ℕ) * 10 ^ p - i.value / i.den * 10 ^ p) =
        (2 * i.value - ((i.value / i.den + 1 : ℕ) + (i.value / i.den : ℕ)) * i.den) *
          (10 ^ p / i.den) := by
    field_simp
    ring
  rw [same, mul_nonneg_iff_of_pos_right (by positivity)]

/-- The grid point that is found is the nearest one. -/
theorem Measures.nearest (found : i.nearest? = some digits) : NearestOnGrid digits m e p := by
  have unit : (0 : ℚ) < 10 ^ p := zpow_pos (by norm_num) _
  -- The nearest of the points on either side is the one next to the number.
  have below {n : Nat} (le : n ≤ i.value / i.den) :
      |((i.value / i.den : ℕ) : ℚ) * 10 ^ p - magnitude m e| ≤ |n * 10 ^ p - magnitude m e| := by
    rw [measures.distance_below le, measures.distance_below le_rfl]
    have : (n : ℚ) * 10 ^ p ≤ (i.value / i.den : ℕ) * 10 ^ p := by gcongr
    linarith
  have above {n : Nat} (le : i.value / i.den + 1 ≤ n) :
      |((i.value / i.den + 1 : ℕ) : ℚ) * 10 ^ p - magnitude m e| ≤
        |n * 10 ^ p - magnitude m e| ∧
      (|((i.value / i.den + 1 : ℕ) : ℚ) * 10 ^ p - magnitude m e| =
        |n * 10 ^ p - magnitude m e| → n ≤ i.value / i.den + 1) := by
    rw [measures.distance_above le, measures.distance_above le_rfl, sub_le_sub_iff_right,
      sub_left_inj, mul_le_mul_iff_left₀ unit, mul_left_inj' unit.ne', Nat.cast_le, Nat.cast_inj]
    exact ⟨le, fun same => same.ge⟩
  have closer := measures.nearer_iff
  rw [← measures.distance_below le_rfl, ← measures.distance_above le_rfl] at closer
  unfold nearest? at found
  dsimp only at found
  split at found
  next => contradiction
  next lower upper =>
    cases found
    refine ⟨measures.contains_iff.mp lower, fun n rounds => ?_⟩
    rcases measures.next_rounds rounds with ⟨le, _⟩ | ⟨_, rounds⟩
    · exact ⟨below le, fun _ => le⟩
    · exact absurd (measures.contains_iff.mpr rounds) (by rw [upper]; simp)
  next lower upper =>
    cases found
    refine ⟨measures.contains_iff.mp upper, fun n rounds => ?_⟩
    rcases measures.next_rounds rounds with ⟨_, rounds⟩ | ⟨le, _⟩
    · exact absurd (measures.contains_iff.mpr rounds) (by rw [lower]; simp)
    · exact above le
  next lower upper =>
    split at found
    next up =>
      cases found
      refine ⟨measures.contains_iff.mp upper, fun n _ => ?_⟩
      rcases Nat.lt_or_ge (i.value / i.den) n with le | le
      · exact above le
      · exact ⟨(closer.mp up).trans (below le), fun _ => by omega⟩
    next down =>
      cases found
      refine ⟨measures.contains_iff.mp lower, fun n _ => ?_⟩
      rcases Nat.lt_or_ge (i.value / i.den) n with le | le
      · have less := (not_le.mp (mt closer.mpr down)).trans_le (above le).1
        exact ⟨less.le, fun same => absurd same less.ne⟩
      · exact ⟨below le, fun _ => le⟩

end Interval

end Courier.Binary64
