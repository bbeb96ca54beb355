import Courier.Binary64.Basic
import Mathlib.Algebra.Order.Field.Power
import Mathlib.Data.Rat.Cast.Order
import Mathlib.Tactic.FieldSimp
import Mathlib.Tactic.Linarith
import Mathlib.Tactic.NormNum
import Mathlib.Tactic.Positivity
import Mathlib.Tactic.Ring

/-! Rounding to floating-point numbers. The numbers that round to one of them reach half way to
its neighbours on either side; these reaches do not overlap, and rounding a quotient or a decimal
number finds the one that it lies in. -/
namespace Courier.Binary64

def magnitude (m : Nat) (e : Int) : ℚ := m * 2 ^ e

/-- Mantissas of 53 binary digits, the first of them set unless the exponent is the smallest. -/
structure Legal (m : Nat) (e : Int) : Prop where
  lt : m < 2 * leastMantissa
  le : minExponent ≤ e
  full : leastMantissa ≤ m ∨ e = minExponent

/-- Half way to the neighbour below, which is half as far away where the exponent changes. -/
def reachBelow (m : Nat) (e : Int) : ℚ :=
  if m = leastMantissa ∧ minExponent < e then 2 ^ e / 4 else 2 ^ e / 2

/-- A number rounds to a mantissa under an exponent: it is at most half way to a neighbour, and
half way only where the mantissa is even. -/
structure Rounds (q : ℚ) (m : Nat) (e : Int) : Prop where
  low : magnitude m e - reachBelow m e ≤ q
  high : q ≤ magnitude m e + 2 ^ e / 2
  low_even : q = magnitude m e - reachBelow m e → m % 2 = 0
  high_even : q = magnitude m e + 2 ^ e / 2 → m % 2 = 0

variable {q y z : ℚ} {m m' n num den : Nat} {e e' : Int} {negative : Bool}

/-- A power is a quotient of two, one of which is a zeroth power. -/
theorem zpow_eq_div {a : ℚ} (nonzero : a ≠ 0) (p : Int) : a ^ p = a ^ p.toNat / a ^ (-p).toNat := by
  rw [← zpow_natCast, ← zpow_natCast, ← zpow_sub₀ nonzero,
    show (p.toNat : ℤ) - (-p).toNat = p by omega]

theorem reachBelow_pos (m : Nat) (e : Int) : 0 < reachBelow m e := by
  have unit : (0 : ℚ) < 2 ^ e := zpow_pos two_pos _
  unfold reachBelow
  split <;> positivity

theorem reachBelow_le (m : Nat) (e : Int) : reachBelow m e ≤ 2 ^ e / 2 := by
  have unit : (0 : ℚ) < 2 ^ e := zpow_pos two_pos _
  unfold reachBelow
  split <;> linarith

/-- What is nearer to a number than half way to the neighbour below rounds to it. -/
theorem rounds_of_near (near : |q - magnitude m e| < reachBelow m e) : Rounds q m e := by
  have half := reachBelow_le m e
  obtain ⟨low, high⟩ := abs_lt.mp near
  exact ⟨by linarith, by linarith, fun same => absurd same (by linarith),
    fun same => absurd same (by linarith)⟩

/-- A number rounds to itself. -/
theorem rounds_magnitude (m : Nat) (e : Int) : Rounds (magnitude m e) m e := by
  refine rounds_of_near ?_
  rw [sub_self, abs_zero]
  exact reachBelow_pos m e

theorem rounds_iff_of_even (even : m % 2 = 0) :
    Rounds q m e ↔ magnitude m e - reachBelow m e ≤ q ∧ q ≤ magnitude m e + 2 ^ e / 2 :=
  ⟨fun rounds => ⟨rounds.low, rounds.high⟩,
    fun ⟨low, high⟩ => ⟨low, high, fun _ => even, fun _ => even⟩⟩

theorem rounds_iff_of_odd (odd : m % 2 ≠ 0) :
    Rounds q m e ↔ magnitude m e - reachBelow m e < q ∧ q < magnitude m e + 2 ^ e / 2 := by
  constructor
  · intro rounds
    exact ⟨rounds.low.lt_of_ne fun same => odd (rounds.low_even same.symm),
      rounds.high.lt_of_ne fun same => odd (rounds.high_even same)⟩
  · rintro ⟨low, high⟩
    exact ⟨low.le, high.le, fun same => absurd same low.ne', fun same => absurd same high.ne⟩

/-- What lies between numbers that round alike rounds like them. -/
theorem Rounds.between (here : Rounds y m e) (there : Rounds z m e) (above : y ≤ q)
    (below : q ≤ z) : Rounds q m e where
  low := here.low.trans above
  high := below.trans there.high
  low_even same := here.low_even (le_antisymm (above.trans same.le) here.low)
  high_even same := there.high_even (le_antisymm there.high (same.ge.trans below))

theorem Rounds.pos (rounds : Rounds q m e) (nonzero : m ≠ 0) : 0 < q := by
  have unit : (0 : ℚ) < 2 ^ e := zpow_pos two_pos _
  have below := reachBelow_le m e
  have one : (1 : ℚ) ≤ m := by exact_mod_cast Nat.one_le_iff_ne_zero.mpr nonzero
  have low := rounds.low
  unfold magnitude at low
  linarith [mul_le_mul_of_nonneg_right one unit.le]

/-- Numbers under a smaller exponent stay below those under a larger one. -/
theorem Rounds.exponent_le (legal : Legal m e) (legal' : Legal m' e') (here : Rounds q m e)
    (there : Rounds q m' e') : e' ≤ e := by
  by_contra less
  have step : (2 : ℚ) ^ (e + 1) ≤ 2 ^ e' := zpow_le_zpow_right₀ one_le_two (by omega)
  rw [zpow_add_one₀ two_ne_zero] at step
  have unit : (0 : ℚ) < 2 ^ e := zpow_pos two_pos _
  have least_pos : (1 : ℚ) ≤ leastMantissa := Nat.one_le_cast.mpr (by decide)
  have full : leastMantissa ≤ m' := legal'.full.resolve_right (by have := legal.le; omega)
  have top : (m : ℚ) + 1 ≤ 2 * leastMantissa := by exact_mod_cast legal.lt
  have narrow := mul_le_mul_of_nonneg_right top unit.le
  have high := here.high
  have low := there.low
  unfold magnitude at high low
  rcases full.eq_or_lt with least | more
  · have quarter : reachBelow m' e' = 2 ^ e' / 4 :=
      if_pos ⟨least.symm, by have := legal.le; omega⟩
    rw [quarter, ← least] at low
    -- The two reaches touch where the exponent changes, below the greatest mantissa, an odd one.
    have wide := mul_le_mul_of_nonneg_left step (show 0 ≤ (leastMantissa : ℚ) - 1 / 4 by linarith)
    have touch : q = m * 2 ^ e + 2 ^ e / 2 := le_antisymm high (by linarith)
    have greatest : (m : ℚ) + 1 = 2 * leastMantissa :=
      mul_right_cancel₀ unit.ne' (le_antisymm narrow (by linarith))
    have even := here.high_even touch
    have greatest' : m + 1 = 2 * leastMantissa := by exact_mod_cast greatest
    omega
  · have more' : (leastMantissa : ℚ) + 1 ≤ m' := by exact_mod_cast more
    have half := reachBelow_le m' e'
    have wide := mul_le_mul (show (leastMantissa : ℚ) + 1 / 2 ≤ m' - 1 / 2 by linarith) step
      (by positivity) (by linarith)
    linarith

/-- A number rounds in one way only. -/
theorem Rounds.unique (legal : Legal m e) (legal' : Legal m' e') (here : Rounds q m e)
    (there : Rounds q m' e') : m = m' ∧ e = e' := by
  obtain rfl : e = e' :=
    le_antisymm (there.exponent_le legal' legal here) (here.exponent_le legal legal' there)
  refine ⟨?_, rfl⟩
  wlog less : m < m' generalizing m m'
  · rcases Nat.lt_or_ge m' m with more | ge
    · exact (this legal' there legal here more).symm
    · omega
  have unit : (0 : ℚ) < 2 ^ e := zpow_pos two_pos _
  have next : (m : ℚ) + 1 ≤ m' := by exact_mod_cast less
  have high := here.high
  have low := there.low
  have half := reachBelow_le m' e
  unfold magnitude at high low
  -- Between neighbours the reaches touch half way, and one of the two is odd.
  have touch : (m : ℚ) + 1 = m' :=
    le_antisymm next (le_of_mul_le_mul_right (by linarith) unit)
  rw [← touch] at low
  have even := here.high_even (by unfold magnitude; linarith)
  have even' := there.low_even (by unfold magnitude; rw [← touch]; linarith)
  have touch' : m + 1 = m' := by exact_mod_cast touch
  omega

/-- A whole number nearest to a quotient, the even one of two. -/
structure Nearest (q : ℚ) (m : Nat) : Prop where
  low : (m : ℚ) - 1 / 2 ≤ q
  high : q ≤ m + 1 / 2
  low_even : q = m - 1 / 2 → m % 2 = 0
  high_even : q = m + 1 / 2 → m % 2 = 0

theorem nearest_roundQuotient (num : Nat) (pos : 0 < den) :
    Nearest ((num : ℚ) / den) (roundQuotient num den) := by
  have pos' : (0 : ℚ) < den := by exact_mod_cast pos
  have whole : (num : ℚ) = (num / den : ℕ) * den + (num % den : ℕ) := by
    exact_mod_cast (Nat.div_add_mod' num den).symm
  have rest : ((num % den : ℕ) : ℚ) < den := by exact_mod_cast Nat.mod_lt num pos
  have parts : (num : ℚ) / den = (num / den : ℕ) + ((num % den : ℕ) : ℚ) / den := by
    rw [div_eq_iff pos'.ne', add_mul, div_mul_cancel₀ _ pos'.ne', ← whole]
  have le_one : ((num % den : ℕ) : ℚ) / den < 1 := (div_lt_one pos').mpr rest
  have nonneg : 0 ≤ ((num % den : ℕ) : ℚ) / den := by positivity
  unfold roundQuotient
  dsimp only
  rw [parts]
  split
  next up =>
    have half : 1 / 2 ≤ ((num % den : ℕ) : ℚ) / den := by
      rw [le_div_iff₀ pos']
      have : (den : ℚ) ≤ 2 * (num % den : ℕ) := by
        exact_mod_cast (show den ≤ 2 * (num % den) by omega)
      linarith
    refine ⟨by push_cast; linarith, by push_cast; linarith, fun same => ?_, fun same => ?_⟩
    · have tie : ((num % den : ℕ) : ℚ) / den = 1 / 2 := by push_cast at same; linarith
      rw [div_eq_iff pos'.ne'] at tie
      have tie' : 2 * (num % den) = den := by
        exact_mod_cast (show (2 : ℚ) * (num % den : ℕ) = den by linarith)
      omega
    · push_cast at same
      linarith
  next down =>
    have half : ((num % den : ℕ) : ℚ) / den ≤ 1 / 2 := by
      rw [div_le_iff₀ pos']
      have : (2 : ℚ) * (num % den : ℕ) ≤ den := by
        exact_mod_cast (show 2 * (num % den) ≤ den by omega)
      linarith
    refine ⟨by linarith, by linarith, fun same => by linarith, fun same => ?_⟩
    have tie : ((num % den : ℕ) : ℚ) / den = 1 / 2 := by linarith
    rw [div_eq_iff pos'.ne'] at tie
    have tie' : 2 * (num % den) = den := by
      exact_mod_cast (show (2 : ℚ) * (num % den : ℕ) = den by linarith)
    omega

theorem scale_pos (num : Nat) (pos : 0 < den) (e : Int) : 0 < (scale num den e).2 := by
  unfold scale
  split
  · rw [Nat.shiftLeft_eq]
    positivity
  · exact pos

/-- Scaling divides a quotient by a power of two. -/
theorem scale_eq (num den : Nat) (e : Int) :
    ((scale num den e).1 : ℚ) / (scale num den e).2 = num / den / 2 ^ e := by
  unfold scale
  split
  next nonneg =>
    obtain ⟨k, rfl⟩ := Int.eq_ofNat_of_zero_le nonneg
    rw [Nat.shiftLeft_eq, Int.toNat_natCast, zpow_natCast, div_div]
    push_cast
    rfl
  next negative =>
    obtain ⟨k, rfl⟩ : ∃ k : Nat, e = -(k : Int) := ⟨(-e).toNat, by omega⟩
    rw [Nat.shiftLeft_eq, neg_neg, Int.toNat_natCast, zpow_neg, zpow_natCast, div_inv_eq_mul]
    push_cast
    ring

/-- A quotient lies close to the power of two that the sizes of its parts tell. -/
theorem quotient_bounds (num_pos : 0 < num) (den_pos : 0 < den) :
    (2 : ℚ) ^ ((num.log2 : Int) - den.log2 - 1) ≤ num / den ∧
      (num : ℚ) / den < 2 ^ ((num.log2 : Int) - den.log2 + 1) := by
  have num_le : (2 : ℚ) ^ num.log2 ≤ num := by
    exact_mod_cast Nat.log2_self_le num_pos.ne'
  have num_lt : (num : ℚ) < 2 ^ (num.log2 + 1) := by
    exact_mod_cast Nat.lt_log2_self
  have den_le : (2 : ℚ) ^ den.log2 ≤ den := by
    exact_mod_cast Nat.log2_self_le den_pos.ne'
  have den_lt : (den : ℚ) < 2 ^ (den.log2 + 1) := by
    exact_mod_cast Nat.lt_log2_self
  have den_pos' : (0 : ℚ) < den := by exact_mod_cast den_pos
  constructor
  · rw [le_div_iff₀ den_pos', sub_sub, zpow_sub₀ two_ne_zero]
    calc (2 : ℚ) ^ (num.log2 : Int) / 2 ^ ((den.log2 : Int) + 1) * den
        ≤ 2 ^ (num.log2 : Int) / 2 ^ ((den.log2 : Int) + 1) * 2 ^ (den.log2 + 1) := by gcongr
      _ = 2 ^ num.log2 := by
        rw [← Nat.cast_succ, zpow_natCast, zpow_natCast]
        exact div_mul_cancel₀ _ (by positivity)
      _ ≤ num := num_le
  · rw [div_lt_iff₀ den_pos', sub_add_eq_add_sub, zpow_sub₀ two_ne_zero]
    calc (num : ℚ) < 2 ^ (num.log2 + 1) := num_lt
      _ = 2 ^ ((num.log2 : Int) + 1) / 2 ^ (den.log2 : Int) * 2 ^ den.log2 := by
        rw [← Nat.cast_succ, zpow_natCast, zpow_natCast]
        exact (div_mul_cancel₀ _ (by positivity)).symm
      _ ≤ 2 ^ ((num.log2 : Int) + 1) / 2 ^ (den.log2 : Int) * den := by gcongr

theorem leastMantissa_mul (e : Int) : (leastMantissa : ℚ) * 2 ^ e = 2 ^ (e + 52) := by
  rw [zpow_add₀ two_ne_zero, mul_comm]
  norm_num [leastMantissa]

/-- The exponent leaves 53 binary digits, or fewer under the smallest one. -/
theorem exponentFor_bounds (num_pos : 0 < num) (den_pos : 0 < den) :
    minExponent ≤ exponentFor num den ∧
      (num : ℚ) / den < 2 * leastMantissa * 2 ^ exponentFor num den ∧
      ((leastMantissa : ℚ) * 2 ^ exponentFor num den ≤ num / den ∨
        exponentFor num den = minExponent) := by
  obtain ⟨ge, lt⟩ := quotient_bounds num_pos den_pos
  obtain ⟨guess, guessed⟩ : ∃ guess : Int, guess = (num.log2 : Int) - den.log2 - 52 := ⟨_, rfl⟩
  have double (e : Int) : 2 * (leastMantissa : ℚ) * 2 ^ e = 2 ^ (e + 53) := by
    rw [mul_assoc, leastMantissa_mul, mul_comm, ← zpow_add_one₀ two_ne_zero, add_assoc]
    norm_num
  have small : (scale num den guess).1 / (scale num den guess).2 < leastMantissa ↔
      (num : ℚ) / den < 2 ^ (guess + 52) := by
    rw [Nat.div_lt_iff_lt_mul (scale_pos num den_pos guess), ← leastMantissa_mul,
      ← div_lt_iff₀ (zpow_pos two_pos _), ← scale_eq,
      div_lt_iff₀ (by exact_mod_cast scale_pos num den_pos guess)]
    exact_mod_cast Iff.rfl
  obtain ⟨chosen, fits⟩ : ∃ chosen : Int, exponentFor num den = max chosen minExponent ∧
      2 ^ (chosen + 52) ≤ (num : ℚ) / den ∧ (num : ℚ) / den < 2 ^ (chosen + 53) := by
    refine ⟨if (scale num den guess).1 / (scale num den guess).2 < leastMantissa then guess - 1
      else guess, by rw [guessed]; rfl, ?_⟩
    split
    next below =>
      rw [small] at below
      refine ⟨le_trans (zpow_le_zpow_right₀ one_le_two (by omega)) ge, ?_⟩
      rwa [show guess - 1 + 53 = guess + 52 by omega]
    next above =>
      rw [small, not_lt] at above
      exact ⟨above, lt.trans_le (zpow_le_zpow_right₀ one_le_two (by omega))⟩
  obtain ⟨taken, ge, lt⟩ := fits
  rw [double, leastMantissa_mul, taken]
  refine ⟨le_max_right _ _, lt.trans_le (zpow_le_zpow_right₀ one_le_two (by omega)), ?_⟩
  rcases le_total minExponent chosen with normal | tiny
  · exact .inl (by rwa [max_eq_left normal])
  · exact .inr (max_eq_right tiny)

/-- The nearest mantissa is what a number rounds to, as long as it has no digit too many. -/
theorem Nearest.rounds (near : Nearest q m) (min_le : minExponent ≤ e)
    (full : (leastMantissa : ℚ) ≤ q ∨ e = minExponent) (lt : m < 2 * leastMantissa) :
    Legal m e ∧ Rounds (q * 2 ^ e) m e := by
  have unit : (0 : ℚ) < 2 ^ e := zpow_pos two_pos _
  have legal : Legal m e := by
    refine ⟨lt, min_le, full.imp_left fun full => ?_⟩
    have above : (leastMantissa : ℚ) < m + 1 := by linarith [near.high]
    exact Nat.lt_succ_iff.mp (by exact_mod_cast above)
  have upper : magnitude m e + 2 ^ e / 2 = (m + 1 / 2) * 2 ^ e := by
    unfold magnitude
    ring
  have high : q * 2 ^ e ≤ magnitude m e + 2 ^ e / 2 := by
    rw [upper]
    exact mul_le_mul_of_nonneg_right near.high unit.le
  have high_even (same : q * 2 ^ e = magnitude m e + 2 ^ e / 2) : m % 2 = 0 :=
    near.high_even (mul_right_cancel₀ unit.ne' (same.trans upper))
  obtain ⟨low, low_even⟩ : magnitude m e - reachBelow m e ≤ q * 2 ^ e ∧
      (q * 2 ^ e = magnitude m e - reachBelow m e → m % 2 = 0) := by
    by_cases edge : m = leastMantissa ∧ minExponent < e
    · have full : magnitude m e ≤ q * 2 ^ e :=
        mul_le_mul_of_nonneg_right (edge.1 ▸ full.resolve_right edge.2.ne') unit.le
      have reach := reachBelow_pos m e
      exact ⟨by linarith, fun same => absurd same (by linarith)⟩
    · have lower : magnitude m e - 2 ^ e / 2 = (m - 1 / 2) * 2 ^ e := by
        unfold magnitude
        ring
      rw [reachBelow, if_neg edge, lower]
      exact ⟨mul_le_mul_of_nonneg_right near.low unit.le,
        fun same => near.low_even (mul_right_cancel₀ unit.ne' same)⟩
  exact ⟨legal, low, high, low_even, high_even⟩

/-- A mantissa with one digit too many is the least one under the next exponent. -/
theorem Nearest.rounds_carried (near : Nearest q (2 * leastMantissa)) (min_le : minExponent ≤ e)
    (lt : q < 2 * leastMantissa) :
    Legal leastMantissa (e + 1) ∧ Rounds (q * 2 ^ e) leastMantissa (e + 1) := by
  have unit : (0 : ℚ) < 2 ^ e := zpow_pos two_pos _
  have low := near.low
  have quarter : reachBelow leastMantissa (e + 1) = 2 ^ (e + 1) / 4 :=
    if_pos ⟨rfl, by omega⟩
  push_cast at low
  refine ⟨⟨by decide, by omega, .inl le_rfl⟩, ?_, ?_, fun _ => by decide, fun _ => by decide⟩
  · rw [quarter, magnitude, zpow_add_one₀ two_ne_zero]
    linarith [mul_le_mul_of_nonneg_right low unit.le]
  · rw [magnitude, zpow_add_one₀ two_ne_zero]
    linarith [mul_le_mul_of_nonneg_right lt.le unit.le]

/-- A quotient rounds to some number, which it is read as unless that is too large. -/
theorem exists_rounds_quotient (num : Nat) (den_pos : 0 < den) (negative : Bool) :
    ∃ m e, Legal m e ∧ Rounds (num / den) m e ∧
      ofQuotient negative num den =
        if maxExponent < e then .infinite negative else .finite negative m e := by
  rcases num.eq_zero_or_pos with rfl | num_pos
  · refine ⟨0, minExponent, ⟨by decide, le_rfl, .inr rfl⟩, ?_, rfl⟩
    rw [Nat.cast_zero, zero_div]
    simpa [magnitude] using rounds_magnitude 0 minExponent
  obtain ⟨min_le, lt, full⟩ := exponentFor_bounds num_pos den_pos
  unfold ofQuotient
  rw [if_neg num_pos.ne']
  dsimp only
  have near := nearest_roundQuotient (scale num den (exponentFor num den)).1
    (scale_pos num den_pos (exponentFor num den))
  rw [scale_eq] at near
  generalize exponentFor num den = e at *
  generalize roundQuotient (scale num den e).1 (scale num den e).2 = m at *
  have unit : (0 : ℚ) < 2 ^ e := zpow_pos two_pos _
  obtain ⟨q, quotient⟩ : ∃ q : ℚ, (num : ℚ) / den = q * 2 ^ e :=
    ⟨num / den / 2 ^ e, (div_mul_cancel₀ _ unit.ne').symm⟩
  rw [quotient, mul_div_cancel_right₀ _ unit.ne'] at near
  rw [quotient, mul_lt_mul_iff_left₀ unit] at lt
  rw [quotient, mul_le_mul_iff_left₀ unit] at full
  rw [quotient]
  by_cases carried : m = 2 * leastMantissa
  · rw [carried] at near
    rw [if_pos carried]
    obtain ⟨legal, rounds⟩ := near.rounds_carried min_le lt
    exact ⟨leastMantissa, e + 1, legal, rounds, rfl⟩
  · rw [if_neg carried]
    have low := near.low
    have bound : (m : ℚ) < 2 * leastMantissa + 1 := by linarith
    have bound' : m < 2 * leastMantissa + 1 := by exact_mod_cast bound
    obtain ⟨legal, rounds⟩ := near.rounds min_le full (by omega)
    exact ⟨m, e, legal, rounds, rfl⟩

/-- The length of a number's decimal text tells its size. -/
theorem length_toString_bounds (nonzero : n ≠ 0) :
    (10 : ℚ) ^ ((toString n).length - 1) ≤ n ∧ (n : ℚ) < 10 ^ (toString n).length := by
  rw [Nat.toString_eq_repr]
  have pos : 0 < n.repr.length := Nat.length_repr_pos
  constructor
  · norm_cast
    rcases Nat.eq_zero_or_pos (n.repr.length - 1) with one | more
    · rw [one]
      exact Nat.pos_of_ne_zero nonzero
    · exact Nat.not_lt.mp (mt (Nat.length_repr_le_iff more).mpr (by omega))
  · exact_mod_cast (Nat.length_repr_le_iff pos).mp le_rfl

/-- A decimal number below the `size`-th power of ten, and at least the one before. -/
theorem decimal_bounds (nonzero : n ≠ 0) (p : Int) :
    (10 : ℚ) ^ ((toString n).length + p - 1) ≤ n * 10 ^ p ∧
      (n : ℚ) * 10 ^ p < 10 ^ ((toString n).length + p) := by
  obtain ⟨ge, lt⟩ := length_toString_bounds nonzero
  have pos : 0 < (toString n).length := by
    rw [Nat.toString_eq_repr]
    exact Nat.length_repr_pos
  have unit : (0 : ℚ) < 10 ^ p := zpow_pos (by norm_num) _
  constructor
  · rw [show ((toString n).length : Int) + p - 1 = ((toString n).length - 1 : ℕ) + p by omega,
      zpow_add₀ (by norm_num), zpow_natCast]
    gcongr
  · rw [zpow_add₀ (by norm_num), zpow_natCast]
    gcongr

theorem ten_zpow_lt_least : (10 : ℚ) ^ (-330 : Int) < 2 ^ minExponent / 2 := by
  have powers : ((2 ^ 1075 : ℕ) : ℚ) < (10 ^ 330 : ℕ) := Nat.cast_lt.mpr (by decide +kernel)
  rw [Nat.cast_pow, Nat.cast_pow, Nat.cast_ofNat, Nat.cast_ofNat] at powers
  rw [show minExponent = -(1074 : ℕ) from rfl, show (-330 : Int) = -(330 : ℕ) from rfl, zpow_neg,
    zpow_neg, zpow_natCast, zpow_natCast, div_eq_mul_inv, ← mul_inv, ← pow_succ]
  exact inv_strictAnti₀ (by positivity) powers

theorem greatest_lt_ten_zpow : 2 * (leastMantissa : ℚ) * 2 ^ maxExponent < 10 ^ (310 : Int) := by
  have powers : 2 * leastMantissa * 2 ^ 971 < 10 ^ 310 := by decide +kernel
  rw [show maxExponent = (971 : ℕ) from rfl, show (310 : Int) = (310 : ℕ) from rfl, zpow_natCast,
    zpow_natCast]
  exact_mod_cast powers

/-- What rounds to a number that is not too large is not much larger itself. -/
theorem Rounds.lt_of_le (legal : Legal m e) (rounds : Rounds q m e) (le : e ≤ maxExponent) :
    q < 10 ^ (310 : Int) := by
  have unit : (0 : ℚ) < 2 ^ e := zpow_pos two_pos _
  have top : (m : ℚ) + 1 ≤ 2 * leastMantissa := by exact_mod_cast legal.lt
  have high := rounds.high
  unfold magnitude at high
  calc q ≤ 2 * leastMantissa * 2 ^ e := by linarith [mul_le_mul_of_nonneg_right top unit.le]
    _ ≤ 2 * leastMantissa * 2 ^ maxExponent :=
      mul_le_mul_of_nonneg_left (zpow_le_zpow_right₀ one_le_two le) (by positivity)
    _ < 10 ^ (310 : Int) := greatest_lt_ten_zpow

/-- What is nearer to zero than half way to the least number rounds to zero. -/
theorem rounds_zero (nonneg : 0 ≤ q) (lt : q < 2 ^ minExponent / 2) :
    Legal 0 minExponent ∧ Rounds q 0 minExponent := by
  have reach := reachBelow_pos 0 minExponent
  refine ⟨⟨by decide, le_rfl, .inr rfl⟩, ?_, ?_, fun _ => rfl, fun _ => rfl⟩
  · rw [magnitude, Nat.cast_zero, zero_mul]
    linarith
  · rw [magnitude, Nat.cast_zero, zero_mul]
    linarith

/-- A decimal number is a quotient, and is read as that. -/
theorem exists_quotient (n : Nat) (p : Int) (negative : Bool) : ∃ num den : Nat, 0 < den ∧
    (num : ℚ) / den = n * 10 ^ p ∧
      (if 0 ≤ p then ofQuotient negative (n * Nat.pow 10 p.toNat) 1
        else ofQuotient negative n (Nat.pow 10 (-p).toNat)) = ofQuotient negative num den := by
  have power := zpow_eq_div (a := 10) (by norm_num) p
  split
  next nonneg =>
    refine ⟨_, _, Nat.one_pos, ?_, rfl⟩
    rw [Nat.pow_eq, power, Int.toNat_of_nonpos (neg_nonpos.mpr nonneg), pow_zero, div_one,
      Nat.cast_one, div_one]
    push_cast
    rfl
  next negative =>
    refine ⟨_, _, Nat.pow_pos (by decide), ?_, rfl⟩
    rw [power, Int.toNat_of_nonpos (not_le.mp negative).le, pow_zero, mul_one_div]
    push_cast
    rfl

/-- A decimal number rounds to some number, which it is read as unless that is too large. -/
theorem exists_rounds_decimal (n : Nat) (p : Int) (negative : Bool) :
    ∃ m e, Legal m e ∧ Rounds (n * 10 ^ p) m e ∧
      ofDecimal negative n p =
        if maxExponent < e then .infinite negative else .finite negative m e := by
  have unit : (0 : ℚ) < 10 ^ p := zpow_pos (by norm_num) _
  unfold ofDecimal
  dsimp only
  split
  next tiny =>
    have below : (n : ℚ) * 10 ^ p < 2 ^ minExponent / 2 := by
      rcases eq_or_ne n 0 with rfl | nonzero
      · have least : (0 : ℚ) < 2 ^ minExponent := zpow_pos two_pos _
        rw [Nat.cast_zero, zero_mul]
        positivity
      · have size := tiny.resolve_left nonzero
        calc (n : ℚ) * 10 ^ p < 10 ^ ((toString n).length + p) := (decimal_bounds nonzero p).2
          _ ≤ 10 ^ (-330 : Int) := zpow_le_zpow_right₀ (by norm_num) (by omega)
          _ < 2 ^ minExponent / 2 := ten_zpow_lt_least
    obtain ⟨legal, rounds⟩ := rounds_zero (by positivity) below
    exact ⟨0, minExponent, legal, rounds, rfl⟩
  next other =>
    rw [not_or, not_lt] at other
    obtain ⟨num, den, den_pos, value, code⟩ := exists_quotient n p negative
    obtain ⟨m, e, legal, rounds, read⟩ := exists_rounds_quotient num den_pos negative
    rw [value] at rounds
    rw [code]
    refine ⟨m, e, legal, rounds, ?_⟩
    split
    next huge =>
      rw [if_pos]
      by_contra le
      have small := rounds.lt_of_le legal (not_lt.mp le)
      have large := (decimal_bounds other.1 p).1
      have : (10 : ℚ) ^ (310 : Int) ≤ 10 ^ ((toString n).length + p - 1) :=
        zpow_le_zpow_right₀ (by norm_num) (by omega)
      linarith
    next => exact read

/-- A decimal number is read as the finite number that it rounds to. -/
theorem ofDecimal_eq_finite_iff {p : Int} {negative' : Bool} :
    ofDecimal negative n p = .finite negative' m e ↔
      negative' = negative ∧ Legal m e ∧ e ≤ maxExponent ∧ Rounds (n * 10 ^ p) m e := by
  obtain ⟨m', e', legal', rounds', read⟩ := exists_rounds_decimal n p negative
  rw [read]
  constructor
  · intro same
    split at same
    · cases same
    · cases same
      exact ⟨rfl, legal', not_lt.mp ‹_›, rounds'⟩
  · rintro ⟨rfl, legal, le, rounds⟩
    obtain ⟨rfl, rfl⟩ := rounds.unique legal legal' rounds'
    rw [if_neg (not_lt.mpr le)]

end Courier.Binary64
