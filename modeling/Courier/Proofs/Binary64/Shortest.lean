import Courier.Proofs.Binary64.Grids
import Mathlib.Algebra.Order.Round
import Mathlib.Data.Rat.Floor

/-! The shortest decimal number that reads as a floating-point number. The search through the grids
finds it: some grid of 17 digits or fewer holds a point that rounds to the number, and a decimal
number of so many digits lies on the grid for as many, or a power of ten lies in between. -/
namespace Courier.Binary64

def ReadsAs (q : ℚ) (m : Nat) (e : Int) : Prop :=
  ∃ (n : Nat) (p : Int), q = n * 10 ^ p ∧ ofDecimal false n p = .finite false m e

def HasDigits (k : Nat) (q : ℚ) : Prop :=
  ∃ (n : Nat) (p : Int), n < 10 ^ k ∧ q = n * 10 ^ p

/-- The decimal number that stands for a mantissa under an exponent: none that is read alike has
fewer digits, none that has as few is nearer, and of two that are equally near it is the upper
one. -/
structure Shortest (q : ℚ) (m : Nat) (e : Int) : Prop where
  read : ReadsAs q m e
  fewest : ∀ y k, ReadsAs y m e → HasDigits k y → HasDigits k q
  nearest : ∀ y, ReadsAs y m e → (∀ k, HasDigits k q → HasDigits k y) →
    |q - magnitude m e| ≤ |y - magnitude m e|
  upper : ∀ y, ReadsAs y m e → (∀ k, HasDigits k q → HasDigits k y) →
    |q - magnitude m e| = |y - magnitude m e| → y ≤ q

variable {q y : ℚ} {m n num den k : Nat} {e p first : Int} {i : Interval}

/-- Only one decimal number is the shortest. -/
theorem Shortest.unique (here : Shortest q m e) (there : Shortest y m e) : q = y := by
  have less (k : Nat) : HasDigits k q → HasDigits k y := there.fewest q k here.read
  have more (k : Nat) : HasDigits k y → HasDigits k q := here.fewest y k there.read
  have near := le_antisymm (here.nearest y there.read less) (there.nearest q here.read more)
  exact le_antisymm (there.upper q here.read more near.symm) (here.upper y there.read less near)

theorem ReadsAs.rounds (read : ReadsAs q m e) : Legal m e ∧ e ≤ maxExponent ∧ Rounds q m e := by
  obtain ⟨n, p, rfl, read⟩ := read
  exact (ofDecimal_eq_finite_iff.mp read).2

theorem readsAs_decimal (legal : Legal m e) (le : e ≤ maxExponent)
    (rounds : Rounds (n * 10 ^ p) m e) : ReadsAs (n * 10 ^ p) m e :=
  ⟨n, p, rfl, ofDecimal_eq_finite_iff.mpr ⟨rfl, legal, le, rounds⟩⟩

theorem HasDigits.mono {k' : Nat} (digits : HasDigits k q) (le : k ≤ k') : HasDigits k' q := by
  obtain ⟨n, p, lt, value⟩ := digits
  exact ⟨n, p, lt.trans_le (Nat.pow_le_pow_right (by decide) le), value⟩

theorem HasDigits.pos (digits : HasDigits k q) (positive : 0 < q) : 0 < k := by
  obtain ⟨n, p, lt, value⟩ := digits
  refine Nat.pos_of_ne_zero fun none => positive.ne' ?_
  rw [none, pow_zero, Nat.lt_one_iff] at lt
  rw [value, lt, Nat.cast_zero, zero_mul]

/-- The zeros behind the point of a number below one are counted as long as there are few enough. -/
theorem zerosAfterPoint_bounds {limit : Nat} (below : num < den)
    (enough : den ≤ num * 10 ^ limit) :
    num * 10 ^ zerosAfterPoint limit num den < den ∧
      den ≤ num * 10 ^ (zerosAfterPoint limit num den + 1) := by
  induction limit generalizing num with
  | zero => omega
  | succ limit ih =>
    unfold zerosAfterPoint
    split
    next le => exact ⟨by rwa [pow_zero, mul_one], by rwa [zero_add, pow_one]⟩
    next lt =>
      rw [pow_succ', ← mul_assoc] at enough
      obtain ⟨above, under⟩ := ih (not_le.mp lt) enough
      rw [mul_assoc, ← pow_succ'] at above under
      exact ⟨above, under⟩

/-- The first digit of a quotient stands just below the power of ten of its first place. -/
theorem firstPlace_bounds (den_pos : 0 < den) (enough : den ≤ num * 10 ^ 400) :
    (10 : ℚ) ^ (firstPlace num den - 1) ≤ num / den ∧
      (num : ℚ) / den < 10 ^ firstPlace num den := by
  have den_pos' : (0 : ℚ) < den := by exact_mod_cast den_pos
  unfold firstPlace
  split
  next whole =>
    have nonzero : num / den ≠ 0 := (Nat.div_pos whole den_pos).ne'
    obtain ⟨ge, lt⟩ := length_toString_bounds nonzero
    have pos : 0 < (toString (num / den)).length := by
      rw [Nat.toString_eq_repr]
      exact Nat.length_repr_pos
    constructor
    · have last : ((toString (num / den)).length : Int) - 1 =
          ((toString (num / den)).length - 1 : ℕ) := by omega
      rw [last, zpow_natCast, le_div_iff₀ den_pos']
      have floor : ((num / den : ℕ) : ℚ) * den ≤ num := by exact_mod_cast Nat.div_mul_le_self _ _
      exact (mul_le_mul_of_nonneg_right ge den_pos'.le).trans floor
    · rw [zpow_natCast, div_lt_iff₀ den_pos']
      have ceiling : (num : ℚ) < ((num / den : ℕ) + 1) * den := by
        rw [mul_comm]
        exact_mod_cast Nat.lt_mul_div_succ _ den_pos
      have next : ((num / den : ℕ) : ℚ) + 1 ≤ 10 ^ (toString (num / den)).length := by
        exact_mod_cast lt
      exact ceiling.trans_le (mul_le_mul_of_nonneg_right next den_pos'.le)
  next small =>
    obtain ⟨above, under⟩ := zerosAfterPoint_bounds (not_le.mp small) enough
    generalize zerosAfterPoint 400 num den = zeros at above under
    have above' : (num : ℚ) * 10 ^ zeros < den := by exact_mod_cast above
    have under' : (den : ℚ) ≤ num * 10 ^ (zeros + 1) := by exact_mod_cast under
    constructor
    · rw [show -(zeros : Int) - 1 = -((zeros + 1 : ℕ) : Int) by push_cast; ring, zpow_neg,
        zpow_natCast, le_div_iff₀ den_pos', inv_mul_le_iff₀ (by positivity), mul_comm]
      exact under'
    · rw [zpow_neg, zpow_natCast, div_lt_iff₀ den_pos', ← div_eq_inv_mul,
        lt_div_iff₀ (by positivity)]
      exact above'

/-- The search stops at the first grid that holds a point. -/
theorem shortestFrom_eq {grids : Nat}
    (hits : ∃ j < grids, ((i.onGrid (first - (n + j : ℕ))).nearest?).isSome) :
    ∃ k digits, n ≤ k ∧ (∀ j, n ≤ j → j < k → (i.onGrid (first - j)).nearest? = none) ∧
      (i.onGrid (first - k)).nearest? = some digits ∧
      shortestFrom i first grids n = (digits, first - k) := by
  induction grids generalizing n with
  | zero =>
    obtain ⟨j, lt, _⟩ := hits
    omega
  | succ grids ih =>
    unfold shortestFrom
    dsimp only
    cases found : (i.onGrid (first - n)).nearest? with
    | some digits => exact ⟨n, digits, le_rfl, fun j ge lt => absurd lt (not_lt.mpr ge), found, rfl⟩
    | none =>
      obtain ⟨j, lt, hit⟩ := hits
      cases j with
      | zero =>
        rw [Nat.add_zero, found] at hit
        contradiction
      | succ j =>
        obtain ⟨k, digits, ge, earlier, found', same⟩ :=
          ih (n := n + 1) ⟨j, by omega, by rwa [show n + 1 + j = n + (j + 1) by omega]⟩
        refine ⟨k, digits, by omega, fun j' ge' lt' => ?_, found', same⟩
        rcases ge'.eq_or_lt with rfl | gt
        · exact found
        · exact earlier j' gt lt'

theorem firstPlace_interval (nonzero : m ≠ 0) (min_le : minExponent ≤ e) :
    (10 : ℚ) ^ (firstPlace (interval m e).value (interval m e).den - 1) ≤ magnitude m e ∧
      magnitude m e < 10 ^ firstPlace (interval m e).value (interval m e).den := by
  have measures := measures_interval (e := e) nonzero
  have enough : (interval m e).den ≤ (interval m e).value * 10 ^ 400 := by
    have den_le : (interval m e).den ≤ 2 ^ 1076 := by
      show 1 <<< (2 - e).toNat ≤ 2 ^ 1076
      rw [Nat.shiftLeft_eq, Nat.one_mul]
      refine pow_le_pow_right₀ (by decide) ?_
      rw [minExponent] at min_le
      omega
    have value_pos : 1 ≤ (interval m e).value := by
      show 1 ≤ (4 * m) <<< (e - 2).toNat
      rw [Nat.shiftLeft_eq]
      exact Nat.mul_pos (by omega) (Nat.two_pow_pos _)
    have powers : 2 ^ 1076 ≤ 10 ^ 400 := by decide +kernel
    exact (den_le.trans powers).trans (Nat.le_mul_of_pos_left _ value_pos)
  have bounds := firstPlace_bounds measures.den_pos enough
  rwa [← measures.value, zpow_zero, mul_one]

/-- Seventeen digits are always enough. -/
theorem exists_rounds_seventeen (legal : Legal m e)
    (ge : (10 : ℚ) ^ (first - 1) ≤ magnitude m e) :
    ∃ n : Nat, Rounds (n * 10 ^ (first - 17)) m e := by
  have unit : (0 : ℚ) < 10 ^ (first - 17) := zpow_pos (by norm_num) _
  have power : (0 : ℚ) < 2 ^ e := zpow_pos two_pos _
  have grid : (10 : ℚ) ^ (first - 17) * 10 ^ 16 ≤ m * 2 ^ e := by
    refine le_trans (le_of_eq ?_) ge
    rw [← zpow_natCast, ← zpow_add₀ (by norm_num)]
    congr 1
    push_cast
    ring
  generalize (10 : ℚ) ^ (first - 17) = u at unit grid ⊢
  have rounded := abs_sub_round (magnitude m e / u)
  have nonneg : 0 ≤ round (magnitude m e / u) := by
    have : 0 ≤ magnitude m e / u := by
      unfold magnitude
      positivity
    rw [round_eq]
    exact Int.floor_nonneg.mpr (by linarith)
  obtain ⟨n, same⟩ := Int.eq_ofNat_of_zero_le nonneg
  rw [same, Int.cast_natCast, abs_sub_comm] at rounded
  have near : |n * u - magnitude m e| ≤ u / 2 := by
    have parts : (n : ℚ) * u - magnitude m e = (n - magnitude m e / u) * u := by
      rw [sub_mul, div_mul_cancel₀ _ unit.ne']
    rw [parts, abs_mul, abs_of_pos unit]
    linarith [mul_le_mul_of_nonneg_right rounded unit.le]
  refine ⟨n, rounds_of_near (near.trans_lt ?_)⟩
  unfold reachBelow
  split
  next least =>
    have digits : (m : ℚ) = 4503599627370496 := by exact_mod_cast least.1
    rw [digits] at grid
    linarith
  next =>
    have digits : (m : ℚ) < 9007199254740992 := by exact_mod_cast legal.lt
    linarith [mul_lt_mul_of_pos_right digits power]

/-- A decimal number of `k` digits that rounds to a number lies on the grid for `k` digits, or the
grid holds a point between the two. -/
theorem exists_on_grid (nonzero : m ≠ 0) (ge : (10 : ℚ) ^ (first - 1) ≤ magnitude m e)
    (rounds : Rounds y m e) (digits : HasDigits k y) :
    ∃ n : Nat, Rounds (n * 10 ^ (first - k)) m e ∧
      (y = n * 10 ^ (first - k) ∨
        y < n * 10 ^ (first - k) ∧ n * 10 ^ (first - k) ≤ magnitude m e) := by
  have pos := digits.pos (rounds.pos nonzero)
  obtain ⟨n, p, lt, value⟩ := digits
  have ten_ne : (10 : ℚ) ≠ 0 := by norm_num
  rcases le_or_gt (first - k) p with fine | coarse
  · have whole : y = (n * 10 ^ (p - (first - k)).toNat : ℕ) * 10 ^ (first - k) := by
      push_cast
      rw [mul_assoc, ← zpow_natCast, ← zpow_add₀ ten_ne, Int.toNat_of_nonneg (by omega),
        sub_add_cancel, value]
    exact ⟨_, whole ▸ rounds, .inl whole⟩
  · have power : ((10 ^ (k - 1) : ℕ) : ℚ) * 10 ^ (first - k) = 10 ^ (first - 1) := by
      push_cast
      rw [← zpow_natCast, ← zpow_add₀ ten_ne]
      congr 1
      omega
    have below : y < 10 ^ (first - 1) := by
      have lt' : (n : ℚ) < 10 ^ (k : Int) := by
        rw [zpow_natCast]
        exact_mod_cast lt
      calc y = n * 10 ^ p := value
        _ < 10 ^ (k : Int) * 10 ^ p := mul_lt_mul_of_pos_right lt' (zpow_pos (by norm_num) p)
        _ = 10 ^ (k + p) := (zpow_add₀ ten_ne _ _).symm
        _ ≤ 10 ^ (first - 1) := zpow_le_zpow_right₀ (by norm_num) (by omega)
    refine ⟨10 ^ (k - 1), ?_, .inr ?_⟩
    · rw [power]
      exact rounds.between (rounds_magnitude m e) below.le ge
    · rw [power]
      exact ⟨below, ge⟩

/-- A grid for `k` digits is one of multiples of the next power of ten divided by `10 ^ k`. -/
theorem ten_pow_mul_zpow (k : Nat) (first : Int) :
    ((10 ^ k : ℕ) : ℚ) * 10 ^ (first - k) = 10 ^ first := by
  push_cast
  rw [← zpow_natCast, ← zpow_add₀ (by norm_num)]
  congr 1
  omega

/-- The nearest point of a grid for `k` digits has `k` digits, since no point above the next power
of ten is nearer than that. -/
theorem NearestOnGrid.hasDigits (best : NearestOnGrid n m e (first - k)) (pos : 1 ≤ k)
    (lt : magnitude m e < 10 ^ first) : HasDigits k (n * 10 ^ (first - k)) := by
  have power := ten_pow_mul_zpow k first
  have bounded : n ≤ 10 ^ k := by
    by_contra above
    have beyond : (10 : ℚ) ^ first < n * 10 ^ (first - k) := by
      rw [← power]
      exact mul_lt_mul_of_pos_right (by exact_mod_cast not_le.mp above) (zpow_pos (by norm_num) _)
    have rounds : Rounds ((10 ^ k : ℕ) * 10 ^ (first - k)) m e := by
      rw [power]
      exact (rounds_magnitude m e).between best.rounds lt.le beyond.le
    have nearer := (best.closest (10 ^ k) rounds).1
    rw [power, abs_of_pos (sub_pos.mpr lt), abs_of_pos (sub_pos.mpr (lt.trans beyond))] at nearer
    linarith
  rcases bounded.eq_or_lt with rfl | less
  · exact ⟨1, first, Nat.one_lt_pow (by omega) (by decide), by rw [power, Nat.cast_one, one_mul]⟩
  · exact ⟨n, first - k, less, rfl⟩

/-- The nearest point of a grid for `k` digits is nearer than every other number of `k` digits. -/
theorem NearestOnGrid.closest_of_digits (best : NearestOnGrid n m e (first - k)) (nonzero : m ≠ 0)
    (ge : (10 : ℚ) ^ (first - 1) ≤ magnitude m e) (rounds : Rounds y m e) (digits : HasDigits k y) :
    |(n : ℚ) * 10 ^ (first - k) - magnitude m e| ≤ |y - magnitude m e| ∧
      (|(n : ℚ) * 10 ^ (first - k) - magnitude m e| = |y - magnitude m e| →
        y ≤ n * 10 ^ (first - k)) := by
  have unit : (0 : ℚ) < 10 ^ (first - k) := zpow_pos (by norm_num) _
  obtain ⟨n', rounds', rfl | ⟨below, le⟩⟩ := exists_on_grid nonzero ge rounds digits
  · obtain ⟨near, upper⟩ := best.closest n' rounds'
    refine ⟨near, fun same => ?_⟩
    have le := upper same
    gcongr
  · have near := (best.closest n' rounds').1
    rw [abs_sub_comm (n' * _ : ℚ), abs_of_nonneg (sub_nonneg.mpr le)] at near
    rw [abs_sub_comm y, abs_of_pos (sub_pos.mpr (below.trans_le le))]
    exact ⟨by linarith, fun same => absurd same (by linarith)⟩

/-- The search finds the shortest decimal number. -/
theorem shortest_spec (legal : Legal m e) (le : e ≤ maxExponent) (nonzero : m ≠ 0) :
    Shortest ((shortest m e).1 * 10 ^ (shortest m e).2) m e := by
  obtain ⟨ge, lt⟩ := firstPlace_interval nonzero legal.le
  unfold shortest
  dsimp only
  generalize firstPlace (interval m e).value (interval m e).den = first at ge lt ⊢
  have measures (j : Nat) := (measures_interval (e := e) nonzero).onGrid (first - j)
  have hit (j n : Nat) (rounds : Rounds (n * 10 ^ (first - j)) m e) :
      ((interval m e).onGrid (first - j)).nearest?.isSome := by
    rw [Option.isSome_iff_ne_none]
    exact fun none => (measures j).not_rounds none rounds
  obtain ⟨n, rounds⟩ := exists_rounds_seventeen legal ge
  have hits : ∃ j < 17, ((interval m e).onGrid (first - (1 + j : ℕ))).nearest?.isSome :=
    ⟨16, by omega, hit 17 n rounds⟩
  obtain ⟨k, digits, pos, earlier, found, same⟩ := shortestFrom_eq hits
  rw [same]
  have best := (measures k).nearest found
  have few := best.hasDigits pos lt
  have closest (y : ℚ) (read : ReadsAs y m e)
      (short : ∀ j, HasDigits j ((digits : ℚ) * 10 ^ (first - k)) → HasDigits j y) :=
    best.closest_of_digits nonzero ge read.rounds.2.2 (short k few)
  refine ⟨readsAs_decimal legal le best.rounds, fun y j read short => few.mono ?_,
    fun y read short => (closest y read short).1, fun y read short => (closest y read short).2⟩
  -- A number of fewer digits would have left a point on an earlier grid.
  by_contra fewer
  obtain ⟨n, rounds, _⟩ := exists_on_grid nonzero ge read.rounds.2.2 short
  have some := hit j n rounds
  rw [earlier j (short.pos (read.rounds.2.2.pos nonzero)) (not_le.mp fewer)] at some
  contradiction

end Courier.Binary64
