import Courier.Text.Decimal
import Mathlib.Algebra.Order.Field.Power
import Mathlib.Data.Rat.Cast.Order
import Mathlib.Tactic.FieldSimp
import Mathlib.Tactic.Linarith
import Mathlib.Tactic.NormNum
import Mathlib.Tactic.Positivity
import Mathlib.Tactic.Ring

/-! Decimal notation: a sign, a whole part as whole numbers are written, and behind a point the
fraction, which does not end in a zero. A number has one such notation. -/
namespace Courier.Text

structure Fraction (digits : List Char) : Prop where
  isDigit : ∀ c ∈ digits, c.isDigit
  last : digits.getLast? ≠ some '0'

def fractionValue (digits : List Char) : ℚ := ofDigits digits / 10 ^ digits.length

/-- Digits with the point in front, which is left out where there are none. -/
def pointed : List Char → List Char
  | [] => []
  | c :: digits => '.' :: c :: digits

def spelled (negative : Bool) (whole : Nat) (fraction : List Char) : String :=
  (if negative then "-" else "") ++ (toString whole ++ String.ofList (pointed fraction))

variable {c : Char} {digits digits' rest : List Char} {n places : Nat}

theorem ofDigits_append (digits digits' : List Char) :
    ofDigits (digits ++ digits') = 10 ^ digits'.length * ofDigits digits + ofDigits digits' := by
  show Nat.ofDigitChars 10 (digits ++ digits') 0 = _
  rw [Nat.ofDigitChars_append, Nat.ofDigitChars_eq_ofDigitChars_zero]
  rfl

theorem ofDigits_cons (c : Char) (digits : List Char) :
    ofDigits (c :: digits) = 10 ^ digits.length * (c.toNat - '0'.toNat) + ofDigits digits := by
  rw [← List.singleton_append, ofDigits_append]
  simp [ofDigits]

theorem ofDigits_toString (n : Nat) : ofDigits (toString n).toList = n := by
  rw [Nat.toString_eq_repr, Nat.toList_repr]
  exact Nat.ofDigitChars_ten_toDigits

theorem ofDigits_replicate (n : Nat) : ofDigits (List.replicate n '0') = 0 :=
  Nat.ofDigitChars_replicate_zero.trans (Nat.mul_zero _)

theorem isDigit_toString : ∀ c ∈ (toString n).toList, c.isDigit := by
  intro c member
  rw [Nat.toString_eq_repr, Nat.toList_repr] at member
  exact Nat.isDigit_of_mem_toDigits (by decide) (by decide) member

/-- Numbers are written with a digit in front. -/
theorem toString_eq_cons (n : Nat) :
    ∃ c digits, (toString n).toList = c :: digits ∧ c.isDigit := by
  cases written : (toString n).toList with
  | nil =>
    rw [Nat.toString_eq_repr, Nat.toList_repr] at written
    exact absurd written Nat.toDigits_ne_nil
  | cons c digits => exact ⟨c, digits, rfl, isDigit_toString c (written ▸ List.mem_cons_self)⟩

/-- A digit is one of ten. -/
theorem toNat_of_isDigit (digit : c.isDigit) : '0'.toNat ≤ c.toNat ∧ c.toNat ≤ '0'.toNat + 9 := by
  rw [Char.isDigit, Bool.and_eq_true, decide_eq_true_iff, decide_eq_true_iff, ge_iff_le,
    UInt32.le_iff_toNat_le, UInt32.le_iff_toNat_le] at digit
  exact digit

theorem toLower_of_isDigit (digit : c.isDigit) : c.toLower = c := by
  unfold Char.toLower
  split
  next upper =>
    have low := (toNat_of_isDigit digit).2
    have high : 'A'.toNat ≤ c.toNat := UInt32.le_iff_toNat_le.mp upper.1
    exact absurd (high.trans low) (by decide)
  next => rfl

theorem ne_of_isDigit {letter : Char} (digit : c.isDigit) (other : letter.isDigit = false) :
    c ≠ letter := by
  rintro rfl
  rw [digit] at other
  contradiction

/-- A word is told apart by what it begins with, in small letters too. -/
theorem lowered_ne {lower : Char → Char} {first : Char} (kept : lower c = c) (other : c ≠ first)
    (rest word : List Char) :
    String.ofList ((c :: rest).map lower) ≠ String.ofList (first :: word) := by
  intro same
  rw [List.map_cons, kept, String.ofList_inj] at same
  exact other (List.cons.inj same).1

/-- A digit is no sign. -/
theorem splitSign_of_isDigit (digit : c.isDigit) : splitSign (c :: rest) = (false, c :: rest) := by
  unfold splitSign
  split
  next same => exact absurd (List.cons.inj same).1 (ne_of_isDigit digit rfl)
  next same => exact absurd (List.cons.inj same).1 (ne_of_isDigit digit rfl)
  next => rfl

/-- Only the sign is split off. -/
theorem splitSign_spelled (negative : Bool) (whole : Nat) (fraction : List Char) :
    splitSign (spelled negative whole fraction).toList =
      (negative, (toString whole).toList ++ pointed fraction) := by
  unfold spelled
  rw [String.toList_append, String.toList_append, String.toList_ofList]
  cases negative with
  | true => rfl
  | false =>
    obtain ⟨c, digits, written, digit⟩ := toString_eq_cons whole
    rw [written]
    exact splitSign_of_isDigit digit

theorem fractionValue_cons (c : Char) (digits : List Char) :
    fractionValue (c :: digits) = ((c.toNat - '0'.toNat : ℕ) + fractionValue digits) / 10 := by
  unfold fractionValue
  rw [ofDigits_cons, List.length_cons, pow_succ]
  push_cast
  field_simp

theorem fractionValue_bounds (all : ∀ c ∈ digits, c.isDigit) :
    0 ≤ fractionValue digits ∧ fractionValue digits < 1 := by
  induction digits with
  | nil => norm_num [fractionValue, ofDigits]
  | cons c digits ih =>
    obtain ⟨nonneg, lt⟩ := ih fun c member => all c (List.mem_cons_of_mem _ member)
    have bound := toNat_of_isDigit (all c List.mem_cons_self)
    have le : ((c.toNat - '0'.toNat : ℕ) : ℚ) ≤ 9 := by
      exact_mod_cast (show c.toNat - '0'.toNat ≤ 9 by omega)
    rw [fractionValue_cons]
    constructor
    · positivity
    · linarith

theorem Fraction.tail (fraction : Fraction (c :: digits)) : Fraction digits where
  isDigit c member := fraction.isDigit c (List.mem_cons_of_mem _ member)
  last := by
    cases digits with
    | nil => simp
    | cons d digits => exact fraction.last

theorem Fraction.pos (fraction : Fraction (c :: digits)) : 0 < fractionValue (c :: digits) := by
  induction digits generalizing c with
  | nil =>
    have digit := toNat_of_isDigit (fraction.isDigit c List.mem_cons_self)
    have other : c.toNat ≠ '0'.toNat := fun same =>
      fraction.last (congrArg some (Char.toNat_inj.mp same))
    have pos : (0 : ℚ) < (c.toNat - '0'.toNat : ℕ) := by
      exact_mod_cast (show 0 < c.toNat - '0'.toNat by omega)
    rw [fractionValue_cons, show fractionValue [] = 0 by norm_num [fractionValue, ofDigits]]
    positivity
  | cons d digits ih =>
    have pos := ih fraction.tail
    rw [fractionValue_cons]
    positivity

/-- A number has one whole part and one part below one. -/
theorem natCast_add_inj {q y : ℚ} {n k : Nat} (nonneg : 0 ≤ q) (lt : q < 1) (nonneg' : 0 ≤ y)
    (lt' : y < 1) (same : (n : ℚ) + q = k + y) : n = k ∧ q = y := by
  have less : (n : ℚ) < k + 1 := by linarith
  have less' : (k : ℚ) < n + 1 := by linarith
  have whole : n = k := by
    have : n < k + 1 := by exact_mod_cast less
    have : k < n + 1 := by exact_mod_cast less'
    omega
  subst whole
  exact ⟨rfl, by linarith⟩

/-- Fractions of one value are the same digits. -/
theorem Fraction.unique (here : Fraction digits) (there : Fraction digits')
    (same : fractionValue digits = fractionValue digits') : digits = digits' := by
  induction digits generalizing digits' with
  | nil =>
    cases digits' with
    | nil => rfl
    | cons c digits' =>
      have pos := there.pos
      rw [← same] at pos
      norm_num [fractionValue, ofDigits] at pos
  | cons c digits ih =>
    cases digits' with
    | nil =>
      have pos := here.pos
      rw [same] at pos
      norm_num [fractionValue, ofDigits] at pos
    | cons d digits' =>
      rw [fractionValue_cons, fractionValue_cons] at same
      obtain ⟨nonneg, lt⟩ := fractionValue_bounds here.tail.isDigit
      obtain ⟨nonneg', lt'⟩ := fractionValue_bounds there.tail.isDigit
      have digit := toNat_of_isDigit (here.isDigit c List.mem_cons_self)
      have digit' := toNat_of_isDigit (there.isDigit d List.mem_cons_self)
      have value : (c.toNat - '0'.toNat : ℕ) + fractionValue digits =
          (d.toNat - '0'.toNat : ℕ) + fractionValue digits' := by linarith
      obtain ⟨leading, rest⟩ := natCast_add_inj nonneg lt nonneg' lt' value
      rw [ih here.tail there.tail rest, Char.toNat_inj.mp (show c.toNat = d.toNat by omega)]

theorem fractionValue_append_zeros (digits : List Char) (n : Nat) :
    fractionValue (digits ++ List.replicate n '0') = fractionValue digits := by
  unfold fractionValue
  rw [ofDigits_append, ofDigits_replicate, List.length_append, List.length_replicate, pow_add]
  push_cast
  field_simp
  ring

/-- Only zeros are taken off, and all of them. -/
theorem withoutTrailingZeros_split (digits : List Char) :
    ∃ n, digits = withoutTrailingZeros digits ++ List.replicate n '0' := by
  refine ⟨(digits.reverse.takeWhile (· = '0')).length, ?_⟩
  have zeros : digits.reverse.takeWhile (· = '0') =
      List.replicate (digits.reverse.takeWhile (· = '0')).length '0' :=
    List.eq_replicate_iff.mpr ⟨rfl, fun c member => by
      simpa using List.all_eq_true.mp List.all_takeWhile c member⟩
  rw [withoutTrailingZeros, ← List.reverse_replicate, ← zeros, ← List.reverse_append,
    List.takeWhile_append_dropWhile, List.reverse_reverse]

theorem fraction_withoutTrailingZeros (all : ∀ c ∈ digits, c.isDigit) :
    Fraction (withoutTrailingZeros digits) where
  isDigit c member := by
    obtain ⟨n, split⟩ := withoutTrailingZeros_split digits
    exact all c (split ▸ List.mem_append_left _ member)
  last := by
    rw [withoutTrailingZeros, List.getLast?_reverse]
    intro zero
    have first := List.head?_dropWhile_not (· = '0') digits.reverse
    rw [zero] at first
    simp at first

theorem fractionValue_withoutTrailingZeros (digits : List Char) :
    fractionValue (withoutTrailingZeros digits) = fractionValue digits := by
  obtain ⟨n, split⟩ := withoutTrailingZeros_split digits
  rw [← fractionValue_append_zeros _ n, ← split]

theorem isDigit_padded : ∀ c ∈ padded places n, c.isDigit := by
  intro c member
  rcases List.mem_append.mp member with zero | digit
  · rw [List.eq_of_mem_replicate zero]
    rfl
  · exact isDigit_toString c digit

theorem ofDigits_padded (places n : Nat) : ofDigits (padded places n) = n := by
  unfold padded
  dsimp only
  rw [ofDigits_append, ofDigits_replicate, ofDigits_toString, Nat.mul_zero, Nat.zero_add]

theorem fractionValue_padded (lt : n < 10 ^ places) :
    fractionValue (padded places n) = n / 10 ^ places := by
  rcases Nat.eq_zero_or_pos places with none | pos
  · rw [none, pow_zero, Nat.lt_one_iff] at lt
    rw [none, lt, fractionValue, ofDigits_padded, Nat.cast_zero, zero_div, zero_div]
  · have short : (toString n).toList.length ≤ places := by
      rw [String.length_toList, Nat.toString_eq_repr]
      exact (Nat.length_repr_le_iff pos).mpr lt
    have width : (padded places n).length = places := by
      unfold padded
      dsimp only
      rw [List.length_append, List.length_replicate, Nat.sub_add_cancel short]
    rw [fractionValue, ofDigits_padded, width]

/-- A number with a fixed count of decimal places is written in decimal notation. -/
theorem decimal_eq_spelled (n places : Nat) : ∃ (whole : Nat) (fraction : List Char),
    Fraction fraction ∧ (whole + fractionValue fraction : ℚ) = n / 10 ^ places ∧
      decimal n places = spelled false whole fraction := by
  refine ⟨n / 10 ^ places, withoutTrailingZeros (padded places (n % 10 ^ places)),
    fraction_withoutTrailingZeros isDigit_padded, ?_, ?_⟩
  · rw [fractionValue_withoutTrailingZeros,
      fractionValue_padded (Nat.mod_lt n (Nat.pow_pos (by decide)))]
    have parts : (n : ℚ) = 10 ^ places * (n / 10 ^ places : ℕ) + (n % 10 ^ places : ℕ) := by
      exact_mod_cast (Nat.div_add_mod n (10 ^ places)).symm
    have pos : (0 : ℚ) < 10 ^ places := by positivity
    rw [eq_div_iff pos.ne', add_mul, div_mul_cancel₀ _ pos.ne', mul_comm _ (10 ^ places : ℚ)]
    exact parts.symm
  · simp only [decimal, spelled, Nat.pow_eq, Bool.false_eq_true, if_false, String.empty_append]
    cases withoutTrailingZeros (padded places (n % 10 ^ places)) with
    | nil => exact String.append_empty.symm
    | cons c digits =>
      have point : String.ofList (pointed (c :: digits)) = "." ++ String.ofList (c :: digits) := by
        rw [pointed, ← List.singleton_append, String.ofList_append]
      rw [point, ← String.append_assoc]
      rfl

/-- A number has one decimal notation. -/
theorem spelled_unique {whole whole' : Nat} (here : Fraction digits) (there : Fraction digits')
    (same : (whole + fractionValue digits : ℚ) = whole' + fractionValue digits') :
    whole = whole' ∧ digits = digits' := by
  obtain ⟨nonneg, lt⟩ := fractionValue_bounds here.isDigit
  obtain ⟨nonneg', lt'⟩ := fractionValue_bounds there.isDigit
  obtain ⟨whole, rest⟩ := natCast_add_inj nonneg lt nonneg' lt' same
  exact ⟨whole, here.unique there rest⟩

end Courier.Text
