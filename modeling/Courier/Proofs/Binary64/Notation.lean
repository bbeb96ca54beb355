import Courier.Binary64.Reader
import Courier.Proofs.Binary64.Shortest
import Courier.Proofs.Text.Decimal
import Mathlib.Data.List.TakeWhile

/-! The text of floating-point numbers: the shortest decimal number in decimal notation. Reading
decimal notation gives the number nearest to its value, so that the text of a number is read as
that number. -/
namespace Courier.Binary64

open Text (Fraction fractionValue ofDigits pointed spelled)

variable {fraction chars : List Char} {m whole : Nat} {e : Int} {negative : Bool}

/-- Digits under a power of ten are written in decimal notation. -/
theorem decimal_place (n : Nat) (p : Int) : ∃ (whole : Nat) (fraction : List Char),
    Fraction fraction ∧ (whole + fractionValue fraction : ℚ) = n * 10 ^ p ∧
      Text.decimal (n * Nat.pow 10 p.toNat) (-p).toNat = spelled false whole fraction := by
  obtain ⟨whole, fraction, proper, value, written⟩ :=
    Text.decimal_eq_spelled (n * 10 ^ p.toNat) (-p).toNat
  refine ⟨whole, fraction, proper, ?_, written⟩
  rw [value, Nat.cast_mul, mul_div_assoc, Nat.cast_pow, Nat.cast_ofNat,
    ← zpow_eq_div (by norm_num)]

/-- The text of a number other than zero is its shortest decimal number. -/
theorem text_finite (legal : Legal m e) (le : e ≤ maxExponent) (nonzero : m ≠ 0)
    (negative : Bool) :
    ∃ (whole : Nat) (fraction : List Char), Fraction fraction ∧
      Shortest (whole + fractionValue fraction) m e ∧
        (finite negative m e).text = spelled negative whole fraction := by
  have spec := shortest_spec legal le nonzero
  rcases found : shortest m e with ⟨n, p⟩
  rw [found] at spec
  obtain ⟨whole, fraction, proper, value, written⟩ := decimal_place n p
  refine ⟨whole, fraction, proper, value ▸ spec, ?_⟩
  unfold text
  dsimp only
  rw [if_neg nonzero, found]
  dsimp only
  rw [written]
  cases negative with
  | true =>
    rw [if_pos rfl, spelled, if_neg (by decide), String.empty_append]
    rfl
  | false => rfl

theorem text_zero (negative : Bool) (e : Int) :
    (finite negative 0 e).text = if negative then "-0" else "0" := by
  cases negative <;> rfl

theorem readNumber?_pointed (negative : Bool) (whole : Nat) (all : ∀ c ∈ fraction, c.isDigit) :
    readNumber? negative ((toString whole).toList ++ pointed fraction) =
      some (ofDecimal negative (ofDigits ((toString whole).toList ++ fraction))
        (-fraction.length)) := by
  have some : (toString whole).toList.isEmpty = false := by
    obtain ⟨c, digits, written, _⟩ := Text.toString_eq_cons whole
    rw [written]
    rfl
  unfold readNumber?
  rw [List.takeWhile_append_of_pos Text.isDigit_toString,
    List.dropWhile_append_of_pos Text.isDigit_toString]
  generalize (toString whole).toList = digits at some ⊢
  cases fraction with
  | nil => simp [pointed, some, readExponent?, ofParts]
  | cons c fraction =>
    have all_taken := List.takeWhile_eq_self_iff.mpr all
    have none_left := List.dropWhile_eq_nil_iff.mpr all
    rw [pointed]
    generalize c :: fraction = fraction at all_taken none_left ⊢
    simp [some, all_taken, none_left, readExponent?, ofParts]

/-- Decimal notation is read as the number nearest to its value. -/
theorem read?_spelled (negative : Bool) (whole : Nat) (all : ∀ c ∈ fraction, c.isDigit) :
    read? (spelled negative whole fraction).toList =
      some (ofDecimal negative (ofDigits ((toString whole).toList ++ fraction))
        (-fraction.length)) := by
  obtain ⟨c, digits, written, digit⟩ := Text.toString_eq_cons whole
  have number := readNumber?_pointed negative whole all
  unfold read?
  rw [Text.splitSign_spelled]
  dsimp only
  rw [written] at number ⊢
  have other {first : Char} {word : List Char} (letter : first.isDigit = false) :=
    Text.lowered_ne (Text.toLower_of_isDigit digit) (Text.ne_of_isDigit digit letter)
      (digits ++ pointed fraction) word
  split
  next same => exact absurd same (other rfl)
  next same => exact absurd same (other rfl)
  next same => exact absurd same (other rfl)
  next => exact number

theorem value_spelled (whole : Nat) (fraction : List Char) :
    (ofDigits ((toString whole).toList ++ fraction) : ℚ) * 10 ^ (-fraction.length : ℤ) =
      whole + fractionValue fraction := by
  rw [Text.ofDigits_append, Text.ofDigits_toString, zpow_neg, zpow_natCast, fractionValue]
  push_cast
  field_simp

/-- The shortest decimal number in decimal notation is the text of the number it stands for. -/
theorem Shortest.text_eq (shortest : Shortest (whole + fractionValue fraction) m e)
    (proper : Fraction fraction) (nonzero : m ≠ 0) (negative : Bool) :
    (finite negative m e).text = spelled negative whole fraction := by
  obtain ⟨legal, le, _⟩ := shortest.read.rounds
  obtain ⟨whole', fraction', proper', shortest', written⟩ := text_finite legal le nonzero negative
  obtain ⟨rfl, rfl⟩ := Text.spelled_unique proper' proper (shortest'.unique shortest)
  exact written

/-- The shortest decimal number in decimal notation is read as the number it stands for. -/
theorem Shortest.read?_eq (shortest : Shortest (whole + fractionValue fraction) m e)
    (proper : Fraction fraction) (negative : Bool) :
    read? (spelled negative whole fraction).toList = some (finite negative m e) := by
  obtain ⟨legal, le, rounds⟩ := shortest.read.rounds
  rw [← value_spelled] at rounds
  rw [read?_spelled negative whole proper.isDigit,
    ofDecimal_eq_finite_iff.mpr ⟨rfl, legal, le, rounds⟩]

/-- What is read as a number is rounded from a decimal number. -/
theorem exists_ofDecimal_of_readNumber? {x : Binary64}
    (read : readNumber? negative chars = some x) :
    ∃ (n : Nat) (p : Int), ofDecimal negative n p = x := by
  unfold readNumber? at read
  dsimp only at read
  rw [Option.ite_none_left_eq_some, Option.map_eq_some_iff] at read
  obtain ⟨_, p, _, same⟩ := read
  exact ⟨_, _, same⟩

/-- What is read as a finite number has one of the mantissas and exponents there are. -/
theorem legal_of_read? (read : read? chars = some (finite negative m e)) :
    Legal m e ∧ e ≤ maxExponent := by
  unfold read? at read
  dsimp only at read
  split at read
  next => cases read
  next => cases read
  next => cases read
  next =>
    obtain ⟨n, p, same⟩ := exists_ofDecimal_of_readNumber? read
    obtain ⟨_, legal, le, _⟩ := ofDecimal_eq_finite_iff.mp same
    exact ⟨legal, le⟩

end Courier.Binary64
