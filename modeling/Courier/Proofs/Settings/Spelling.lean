import Courier.Proofs.Binary64.Notation
import Courier.Proofs.Settings.Rules

/-! The spelling of what the variables of the environment say. A variable that looks like a truth
value or a number stands for the one text that this is printed as; other variables stand for the
text they hold. -/
namespace Courier

open Binary64 (Shortest)
open Text (Fraction fractionValue pointed spelled)

namespace Raw

/-- The texts of truth values and numbers: integers of 64 bits, and the shortest decimal numbers
that stand for a number other than zero, never with an exponent. -/
inductive Printed : String → Prop where
  | truth (b : Bool) : Printed (if b then "true" else "false")
  | integer (n : Int) : -2 ^ 63 ≤ n → n < 2 ^ 63 → Printed (toString n)
  | infinite (negative : Bool) : Printed (if negative then "-inf" else "inf")
  | nan : Printed "NaN"
  | number (negative : Bool) (whole : Nat) (fraction : List Char) (m : Nat) (e : Int) :
      Fraction fraction → m ≠ 0 → Shortest (whole + fractionValue fraction) m e →
        Printed (spelled negative whole fraction)

/-- A text that looks like nothing else, or is the one that what it looks like is printed as. -/
def Verbatim (s : String) : Prop := IsText s ∨ Printed s

variable {s id : String} {fraction : List Char} {negative : Bool} {whole : Nat} {n k : Int}

theorem integer64?_eq_some_iff :
    Text.integer64? n = some k ↔ (-2 ^ 63 ≤ n ∧ n < 2 ^ 63) ∧ n = k := by
  unfold Text.integer64?
  rw [Option.ite_none_right_eq_some, Option.some_inj]
  norm_num

/-- What is read as an integer is one of 64 bits. -/
theorem readInteger?_bounds {chars : List Char} (read : readInteger? chars = some n) :
    -2 ^ 63 ≤ n ∧ n < 2 ^ 63 := by
  unfold readInteger? at read
  dsimp only at read
  rw [Option.ite_none_right_eq_some] at read
  obtain ⟨bounds, rfl⟩ := integer64?_eq_some_iff.mp read.2
  exact bounds

theorem lower_of_isDigit {c : Char} (digit : c.isDigit) : lower c = c := by
  rw [lower, if_neg (Text.ne_of_isDigit digit rfl)]
  exact Text.toLower_of_isDigit digit

/-- Decimal notation is no truth value. -/
theorem not_isTruth_spelled : ¬IsTruth (spelled negative whole fraction) := by
  have other {first : Char} (word : List Char) (letter : first.isDigit = false)
      (no_sign : '-' ≠ first) :
      lowered (spelled negative whole fraction) ≠ String.ofList (first :: word) := by
    unfold lowered spelled
    rw [String.toList_append, String.toList_append]
    cases negative with
    | true => exact Text.lowered_ne rfl no_sign _ word
    | false =>
      obtain ⟨c, digits, written, digit⟩ := Text.toString_eq_cons whole
      rw [written]
      exact Text.lowered_ne (lower_of_isDigit digit) (Text.ne_of_isDigit digit letter) _ word
  rintro (yes | no)
  · exact other "rue".toList rfl (by decide) yes
  · exact other "alse".toList rfl (by decide) no

theorem readInteger?_spelled_nil (negative : Bool) (whole : Nat) :
    readInteger? (spelled negative whole []).toList =
      Text.integer64? (if negative then -(whole : Int) else whole) := by
  obtain ⟨c, digits, written, _⟩ := Text.toString_eq_cons whole
  have some : !(toString whole).toList.isEmpty := by rw [written]; rfl
  have all : (toString whole).toList.all Char.isDigit :=
    List.all_eq_true.mpr fun c => Text.isDigit_toString c
  unfold readInteger?
  rw [Text.splitSign_spelled, pointed, List.append_nil]
  dsimp only
  rw [if_pos ⟨some, all⟩, Text.ofDigits_toString]

/-- A point is part of no integer. -/
theorem readInteger?_spelled_cons (negative : Bool) (whole : Nat) (c : Char)
    (fraction : List Char) :
    readInteger? (spelled negative whole (c :: fraction)).toList = none := by
  unfold readInteger?
  rw [Text.splitSign_spelled, pointed]
  dsimp only
  refine if_neg ?_
  rintro ⟨_, all⟩
  have point := List.all_eq_true.mp all '.' (by simp)
  contradiction

/-- Integers are written in decimal notation, zero without a sign. -/
theorem toString_signed (nonzero : negative = true → whole ≠ 0) :
    toString (if negative then -(whole : Int) else whole) = spelled negative whole [] := by
  unfold spelled pointed
  rw [String.ofList_nil, String.append_empty]
  cases negative with
  | false => exact String.empty_append.symm
  | true =>
    obtain ⟨k, rfl⟩ := Nat.exists_eq_succ_of_ne_zero (nonzero rfl)
    rfl

theorem signed_natAbs (n : Int) :
    (if decide (n < 0) then -(n.natAbs : Int) else n.natAbs) = n := by
  simp only [decide_eq_true_eq]
  split <;> omega

theorem toString_eq_spelled (n : Int) : toString n = spelled (n < 0) n.natAbs [] := by
  rw [← toString_signed fun less => Int.natAbs_ne_zero.mpr (of_decide_eq_true less).ne,
    signed_natAbs]

/-- The text of a number that was read is a printed one, but for the zero with a sign. -/
theorem printed_text {chars : List Char} {x : Binary64} (read : Binary64.read? chars = some x) :
    Printed x.text ∨ x.text = "-0" := by
  cases x with
  | nan => exact .inl .nan
  | infinite negative => exact .inl (.infinite negative)
  | finite negative m e =>
    by_cases zero : m = 0
    · rw [zero, Binary64.text_zero]
      cases negative with
      | true => exact .inr rfl
      | false => exact .inl (.integer 0 (by norm_num) (by norm_num))
    · obtain ⟨legal, le⟩ := Binary64.legal_of_read? read
      obtain ⟨whole, fraction, proper, shortest, written⟩ :=
        Binary64.text_finite legal le zero negative
      rw [written]
      exact .inl (.number negative whole fraction m e proper zero shortest)

end Raw

namespace Loader

open Raw (IsText Printed Verbatim)

variable {loader : Loader} {s id : String} {fraction : List Char} {negative : Bool} {whole : Nat}
  {n : Int}

theorem Guesses.toString (guesses : loader.Guesses) (ge : -2 ^ 63 ≤ n) (lt : n < 2 ^ 63) :
    loader.guess (toString n) = .integer n := by
  rw [Raw.toString_eq_spelled]
  refine guesses.integer _ n Raw.not_isTruth_spelled ?_
  rw [Raw.readInteger?_spelled_nil, Raw.signed_natAbs]
  exact Raw.integer64?_eq_some_iff.mpr ⟨⟨ge, lt⟩, rfl⟩

/-- A shortest decimal number is printed as it is written, as an integer if it is one of 64 bits. -/
theorem toText?_spelled (guesses : loader.Guesses) (converts : loader.Converts) {m : Nat} {e : Int}
    (proper : Fraction fraction) (nonzero : m ≠ 0)
    (shortest : Shortest (whole + fractionValue fraction) m e) :
    loader.toText? (loader.guess (spelled negative whole fraction)) =
      some (spelled negative whole fraction) := by
  cases read : Raw.readInteger? (spelled negative whole fraction).toList with
  | none =>
    rw [guesses.float _ _ Raw.not_isTruth_spelled read (shortest.read?_eq proper negative),
      converts.float]
    exact congrArg some (shortest.text_eq proper nonzero negative)
  | some n =>
    rw [guesses.integer _ _ Raw.not_isTruth_spelled read, converts.integer]
    cases fraction with
    | cons c fraction =>
      rw [Raw.readInteger?_spelled_cons] at read
      contradiction
    | nil =>
      rw [Raw.readInteger?_spelled_nil] at read
      obtain ⟨_, rfl⟩ := Raw.integer64?_eq_some_iff.mp read
      refine congrArg some (Raw.toString_signed fun _ => ?_)
      rintro rfl
      have pos := shortest.read.rounds.2.2.pos nonzero
      norm_num [fractionValue, Text.ofDigits] at pos

theorem Guesses.infinite (guesses : loader.Guesses) :
    loader.guess (if negative then "-inf" else "inf") = .float (.infinite negative) := by
  cases negative
  · exact guesses.float "inf" _ (by decide +kernel) (by decide +kernel) (by decide +kernel)
  · exact guesses.float "-inf" _ (by decide +kernel) (by decide +kernel) (by decide +kernel)

/-- What is printed looks like what it is printed from. -/
theorem toText?_of_printed (guesses : loader.Guesses) (converts : loader.Converts)
    (printed : Printed s) : loader.toText? (loader.guess s) = some s := by
  cases printed with
  | truth b =>
    rw [guesses.truth _ b (by cases b <;> decide +kernel), converts.boolean]
  | integer n ge lt => rw [guesses.toString ge lt, converts.integer]
  | infinite negative =>
    rw [guesses.infinite, converts.float]
    cases negative <;> decide +kernel
  | nan =>
    rw [guesses.float "NaN" .nan (by decide +kernel) (by decide +kernel) (by decide +kernel),
      converts.float]
    decide +kernel
  | number negative whole fraction m e proper nonzero shortest =>
    exact toText?_spelled guesses converts proper nonzero shortest

/-- A text always looks like something that a text stands for. -/
theorem exists_toText?_guess (guesses : loader.Guesses) (converts : loader.Converts) (s : String) :
    ∃ id, loader.toText? (loader.guess s) = some id := by
  obtain ⟨b, _, said⟩ | ⟨n, _, said⟩ | ⟨x, _, said⟩ | ⟨_, said⟩ := guesses.cases s
  · exact ⟨_, (congrArg loader.toText? said).trans (converts.boolean b)⟩
  · exact ⟨_, (congrArg loader.toText? said).trans (converts.integer n)⟩
  · exact ⟨_, (congrArg loader.toText? said).trans (converts.float x)⟩
  · exact ⟨_, (congrArg loader.toText? said).trans (converts.text s)⟩

/-- Whatever a variable holds, the text it stands for stands for itself, but for the zero with a
sign, which looks like the integer without. -/
theorem verbatim_of_toText? (guesses : loader.Guesses) (converts : loader.Converts)
    (text : loader.toText? (loader.guess s) = some id) : Verbatim id ∨ id = "-0" := by
  obtain ⟨b, _, said⟩ | ⟨n, read, said⟩ | ⟨x, read, said⟩ | ⟨plain, said⟩ := guesses.cases s
  · rw [said, converts.boolean] at text
    cases text
    exact .inl (.inr (.truth b))
  · rw [said, converts.integer] at text
    cases text
    obtain ⟨ge, lt⟩ := Raw.readInteger?_bounds read
    exact .inl (.inr (.integer n ge lt))
  · rw [said, converts.float] at text
    cases text
    exact (Raw.printed_text read).imp_left .inr
  · rw [said, converts.text] at text
    cases text
    exact .inl (.inl plain)

/-- Exactly the texts that stand for themselves are kept. -/
theorem toText?_guess_eq_self_iff (guesses : loader.Guesses) (converts : loader.Converts) :
    loader.toText? (loader.guess s) = some s ↔ Verbatim s := by
  constructor
  · intro text
    refine (verbatim_of_toText? guesses converts text).resolve_right ?_
    rintro rfl
    have zero : loader.guess "-0" = .integer 0 :=
      guesses.integer "-0" 0 (by decide +kernel) (by decide +kernel)
    rw [zero, converts.integer] at text
    exact absurd (Option.some.inj text) (by decide)
  · rintro (plain | printed)
    · rw [guesses.text s plain, converts.text]
    · exact toText?_of_printed guesses converts printed

/-- One more than the greatest integer looks like a number, of which 16 digits are enough. -/
example : (Raw.guess "9223372036854775808").toText? = some "9223372036854776000" := by
  decide +kernel

end Loader

end Courier
