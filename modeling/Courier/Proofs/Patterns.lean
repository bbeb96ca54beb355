import Courier.Topic
import Mathlib.Data.List.Basic
import Mathlib.Data.List.TakeWhile

/-! Which texts are subscription patterns, what they are translated to, and which fault of
any other text is reported. The wildcard is looked for by its place among the bytes of the
text as well, since that is how a text kept in UTF-8 is cut. -/
namespace Courier

namespace Topic

/-- There is at most one wildcard, and only as a whole level at the end. -/
structure WildcardLast (pattern : List Char) : Prop where
  once : pattern.count patternWildcard ≤ 1
  last : patternWildcard ∈ pattern → pattern.getLast? = some patternWildcard
  whole : patternWildcard ∈ pattern →
    pattern = [patternWildcard] ∨ ['/', patternWildcard] <:+ pattern

structure WellFormed (pattern : String) : Prop where
  nonempty : pattern ≠ ""
  short : pattern.utf8ByteSize ≤ 1024
  unnulled : '\x00' ∉ pattern.toList
  unreserved : ∀ sign ∈ ['#', '+', '$'], sign ∉ pattern.toList
  wildcard : WildcardLast pattern.toList

def onWire (pattern : List Char) : List Char :=
  if pattern.getLast? = some patternWildcard then pattern.dropLast ++ [filterWildcard] else pattern

section Wildcard

variable {pattern before after filter : List Char}

theorem WildcardLast.of_plain (plain : patternWildcard ∉ pattern) : WildcardLast pattern where
  once := by rw [List.count_eq_zero_of_not_mem plain]; exact Nat.zero_le 1
  last member := absurd member plain
  whole member := absurd member plain

theorem onWire_of_plain (plain : patternWildcard ∉ pattern) : onWire pattern = pattern := by
  refine if_neg ?_
  intro last
  exact plain (List.mem_of_getLast? last)

theorem onWire_concat (before : List Char) :
    onWire (before ++ [patternWildcard]) = before ++ [filterWildcard] := by
  rw [onWire, List.getLast?_concat, if_pos rfl, List.dropLast_concat]

/-- All depends on what stands around the first wildcard. -/
theorem wildcardLast_iff (first : patternWildcard ∉ before) :
    WildcardLast (before ++ patternWildcard :: after) ↔
      after = [] ∧ (before = [] ∨ before.getLast? = some '/') := by
  have member : patternWildcard ∈ before ++ patternWildcard :: after := by simp
  constructor
  · rintro ⟨once, last, whole⟩
    have others : patternWildcard ∉ after := by
      rw [List.count_append, List.count_cons_self] at once
      exact List.count_eq_zero.mp (by omega)
    rcases List.eq_nil_or_concat' after with rfl | ⟨init, final, rfl⟩
    · refine ⟨rfl, ?_⟩
      rcases whole member with alone | level
      · exact .inl (by simpa using alone)
      · obtain ⟨earlier, split⟩ := level
        have same : earlier ++ ['/'] ++ [patternWildcard] = before ++ [patternWildcard] := by
          rw [← split, List.append_assoc]
          rfl
        rw [← List.append_cancel_right same]
        exact .inr List.getLast?_concat
    · have final : some final = some patternWildcard := by
        rw [← last member, ← List.cons_append, ← List.append_assoc, List.getLast?_concat]
      rw [Option.some.inj final] at others
      exact absurd (List.mem_append_right _ List.mem_cons_self) others
  · rintro ⟨rfl, level⟩
    constructor
    · rw [List.count_append, List.count_eq_zero_of_not_mem first]
      simp
    · intro _
      exact List.getLast?_concat
    · intro _
      rcases level with rfl | slash
      · exact .inl rfl
      · obtain ⟨earlier, rfl⟩ := List.getLast?_eq_some_iff.mp slash
        right
        exact ⟨earlier, (List.append_assoc earlier ['/'] [patternWildcard]).symm⟩

theorem others_of_plain {text : List Char} (plain : patternWildcard ∉ text) :
    ∀ c ∈ text, decide (c ≠ patternWildcard) = true := by
  intro c member
  apply decide_eq_true
  rintro rfl
  exact plain member

theorem wireForm?_of_plain (plain : patternWildcard ∉ pattern) :
    wireForm? pattern = some pattern := by
  have rest : pattern.dropWhile (· ≠ patternWildcard) = [] :=
    List.dropWhile_eq_nil_iff.mpr (others_of_plain plain)
  simp only [wireForm?, rest]

theorem wireForm?_split (first : patternWildcard ∉ before) :
    wireForm? (before ++ patternWildcard :: after) =
      if after = [] ∧ (before = [] ∨ before.getLast? = some '/') then
        some (before ++ [filterWildcard])
      else none := by
  have others := others_of_plain first
  have reached : (patternWildcard :: after).takeWhile (· ≠ patternWildcard) = [] := by simp
  have left : (patternWildcard :: after).dropWhile (· ≠ patternWildcard) =
      patternWildcard :: after := by simp
  simp only [wireForm?, List.takeWhile_append_of_pos others, List.dropWhile_append_of_pos others,
    reached, left, List.append_nil]
  cases after with
  | cons => simp
  | nil =>
    have level : before.getLast?.all (· = '/') = true ↔
        before = [] ∨ before.getLast? = some '/' := by
      cases last : before.getLast? with
      | none => simp [List.getLast?_eq_none_iff.mp last]
      | some c =>
        have nonempty : before ≠ [] := by
          rw [← List.getLast?_isSome, last]
          rfl
        simp [nonempty]
    simp only [level, true_and]

theorem wireForm?_eq_some_iff :
    wireForm? pattern = some filter ↔ WildcardLast pattern ∧ filter = onWire pattern := by
  by_cases member : patternWildcard ∈ pattern
  · obtain ⟨before, after, rfl, first⟩ := List.eq_append_cons_of_mem member
    rw [wireForm?_split first, wildcardLast_iff first]
    by_cases level : after = [] ∧ (before = [] ∨ before.getLast? = some '/')
    · rw [if_pos level, Option.some.injEq, level.1, onWire_concat]
      exact ⟨fun same => ⟨⟨rfl, level.2⟩, same.symm⟩, fun whole => whole.2.symm⟩
    · rw [if_neg level]
      exact ⟨nofun, fun whole => absurd whole.1 level⟩
  · rw [wireForm?_of_plain member, onWire_of_plain member, Option.some.injEq]
    exact ⟨fun same => ⟨.of_plain member, same.symm⟩, fun whole => whole.2.symm⟩

end Wildcard

end Topic

namespace TopicFault

variable {pattern : String} {fault other : TopicFault}

def Applies (pattern : String) : TopicFault → Prop
  | empty => pattern = ""
  | tooLong => 1024 < pattern.utf8ByteSize
  | containsNull => '\x00' ∈ pattern.toList
  | reserved sign => pattern.toList.find? (· ∈ ['#', '+', '$']) = some sign
  | misplacedWildcard => ¬Topic.WildcardLast pattern.toList
  | wildcardInTopic => False

/-- The place of a fault in the order in which they are looked for. -/
def rank : TopicFault → Nat
  | empty => 0
  | tooLong => 1
  | containsNull => 2
  | reserved _ => 3
  | misplacedWildcard => 4
  | wildcardInTopic => 5

structure First (pattern : String) (fault : TopicFault) : Prop where
  applies : fault.Applies pattern
  foremost : ∀ other : TopicFault, other.rank < fault.rank → ¬other.Applies pattern

/-- A pattern has one fault of a rank at most. -/
theorem Applies.eq_of_rank (one : fault.Applies pattern) (two : other.Applies pattern)
    (same : fault.rank = other.rank) : fault = other := by
  cases fault with
  | reserved sign =>
    cases other with
    | reserved sign' => exact congrArg reserved (Option.some.inj (one.symm.trans two))
    | _ => simp [rank] at same
  | _ => cases other <;> first | rfl | simp [rank] at same

theorem First.unique (one : First pattern fault) (two : First pattern other) : fault = other := by
  apply one.applies.eq_of_rank two.applies
  have behind := mt (two.foremost fault) (not_not.mpr one.applies)
  have before := mt (one.foremost other) (not_not.mpr two.applies)
  omega

end TopicFault

namespace Topic

variable {pattern filter : String} {fault : TopicFault}

theorem isReserved_eq : isReserved = fun c => decide (c ∈ ['#', '+', '$']) := by
  funext c
  simp [isReserved, Bool.or_assoc, beq_eq_decide]

theorem wellFormed_iff : WellFormed pattern ↔ ∀ fault : TopicFault, ¬fault.Applies pattern := by
  constructor
  · rintro ⟨nonempty, short, unnulled, unreserved, wildcard⟩ fault
    cases fault with
    | empty => exact nonempty
    | tooLong => exact Nat.not_lt.mpr short
    | containsNull => exact unnulled
    | reserved sign =>
      intro first
      have found : pattern.toList.find? (· ∈ ['#', '+', '$']) = some sign := first
      have reserved := List.find?_some found
      exact unreserved sign (of_decide_eq_true reserved) (List.mem_of_find?_eq_some found)
    | misplacedWildcard => exact not_not.mpr wildcard
    | wildcardInTopic => exact not_false
  · intro faultless
    refine ⟨faultless .empty, Nat.not_lt.mp (faultless .tooLong), faultless .containsNull, ?_,
      not_not.mp (faultless .misplacedWildcard)⟩
    have none : pattern.toList.find? (· ∈ ['#', '+', '$']) = none :=
      Option.eq_none_iff_forall_ne_some.mpr fun sign => faultless (.reserved sign)
    intro sign reserved member
    exact List.find?_eq_none.mp none sign member (decide_eq_true reserved)

inductive Checked (text : String) : Except TopicFault Unit → Prop where
  | empty (empty : text = "") : Checked text (.error .empty)
  | tooLong (nonempty : text ≠ "") (long : 1024 < text.utf8ByteSize) :
      Checked text (.error .tooLong)
  | containsNull (nonempty : text ≠ "") (short : ¬1024 < text.utf8ByteSize)
      (nulled : '\x00' ∈ text.toList) : Checked text (.error .containsNull)
  | reserved {sign : Char} (nonempty : text ≠ "") (short : ¬1024 < text.utf8ByteSize)
      (unnulled : '\x00' ∉ text.toList)
      (first : text.toList.find? (· ∈ ['#', '+', '$']) = some sign) :
      Checked text (.error (.reserved sign))
  | passed (nonempty : text ≠ "") (short : ¬1024 < text.utf8ByteSize)
      (unnulled : '\x00' ∉ text.toList)
      (unreserved : text.toList.find? (· ∈ ['#', '+', '$']) = none) : Checked text (.ok ())

theorem checked (text : String) : Checked text (check text) := by
  unfold check
  rw [isReserved_eq]
  by_cases empty : text = ""
  · rw [if_pos (String.isEmpty_iff.mpr empty)]
    exact .empty empty
  rw [if_neg (mt String.isEmpty_iff.mp empty)]
  by_cases long : maxBytes < text.utf8ByteSize
  · rw [if_pos long]
    exact .tooLong empty long
  rw [if_neg long]
  by_cases nulled : '\x00' ∈ text.toList
  · rw [if_pos (List.contains_iff_mem.mpr nulled)]
    exact .containsNull empty long nulled
  rw [if_neg (mt List.contains_iff_mem.mp nulled)]
  split
  · rename_i sign first
    exact .reserved empty long nulled first
  · rename_i none
    exact .passed empty long nulled none

/-- The common checks report the first fault there is. -/
theorem first_of_check (refused : check pattern = .error fault) : fault.First pattern := by
  have checked := checked pattern
  rw [refused] at checked
  cases checked with
  | empty empty => exact ⟨empty, fun other before => absurd before (Nat.not_lt_zero _)⟩
  | tooLong nonempty long =>
    refine ⟨long, fun other before => ?_⟩
    cases other with
    | empty => exact nonempty
    | _ => simp [TopicFault.rank] at before
  | containsNull nonempty short nulled =>
    refine ⟨nulled, fun other before => ?_⟩
    cases other with
    | empty => exact nonempty
    | tooLong => exact short
    | _ => simp [TopicFault.rank] at before
  | reserved nonempty short unnulled first =>
    refine ⟨first, fun other before => ?_⟩
    cases other with
    | empty => exact nonempty
    | tooLong => exact short
    | containsNull => exact unnulled
    | _ => simp [TopicFault.rank] at before

/-- What they let pass can only have its wildcard in a wrong place. -/
theorem eq_misplacedWildcard (passed : check pattern = .ok ()) (applies : fault.Applies pattern) :
    fault = .misplacedWildcard := by
  have checked := checked pattern
  rw [passed] at checked
  cases checked with
  | passed nonempty short unnulled unreserved =>
    cases fault with
    | empty => exact absurd applies nonempty
    | tooLong => exact absurd applies short
    | containsNull => exact absurd applies unnulled
    | reserved sign => cases unreserved.symm.trans applies
    | misplacedWildcard => rfl
    | wildcardInTopic => exact applies.elim

theorem wellFormed_of_passed (passed : check pattern = .ok ()) :
    WellFormed pattern ↔ WildcardLast pattern.toList := by
  refine ⟨WellFormed.wildcard, ?_⟩
  intro wildcard
  rw [wellFormed_iff]
  intro fault applies
  cases eq_misplacedWildcard passed applies
  exact applies wildcard

theorem toFilter_of_passed (passed : check pattern = .ok ()) :
    toFilter pattern = match wireForm? pattern.toList with
      | some filter => .ok (String.ofList filter)
      | none => .error .misplacedWildcard := by
  rw [toFilter, passed]
  rfl

theorem toFilter_of_refused (refused : check pattern = .error fault) :
    toFilter pattern = .error fault := by
  rw [toFilter, refused]
  rfl

theorem toFilter_eq_ok_iff : toFilter pattern = .ok filter ↔
    WellFormed pattern ∧ filter = String.ofList (onWire pattern.toList) := by
  cases result : check pattern with
  | error fault =>
    rw [toFilter_of_refused result]
    have faulty := (first_of_check result).applies
    exact ⟨nofun, fun accepted => absurd faulty (wellFormed_iff.mp accepted.1 fault)⟩
  | ok _ =>
    rw [toFilter_of_passed result, wellFormed_of_passed result]
    cases form : wireForm? pattern.toList with
    | none =>
      have faulty : ¬WildcardLast pattern.toList := by
        intro wildcard
        rw [wireForm?_eq_some_iff.mpr ⟨wildcard, rfl⟩] at form
        contradiction
      exact ⟨nofun, fun accepted => absurd accepted.1 faulty⟩
    | some wired =>
      obtain ⟨wildcard, rfl⟩ := wireForm?_eq_some_iff.mp form
      simp only [Except.ok.injEq, wildcard, true_and]
      exact eq_comm

theorem first_of_toFilter (refused : toFilter pattern = .error fault) : fault.First pattern := by
  cases result : check pattern with
  | error early =>
    rw [toFilter_of_refused result] at refused
    cases refused
    exact first_of_check result
  | ok _ =>
    have faulty : ¬WildcardLast pattern.toList := by
      intro wildcard
      have accepted := toFilter_eq_ok_iff.mpr ⟨(wellFormed_of_passed result).mpr wildcard, rfl⟩
      rw [accepted] at refused
      contradiction
    have none : wireForm? pattern.toList = none :=
      Option.eq_none_iff_forall_ne_some.mpr fun _ form => faulty (wireForm?_eq_some_iff.mp form).1
    rw [toFilter_of_passed result, none] at refused
    cases refused
    refine ⟨faulty, fun other before applies => ?_⟩
    cases eq_misplacedWildcard result applies
    exact absurd before (Nat.lt_irrefl _)

section Bytes

/-- The text before a byte; none where that byte is inside a character, or behind the end. -/
def upTo? (text : String) (byte : Nat) : Option String :=
  if valid : String.Pos.Raw.IsValid text ⟨byte⟩ then
    some (text.sliceTo (text.pos ⟨byte⟩ valid)).copy
  else none

/-- The text with its last byte, where the wildcard has to be, written as on the wire. None when
the text cannot be cut there. -/
def cutAt? (pattern : String) (byte : Nat) : Option (Except TopicFault String) :=
  if byte = pattern.utf8ByteSize - 1 then
    (upTo? pattern byte).map fun before =>
      if byte = 0 ∨ before.endsWith '/' = true then .ok (before.push filterWildcard)
      else .error .misplacedWildcard
  else some (.error .misplacedWildcard)

/-- The translation by way of bytes: the text is cut at its first wildcard. -/
def cut? (pattern : String) : Option (Except TopicFault String) :=
  match pattern.find? patternWildcard with
  | none => some (.ok pattern)
  | some place => cutAt? pattern place.offset.byteIdx

def cutFilter? (pattern : String) : Option (Except TopicFault String) :=
  match check pattern with
  | .error fault => some (.error fault)
  | .ok () => cut? pattern

theorem upTo?_append (before after : String) :
    upTo? (before ++ after) before.utf8ByteSize = some before := by
  have splits := String.Pos.splits_append_rawEndPos (s := before) (t := after)
  have valid : String.Pos.Raw.IsValid (before ++ after) ⟨before.utf8ByteSize⟩ :=
    String.Pos.Raw.isValid_iff_exists_append.mpr ⟨before, after, rfl, rfl⟩
  rw [upTo?, dif_pos valid]
  exact congrArg some splits.copy_sliceTo_eq

theorem cut?_of_plain {pattern : String} (plain : patternWildcard ∉ pattern.toList) :
    cut? pattern = some (.ok pattern) := by
  have none : pattern.find? patternWildcard = none := by
    refine Option.eq_none_iff_forall_ne_some.mpr ?_
    intro place found
    obtain ⟨before, after, splits, _⟩ := String.find?_char_eq_some_iff_splits.mp found
    rw [splits.eq_append] at plain
    exact plain (by simp)
  rw [cut?, none]

theorem cut?_split {before after : String} (first : patternWildcard ∉ before.toList) :
    cut? (before ++ (String.singleton patternWildcard ++ after)) =
      some (if after = "" ∧ (before = "" ∨ before.endsWith '/' = true) then
        .ok (before.push filterWildcard) else .error .misplacedWildcard) := by
  generalize whole : before ++ (String.singleton patternWildcard ++ after) = pattern
  have splits := String.Pos.splits_ofEqAppend whole.symm
  have found : pattern.find? patternWildcard = some (String.Pos.ofEqAppend whole.symm) :=
    String.find?_char_eq_some_iff_splits.mpr ⟨before, after, splits, first⟩
  have byte : (String.Pos.ofEqAppend whole.symm).offset.byteIdx = before.utf8ByteSize :=
    congrArg String.Pos.Raw.byteIdx splits.offset_eq_rawEndPos
  have cut : upTo? pattern before.utf8ByteSize = some before := by
    rw [← whole]
    exact upTo?_append _ _
  have last : before.utf8ByteSize = pattern.utf8ByteSize - 1 ↔ after = "" := by
    have wildcard : patternWildcard.utf8Size = 1 := rfl
    rw [← whole, String.utf8ByteSize_append, String.utf8ByteSize_append,
      String.utf8ByteSize_singleton, wildcard, ← String.utf8ByteSize_eq_zero_iff]
    omega
  simp only [cut?, cutAt?, found, byte, cut, last, String.utf8ByteSize_eq_zero_iff, Option.map_some]
  by_cases ends : after = ""
  · simp only [ends, if_true, true_and]
  · simp only [ends, if_false, false_and]

theorem cutFilter?_eq (pattern : String) : cutFilter? pattern = some (toFilter pattern) := by
  unfold cutFilter?
  cases result : check pattern with
  | error fault => rw [toFilter_of_refused result]
  | ok _ =>
    rw [toFilter_of_passed result]
    by_cases member : patternWildcard ∈ pattern.toList
    · obtain ⟨chars, more, split, first⟩ := List.eq_append_cons_of_mem member
      obtain ⟨before, rfl⟩ : ∃ text : String, text.toList = chars := ⟨.ofList chars, by simp⟩
      obtain ⟨after, rfl⟩ : ∃ text : String, text.toList = more := ⟨.ofList more, by simp⟩
      have whole : pattern = before ++ (String.singleton patternWildcard ++ after) := by
        rw [← String.toList_inj, split]
        simp
      have level : (after.toList = [] ∧ (before.toList = [] ∨ before.toList.getLast? = some '/')) ↔
          after = "" ∧ (before = "" ∨ before.endsWith '/' = true) := by
        rw [String.toList_eq_nil_iff, String.toList_eq_nil_iff, String.endsWith_char_eq_getLast?,
          beq_iff_eq]
      have pushed : String.ofList (before.toList ++ [filterWildcard]) =
          before.push filterWildcard := by
        rw [← String.toList_inj]
        simp
      rw [split, wireForm?_split first, whole, cut?_split first]
      simp only [level]
      split
      · simp only [pushed]
      · rfl
    · simp only [cut?_of_plain member, wireForm?_of_plain member, String.ofList_toList]

end Bytes

/-- A text is taken for a pattern exactly if it is well-formed, and then only its final
wildcard is written otherwise; of any other text the first fault is reported. Cutting it by
bytes never fails and comes to the same. -/
theorem toFilter_exact (pattern : String) :
    (∀ filter, toFilter pattern = .ok filter ↔
      WellFormed pattern ∧ filter = String.ofList (onWire pattern.toList)) ∧
    (∀ fault : TopicFault, toFilter pattern = .error fault ↔ fault.First pattern) ∧
    cutFilter? pattern = some (toFilter pattern) := by
  refine ⟨fun filter => toFilter_eq_ok_iff, fun fault => ⟨first_of_toFilter, ?_⟩,
    cutFilter?_eq pattern⟩
  intro first
  cases result : toFilter pattern with
  | ok filter =>
    exact absurd first.applies (wellFormed_iff.mp (toFilter_eq_ok_iff.mp result).1 fault)
  | error other => rw [first.unique (first_of_toFilter result)]

example : toFilter "é/*" = .ok "é/#" ∧ toFilter "*/é#" = .error (.reserved '#') := by
  decide +kernel

end Topic

end Courier
