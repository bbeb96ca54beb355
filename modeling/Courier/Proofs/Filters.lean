import Courier.Proofs.Patterns

/-! Filters and the patterns they stand for. A filter is written like a pattern, with another
sign for its wildcard, so that every filter comes from one pattern and no two patterns share a
filter; a topic to publish to is a pattern that is its own filter. -/
namespace Courier

namespace Topic

/-- There is at most one such sign, and only as the whole last level. -/
structure LastLevel (sign : Char) (text : List Char) : Prop where
  once : text.count sign ≤ 1
  whole : sign ∈ text → text = [sign] ∨ ['/', sign] <:+ text

/-- A text of a fit length that has no sign with a meaning in it, apart from a wildcard as its
last level. -/
structure Form (wildcard : Char) (text : String) : Prop where
  nonempty : text ≠ ""
  short : text.utf8ByteSize ≤ 1024
  unsigned : ∀ sign ∈ ['\x00', '*', '#', '+', '$'], sign ≠ wildcard → sign ∉ text.toList
  wildcard : LastLevel wildcard text.toList

/-- The text with its last sign, if it is the old one, exchanged for the new one. -/
def exchangeLast (old new : Char) (text : List Char) : List Char :=
  if text.getLast? = some old then text.dropLast ++ [new] else text

def patternOf (filter : String) : String :=
  String.ofList (exchangeLast filterWildcard patternWildcard filter.toList)

section Exchange

variable {old new c : Char} {text before : List Char}

theorem lastLevel_iff : LastLevel c text ↔ c ∉ text ∨
    ∃ before, text = before ++ [c] ∧ c ∉ before ∧ (before = [] ∨ before.getLast? = some '/') := by
  constructor
  · rintro ⟨once, whole⟩
    by_cases member : c ∈ text
    · have earlier : ∃ before, text = before ++ [c] ∧
          (before = [] ∨ before.getLast? = some '/') := by
        rcases whole member with rfl | ⟨levels, rfl⟩
        · exact ⟨[], rfl, .inl rfl⟩
        · refine ⟨levels ++ ['/'], ?_, .inr List.getLast?_concat⟩
          rw [List.append_assoc]
          rfl
      obtain ⟨before, rfl, level⟩ := earlier
      have absent : c ∉ before := by
        rw [List.count_append, List.count_singleton_self] at once
        exact List.count_eq_zero.mp (by omega)
      exact .inr ⟨before, rfl, absent, level⟩
    · exact .inl member
  · rintro (absent | ⟨before, rfl, absent, level⟩)
    · constructor
      · rw [List.count_eq_zero_of_not_mem absent]
        exact Nat.zero_le 1
      · exact fun member => absurd member absent
    · constructor
      · rw [List.count_append, List.count_eq_zero_of_not_mem absent, List.count_singleton_self]
      · intro _
        rcases level with rfl | slash
        · exact .inl rfl
        · obtain ⟨levels, rfl⟩ := List.getLast?_eq_some_iff.mp slash
          exact .inr ⟨levels, (List.append_assoc levels ['/'] [c]).symm⟩

theorem exchangeLast_of_absent (absent : old ∉ text) : exchangeLast old new text = text := by
  refine if_neg ?_
  intro last
  exact absent (List.mem_of_getLast? last)

theorem exchangeLast_concat : exchangeLast old new (before ++ [old]) = before ++ [new] := by
  rw [exchangeLast, List.getLast?_concat, if_pos rfl, List.dropLast_concat]

/-- An exchange is undone by the opposite one, and the new sign stands where the old one did. -/
theorem LastLevel.exchange (level : LastLevel old text) (unused : new ∉ text) (apart : old ≠ new) :
    LastLevel new (exchangeLast old new text) ∧ old ∉ exchangeLast old new text ∧
      exchangeLast new old (exchangeLast old new text) = text := by
  rcases lastLevel_iff.mp level with absent | ⟨before, rfl, absent, place⟩
  · rw [exchangeLast_of_absent absent, exchangeLast_of_absent unused]
    exact ⟨lastLevel_iff.mpr (.inl unused), absent, rfl⟩
  · have unused : new ∉ before := fun member => unused (List.mem_append_left _ member)
    rw [exchangeLast_concat, exchangeLast_concat]
    refine ⟨lastLevel_iff.mpr (.inr ⟨before, rfl, unused, place⟩), ?_, rfl⟩
    simp [absent, apart]

theorem mem_of_exchangeLast (member : c ∈ exchangeLast old new text) (other : c ≠ new) :
    c ∈ text := by
  unfold exchangeLast at member
  split at member
  · rcases List.mem_append.mp member with earlier | last
    · exact List.dropLast_subset text earlier
    · exact absurd (List.mem_singleton.mp last) other
  · exact member

theorem exchangeLast_ne_nil (nonempty : text ≠ []) : exchangeLast old new text ≠ [] := by
  unfold exchangeLast
  split
  · exact List.concat_ne_nil _ _
  · exact nonempty

theorem utf8ByteSize_exchangeLast (same : old.utf8Size = new.utf8Size) :
    (String.ofList (exchangeLast old new text)).utf8ByteSize =
      (String.ofList text).utf8ByteSize := by
  unfold exchangeLast
  split
  · rename_i last
    obtain ⟨before, rfl⟩ := List.getLast?_eq_some_iff.mp last
    have single (c : Char) : (String.ofList [c]).utf8ByteSize = c.utf8Size :=
      String.utf8ByteSize_singleton
    rw [List.dropLast_concat, String.ofList_append, String.ofList_append,
      String.utf8ByteSize_append, String.utf8ByteSize_append, single, single, same]
  · rfl

/-- Exchanging the wildcard leads from one form to the other, and back. -/
theorem Form.exchange {text : String} (form : Form old text) (apart : old ≠ new)
    (meant : new ∈ ['\x00', '*', '#', '+', '$']) (same : old.utf8Size = new.utf8Size) :
    Form new (String.ofList (exchangeLast old new text.toList)) ∧
      exchangeLast new old (exchangeLast old new text.toList) = text.toList := by
  have unused : new ∉ text.toList := form.unsigned new meant apart.symm
  obtain ⟨level, removed, back⟩ := form.wildcard.exchange unused apart
  refine ⟨⟨?_, ?_, ?_, ?_⟩, back⟩
  · rw [Ne, String.ofList_eq_empty_iff]
    exact exchangeLast_ne_nil (mt String.toList_eq_nil_iff.mp form.nonempty)
  · rw [utf8ByteSize_exchangeLast same, String.ofList_toList]
    exact form.short
  · intro sign meant other
    rw [String.toList_ofList]
    by_cases former : sign = old
    · rw [former]
      exact removed
    · intro member
      exact form.unsigned sign meant former (mem_of_exchangeLast member other)
  · rw [String.toList_ofList]
    exact level

end Exchange

section Filters

variable {pattern filter topic : String} {fault : TopicFault}

theorem wildcardLast_iff_lastLevel {text : List Char} :
    WildcardLast text ↔ LastLevel patternWildcard text := by
  constructor
  · intro wildcard
    exact ⟨wildcard.once, wildcard.whole⟩
  · intro level
    refine ⟨level.once, ?_, level.whole⟩
    intro member
    rcases lastLevel_iff.mp level with absent | ⟨before, rfl, _⟩
    · exact absurd member absent
    · exact List.getLast?_concat

theorem wellFormed_iff_form : WellFormed pattern ↔ Form patternWildcard pattern := by
  constructor
  · rintro ⟨nonempty, short, unnulled, unreserved, wildcard⟩
    refine ⟨nonempty, short, ?_, wildcardLast_iff_lastLevel.mp wildcard⟩
    simpa [patternWildcard] using And.intro unnulled unreserved
  · rintro ⟨nonempty, short, unsigned, wildcard⟩
    refine ⟨nonempty, short, unsigned '\x00' (by decide) (by decide), ?_,
      wildcardLast_iff_lastLevel.mpr wildcard⟩
    intro sign reserved
    have meant : ∀ sign ∈ ['#', '+', '$'],
        sign ∈ ['\x00', '*', '#', '+', '$'] ∧ sign ≠ patternWildcard := by
      simp [patternWildcard]
    exact unsigned sign (meant sign reserved).1 (meant sign reserved).2

/-- Translating is exchanging the wildcards, forth and back. -/
theorem toFilter_eq_ok_iff_form :
    toFilter pattern = .ok filter ↔ Form filterWildcard filter ∧ pattern = patternOf filter := by
  rw [toFilter_eq_ok_iff, wellFormed_iff_form]
  constructor
  · rintro ⟨form, rfl⟩
    obtain ⟨exchanged, back⟩ :=
      form.exchange (show patternWildcard ≠ filterWildcard by decide) (by decide) rfl
    refine ⟨exchanged, ?_⟩
    rw [patternOf, String.toList_ofList]
    exact (back ▸ String.ofList_toList).symm
  · rintro ⟨form, rfl⟩
    obtain ⟨exchanged, back⟩ :=
      form.exchange (show filterWildcard ≠ patternWildcard by decide) (by decide) rfl
    refine ⟨exchanged, ?_⟩
    rw [patternOf, String.toList_ofList]
    exact (back ▸ String.ofList_toList).symm

/-- Two patterns never share a filter. -/
theorem toFilter_injective {other : String} (translated : toFilter pattern = .ok filter)
    (same : toFilter other = .ok filter) : pattern = other := by
  rw [(toFilter_eq_ok_iff_form.mp translated).2, (toFilter_eq_ok_iff_form.mp same).2]

theorem checkPublish_of_passed (passed : check topic = .ok ()) :
    checkPublish topic =
      if patternWildcard ∈ topic.toList then .error .wildcardInTopic else .ok () := by
  simp only [checkPublish, passed, List.contains_iff_mem]
  rfl

theorem checkPublish_of_refused (refused : check topic = .error fault) :
    checkPublish topic = .error fault := by
  rw [checkPublish, refused]
  rfl

/-- A topic to publish to is a pattern without a wildcard. -/
theorem checkPublish_eq_ok_iff :
    checkPublish topic = .ok () ↔ WellFormed topic ∧ patternWildcard ∉ topic.toList := by
  cases result : check topic with
  | error fault =>
    rw [checkPublish_of_refused result]
    have faulty := (first_of_check result).applies
    exact ⟨nofun, fun accepted => absurd faulty (wellFormed_iff.mp accepted.1 fault)⟩
  | ok _ =>
    rw [checkPublish_of_passed result, wellFormed_of_passed result]
    by_cases member : patternWildcard ∈ topic.toList
    · rw [if_pos member]
      exact ⟨nofun, fun accepted => absurd member accepted.2⟩
    · rw [if_neg member]
      exact ⟨fun _ => ⟨.of_plain member, member⟩, fun _ => rfl⟩

theorem onWire_eq_self_iff {text : List Char} :
    onWire text = text ↔ text.getLast? ≠ some patternWildcard := by
  constructor
  · intro same last
    obtain ⟨before, rfl⟩ := List.getLast?_eq_some_iff.mp last
    rw [onWire_concat] at same
    exact absurd (List.append_cancel_left same) (by decide)
  · intro other
    exact if_neg other

theorem checkPublish_iff_toFilter : checkPublish topic = .ok () ↔ toFilter topic = .ok topic := by
  rw [checkPublish_eq_ok_iff, toFilter_eq_ok_iff]
  refine and_congr_right fun wellFormed => ?_
  rw [← String.toList_inj, String.toList_ofList, eq_comm, onWire_eq_self_iff]
  constructor
  · intro plain last
    exact plain (List.mem_of_getLast? last)
  · intro other member
    exact other (wellFormed.wildcard.last member)

/-- Translating and publishing have the common checks in common, and no fault besides. -/
theorem check_eq_error_iff : check topic = .error fault ↔
    toFilter topic = .error fault ∧ checkPublish topic = .error fault := by
  constructor
  · intro refused
    exact ⟨toFilter_of_refused refused, checkPublish_of_refused refused⟩
  · rintro ⟨untranslated, unpublished⟩
    cases result : check topic with
    | error other =>
      rw [toFilter_of_refused result] at untranslated
      rw [Except.error.inj untranslated]
    | ok _ =>
      have misplaced := eq_misplacedWildcard result (first_of_toFilter untranslated).applies
      rw [checkPublish_of_passed result, misplaced] at unpublished
      split at unpublished <;> cases unpublished

end Filters

end Topic

end Courier
