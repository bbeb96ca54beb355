import Courier.Proofs.Insertions
import Courier.Proofs.Settings.Rules
import Courier.Settings.Load

/-! The loader that runs goes by the rules. Its entries are laid on one by one, so a value is
followed through the entries of its source, of which only one has a given name. -/
namespace Courier

namespace Layers

variable {l : Layers} {entries : List (String × Raw)} {entry : String × Raw} {name root : String}
  {below : Option Raw} {value raw : Raw}

theorem steps?_eq_nil {limit : Nat} {rest : List Char} (none : steps? limit rest = some []) :
    rest = [] := by
  unfold steps? at none
  split at none
  · contradiction
  · rfl
  · obtain ⟨_, _, none⟩ := Option.bind_eq_some_iff.mp none
    obtain ⟨_, _, none⟩ := Option.bind_eq_some_iff.mp none
    cases none
  · obtain ⟨_, _, none⟩ := Option.bind_eq_some_iff.mp none
    dsimp only at none
    split at none
    · obtain ⟨_, _, none⟩ := Option.bind_eq_some_iff.mp none
      cases none
    · contradiction
  · contradiction

/-- A path goes on with a point or a bracket. -/
theorem steps?_of_plain {limit : Nat} {c : Char} {rest : List Char} (no_point : c ≠ '.')
    (no_bracket : c ≠ '[') : steps? (limit + 1) (c :: rest) = none := by
  unfold steps?
  split
  · contradiction
  · contradiction
  next same => exact absurd (List.cons.inj same).1 no_point
  next same => exact absurd (List.cons.inj same).1 no_bracket
  · rfl

/-- A name that is no path stands for itself. -/
theorem eq_of_place (alone : place name = (root, none)) : root = name := by
  simp only [place] at alone
  split at alone
  · cases alone
    rfl
  next steps read =>
    split at alone
    · cases alone
      rfl
    · obtain ⟨rfl, last⟩ := Prod.mk.inj alone
      obtain rfl := List.head?_eq_none_iff.mp last
      have whole := List.takeWhile_append_dropWhile (p := isNameChar) (l := name.toList)
      rw [steps?_eq_nil read, List.append_nil] at whole
      rw [whole, String.ofList_toList]

theorem pathInto?_of_isPlain (plain : IsPlain name) : pathInto? name = none := by
  obtain ⟨no_point, no_bracket⟩ := plain
  cases behind : name.toList.dropWhile isNameChar with
  | nil =>
    have no_steps : steps? (([] : List Char).length + 1) [] = some [] := rfl
    simp only [pathInto?, place, behind, no_steps, List.head?_nil]
    by_cases empty : (name.toList.takeWhile isNameChar).isEmpty
    · rw [if_pos empty]
    · rw [if_neg empty]
  | cons c rest =>
    have member : c ∈ name.toList := (List.dropWhile_suffix _).mem (behind ▸ List.mem_cons_self)
    have no_steps : steps? ((c :: rest).length + 1) (c :: rest) = none :=
      steps?_of_plain (ne_of_mem_of_not_mem member no_point)
        (ne_of_mem_of_not_mem member no_bracket)
    simp only [pathInto?, place, behind, no_steps]

/-- A value that is not laid on a name itself or on a path into it leaves that as it is. -/
theorem get?_set_of_ne (other : entry.1 ≠ name) (apart : pathInto? entry.1 ≠ some name) :
    (l.set entry.1 entry.2).get? name = l.get? name := by
  rcases placed : place entry.1 with ⟨root, _ | step⟩
  · have itself := eq_of_place placed
    simp only [set, placed, itself, Table.get?_insert, if_neg other]
  · simp only [pathInto?, placed] at apart
    have free : root ≠ name := fun same => apart (congrArg some same)
    cases step <;> simp only [set, placed, Table.get?_insert, if_neg free]

theorem get?_set_self (alone : pathInto? name = none) :
    (l.set name value).get? name = some (laidOver (l.get? name) value) := by
  rcases placed : place name with ⟨root, _ | step⟩
  · have itself := eq_of_place placed
    simp only [set, placed, itself, Table.get?_insert, if_true]
  · simp only [pathInto?, placed, reduceCtorEq] at alone

/-- A path makes a table or an array of the name it starts with. -/
theorem get?_set_into {path : String} (into : pathInto? path = some name) (l : Layers)
    (value : Raw) : ∃ raw, (l.set path value).get? name = some raw ∧ raw.isCompound = true := by
  rcases placed : place path with ⟨root, _ | step⟩
  · simp only [pathInto?, placed, reduceCtorEq] at into
  · simp only [pathInto?, placed, Option.some.injEq] at into
    cases step with
    | key => exact ⟨.table false, by simp only [set, placed, into, Table.get?_insert, if_true], rfl⟩
    | index => exact ⟨.array, by simp only [set, placed, into, Table.get?_insert, if_true], rfl⟩

theorem get?_setEach_of_ne
    (apart : ∀ entry ∈ entries, entry.1 ≠ name ∧ pathInto? entry.1 ≠ some name) :
    (l.setEach entries).get? name = l.get? name := by
  induction entries generalizing l with
  | nil => rfl
  | cons entry rest ih =>
    obtain ⟨other, unled⟩ := apart entry List.mem_cons_self
    exact (ih fun later member => apart later (List.mem_cons_of_mem _ member)).trans
      (get?_set_of_ne other unled)

theorem setEach_middle {earlier later : List (String × Raw)} :
    l.setEach (earlier ++ entry :: later) =
      ((l.setEach earlier).set entry.1 entry.2).setEach later := by
  simp only [setEach, List.foldl_append, List.foldl_cons]

theorem laidOver_of_simple (simple : value.isCompound = false) : laidOver below value = value := by
  cases value with
  | table isEmpty => contradiction
  | _ => rfl

/-- The value laid on stays, or what it is laid over, or else they make a table or an array. -/
theorem laidOver_cases (raw value : Raw) :
    laidOver (some raw) value = value ∨ laidOver (some raw) value = raw ∨
      (laidOver (some raw) value).isCompound = true := by
  cases value with
  | table isEmpty =>
    cases raw <;> cases isEmpty <;> simp [laidOver, Raw.isCompound]
  | _ => exact .inl rfl

/-- A name has a value that its entries give it, or else is a table or an array. -/
def HasOwn (l : Layers) (name : String) (entries : List (String × Raw)) : Prop :=
  ∃ raw, l.get? name = some raw ∧ (raw.isCompound = true ∨ (name, raw) ∈ entries)

theorem HasOwn.set (alone : pathInto? name = none) (has : HasOwn l name entries)
    (member : entry ∈ entries) : HasOwn (l.set entry.1 entry.2) name entries := by
  obtain ⟨raw, found, own⟩ := has
  by_cases same : entry.1 = name
  · refine ⟨laidOver (some raw) entry.2, ?_, ?_⟩
    · rw [same, get?_set_self alone, found]
    · rcases laidOver_cases raw entry.2 with new | old | compound
      · rw [new, ← same]
        exact .inr member
      · rw [old]
        exact own
      · exact .inl compound
  · by_cases into : pathInto? entry.1 = some name
    · obtain ⟨raw, made, compound⟩ := get?_set_into into l entry.2
      exact ⟨raw, made, .inl compound⟩
    · exact ⟨raw, (get?_set_of_ne same into).trans found, own⟩

theorem HasOwn.setEach {later : List (String × Raw)} (alone : pathInto? name = none)
    (has : HasOwn l name entries) (members : later ⊆ entries) :
    HasOwn (l.setEach later) name entries := by
  induction later generalizing l with
  | nil => exact has
  | cons entry rest ih =>
    obtain ⟨member, members⟩ := List.cons_subset.mp members
    exact ih (has.set alone member) members

theorem laid_concat (sources : List Layers) (source : Layers) :
    laid (sources ++ [source]) = (laid sources).setEach source.entries := by
  simp only [laid, List.foldl_append, List.foldl_cons, List.foldl_nil]

end Layers

namespace Loader

open Layers (laid laid_concat)

variable {source : Layers} {name : String}

theorem leadsInto_standard_iff : standard.LeadsInto source name ↔
    ∃ entry ∈ source.entries, Layers.pathInto? entry.1 = some name := by
  constructor
  · rintro ⟨other, held, into⟩
    obtain ⟨raw, found⟩ := Option.isSome_iff_exists.mp held
    exact ⟨(other, raw), Table.get?_eq_some_iff.mp found, into⟩
  · rintro ⟨⟨other, raw⟩, member, into⟩
    exact ⟨other, Option.isSome_of_eq_some (Table.get?_eq_some_iff.mpr member), into⟩

theorem pathInto?_ne_of_not_leadsInto (unled : ¬standard.LeadsInto source name) :
    ∀ entry ∈ source.entries, Layers.pathInto? entry.1 ≠ some name :=
  fun entry member into => unled (leadsInto_standard_iff.mpr ⟨entry, member, into⟩)

theorem standard_passed {sources : List Layers} (absent : source.get? name = none)
    (unled : ¬standard.LeadsInto source name) :
    (laid (sources ++ [source])).get? name = (laid sources).get? name := by
  rw [laid_concat]
  refine Layers.get?_setEach_of_ne fun entry member =>
    ⟨?_, pathInto?_ne_of_not_leadsInto unled entry member⟩
  rintro rfl
  rw [Table.get?_eq_some_iff.mpr member] at absent
  contradiction

theorem standard_placed {sources : List Layers} {raw : Raw} (alone : Layers.pathInto? name = none)
    (found : source.get? name = some raw) (unled : ¬standard.LeadsInto source name)
    (takes : (laid sources).get? name = none ∨ raw.isCompound = false) :
    (laid (sources ++ [source])).get? name = some raw := by
  have apart := pathInto?_ne_of_not_leadsInto unled
  have distinct := source.keys_nodup
  obtain ⟨earlier, later, split⟩ := List.append_of_mem (Table.get?_eq_some_iff.mp found)
  rw [split] at apart distinct
  rw [List.map_append, List.map_cons, List.nodup_middle, List.nodup_cons] at distinct
  have others : ∀ entry ∈ earlier ++ later, entry.1 ≠ name := by
    rw [← List.map_append] at distinct
    rintro entry member rfl
    exact distinct.1 (List.mem_map.mpr ⟨entry, member, rfl⟩)
  -- The entry of the name meets what was below, and stays.
  rw [laid_concat, split, Layers.setEach_middle]
  refine (Layers.get?_setEach_of_ne fun entry member =>
    ⟨others entry (List.mem_append_right _ member),
      apart entry (List.mem_append_right _ (List.mem_cons_of_mem _ member))⟩).trans ?_
  have before : ((laid sources).setEach earlier).get? name = (laid sources).get? name :=
    Layers.get?_setEach_of_ne fun entry member =>
      ⟨others entry (List.mem_append_left _ member), apart entry (List.mem_append_left _ member)⟩
  refine (Layers.get?_set_self alone).trans (congrArg some ?_)
  refine (congrArg (Layers.laidOver · raw) before).trans ?_
  rcases takes with free | simple
  · rw [free]
    cases raw <;> rfl
  · exact Layers.laidOver_of_simple simple

theorem standard_led {sources : List Layers} (alone : Layers.pathInto? name = none)
    (led : standard.LeadsInto source name) :
    ∃ raw, (laid (sources ++ [source])).get? name = some raw ∧
      (raw.isCompound = true ∨ source.get? name = some raw) := by
  obtain ⟨entry, member, into⟩ := leadsInto_standard_iff.mp led
  obtain ⟨earlier, later, split⟩ := List.append_of_mem member
  have has : Layers.HasOwn (laid (sources ++ [source])) name source.entries := by
    rw [laid_concat, split, Layers.setEach_middle, ← split]
    obtain ⟨raw, made, compound⟩ :=
      Layers.get?_set_into into ((laid sources).setEach earlier) entry.2
    refine Layers.HasOwn.setEach alone ⟨raw, made, .inl compound⟩ ?_
    rw [split]
    exact List.subset_append_of_subset_right _ (List.subset_cons_self _ _)
  obtain ⟨raw, found, own⟩ := has
  exact ⟨raw, found, own.imp_right Table.get?_eq_some_iff.mpr⟩

theorem lays_standard : standard.Lays where
  plain _ := Layers.pathInto?_of_isPlain
  bare _ := rfl
  passed _ _ _ := standard_passed
  placed _ _ _ _ := standard_placed
  led _ _ _ := standard_led

def said? (start : String) (guessing : Bool) (v : String × String) : Option (String × Raw) :=
  (Layers.nameUnder? start v.1).map (·, if guessing then Raw.guess v.2 else .text v.2)

variable {start : String} {guessing : Bool} {environment : List (String × String)}

theorem ofVariables_eq : Layers.ofVariables start guessing environment =
    Table.insertEach ∅ (environment.filterMap (said? start guessing)) := by
  rw [Table.insertEach, List.foldl_filterMap, Layers.ofVariables]
  congr
  funext l v
  rw [said?]
  cases Layers.nameUnder? start v.1 <;> rfl

theorem mem_filterMap_said? {raw : Raw} :
    (name, raw) ∈ environment.filterMap (said? start guessing) ↔
      ∃ v ∈ environment, Layers.nameUnder? start v.1 = some name ∧
        (if guessing then Raw.guess v.2 else .text v.2) = raw := by
  rw [List.mem_filterMap]
  refine exists_congr fun v => and_congr_right fun _ => ?_
  unfold said?
  rw [Option.map_eq_some_iff]
  constructor
  · rintro ⟨_, named, same⟩
    cases same
    exact ⟨named, rfl⟩
  · rintro ⟨named, rfl⟩
    exact ⟨name, named, rfl⟩

theorem standard_given {v : String × String} (member : v ∈ environment)
    (named : Layers.nameUnder? start v.1 = some name)
    (only : ∀ w ∈ environment, Layers.nameUnder? start w.1 = some name → w = v) :
    (Layers.ofVariables start true environment).get? name = some (Raw.guess v.2) := by
  have present : name ∈ (environment.filterMap (said? start true)).map Prod.fst :=
    List.mem_map.mpr ⟨(name, _), mem_filterMap_said?.mpr ⟨v, member, named, rfl⟩, rfl⟩
  obtain ⟨raw, held, found⟩ := Table.get?_insertEach_of_present (t := ∅) present
  obtain ⟨w, member, named, rfl⟩ := mem_filterMap_said?.mp held
  rw [ofVariables_eq, found, only w member named]
  rfl

theorem standard_absent (absent : ∀ v ∈ environment, Layers.nameUnder? start v.1 ≠ some name) :
    (Layers.ofVariables start guessing environment).get? name = none := by
  rw [ofVariables_eq]
  refine (Table.get?_insertEach_of_absent ?_).trans (Table.get?_empty _)
  intro present
  obtain ⟨⟨_, _⟩, held, rfl⟩ := List.mem_map.mp present
  obtain ⟨v, member, named, _⟩ := mem_filterMap_said?.mp held
  exact absent v member named

theorem nameUnder?_append (start name : String) :
    Layers.nameUnder? start (start ++ "_" ++ name) = some (Raw.lowered name) := by
  have lowered : (start ++ "_" ++ name).toList.map Raw.lower =
      (start.toList.map Raw.lower ++ ['_']) ++ name.toList.map Raw.lower := by
    rw [String.toList_append, String.toList_append, List.map_append, List.map_append]
    rfl
  unfold Layers.nameUnder?
  dsimp only
  rw [lowered, if_pos (List.isPrefixOf_iff_prefix.mpr (List.prefix_append _ _)),
    List.drop_left' rfl]
  rfl

theorem prefix_of_nameUnder? (named : (Layers.nameUnder? start name).isSome) :
    (start ++ "_").toList.map Raw.lower <+: name.toList.map Raw.lower := by
  unfold Layers.nameUnder? at named
  dsimp only at named
  split at named
  next begins =>
    rw [String.toList_append, List.map_append]
    exact List.isPrefixOf_iff_prefix.mp begins
  · contradiction

theorem names_standard : standard.Names where
  simple start name _ _ := nameUnder?_append start name
  started _ _ _ := prefix_of_nameUnder?
  given _ _ _ _ := standard_given
  absent _ _ _ _ := standard_absent

theorem guess_of_not_isTruth {s : String} (truth : ¬Raw.IsTruth s) :
    Raw.guess s = (Raw.readInteger? s.toList).elim
      ((Binary64.read? s.toList).elim (.text s) .float) .integer := by
  obtain ⟨no_true, no_false⟩ := not_or.mp truth
  rw [Raw.guess, if_neg no_true, if_neg no_false]
  cases Raw.readInteger? s.toList <;> cases Binary64.read? s.toList <;> rfl

theorem guesses_standard : standard.Guesses where
  truth s b same := by
    show Raw.guess s = _
    unfold Raw.guess
    rw [same]
    cases b <;> rfl
  integer s n truth whole := by
    refine (guess_of_not_isTruth truth).trans ?_
    rw [whole]
    rfl
  float s x truth whole read := by
    refine (guess_of_not_isTruth truth).trans ?_
    rw [whole, read]
    rfl
  text s text := by
    obtain ⟨truth, whole, read⟩ := text
    refine (guess_of_not_isTruth truth).trans ?_
    rw [whole, read]
    rfl

theorem converts_standard : standard.Converts where
  boolean _ := rfl
  integer _ := rfl
  float _ := rfl
  text _ := rfl
  compound raw compound := by
    cases raw with
    | array => exact ⟨rfl, rfl⟩
    | table _ => exact ⟨rfl, rfl⟩
    | _ => contradiction

theorem documented_standard : standard.Documented where
  names := names_standard
  lays := lays_standard
  guesses := guesses_standard
  converts := converts_standard

end Loader

end Courier
