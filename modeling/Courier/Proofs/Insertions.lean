import Courier.Proofs.Contents

/-! Entries put into a table one after the other. A later entry takes the place of an
earlier one under the same key; entries under different keys may come in any order. -/
namespace Courier.Table

variable {κ α : Type} [DecidableEq κ] {t u : Table κ α} {l l' : List (κ × α)} {k j : κ} {a : α}

def insertEach (t : Table κ α) (l : List (κ × α)) : Table κ α :=
  l.foldl (fun t entry => t.insert entry.1 entry.2) t

theorem insertEach_append (t : Table κ α) (l l' : List (κ × α)) :
    t.insertEach (l ++ l') = (t.insertEach l).insertEach l' :=
  List.foldl_append

theorem get?_insertEach_of_absent (absent : k ∉ l.map Prod.fst) :
    (t.insertEach l).get? k = t.get? k := by
  induction l generalizing t with
  | nil => rfl
  | cons entry rest ih =>
    obtain ⟨apart, absent⟩ := not_or.mp (mt List.mem_cons.mpr absent)
    exact (ih absent).trans ((t.get?_insert _ _ _).trans (if_neg (Ne.symm apart)))

/-- The last entry under a key is the one that is found. -/
theorem get?_insertEach_last (last : k ∉ l'.map Prod.fst) :
    (t.insertEach (l ++ (k, a) :: l')).get? k = some a := by
  rw [insertEach_append]
  exact (get?_insertEach_of_absent last).trans ((get?_insert _ _ _ _).trans (if_pos rfl))

theorem get?_insertEach_of_present (present : k ∈ l.map Prod.fst) :
    ∃ a, (k, a) ∈ l ∧ (t.insertEach l).get? k = some a := by
  induction l generalizing t with
  | nil => contradiction
  | cons entry rest ih =>
    by_cases later : k ∈ rest.map Prod.fst
    · obtain ⟨a, member, found⟩ := ih later
      exact ⟨a, List.mem_cons_of_mem _ member, found⟩
    · obtain rfl := (List.mem_cons.mp present).resolve_right later
      exact ⟨entry.2, List.mem_cons_self, get?_insertEach_last (l := []) later⟩

theorem exists_last_entry (present : k ∈ l.map Prod.fst) :
    ∃ earlier a later, l = earlier ++ (k, a) :: later ∧ k ∉ later.map Prod.fst := by
  induction l with
  | nil => contradiction
  | cons entry rest ih =>
    by_cases behind : k ∈ rest.map Prod.fst
    · obtain ⟨earlier, a, later, rfl, last⟩ := ih behind
      exact ⟨entry :: earlier, a, later, rfl, last⟩
    · obtain rfl := (List.mem_cons.mp present).resolve_right behind
      exact ⟨[], entry.2, rest, rfl, behind⟩

/-- What is found was put in, or was there before. -/
theorem mem_of_get?_insertEach (found : (t.insertEach l).get? k = some a) :
    (k, a) ∈ l ∨ t.get? k = some a := by
  by_cases present : k ∈ l.map Prod.fst
  · obtain ⟨b, member, last⟩ := get?_insertEach_of_present (t := t) present
    cases found.symm.trans last
    exact .inl member
  · rw [get?_insertEach_of_absent present] at found
    exact .inr found

theorem get?_insertEach_iff (distinct : (l.map Prod.fst).Nodup) :
    (t.insertEach l).get? k = some a ↔
      (k, a) ∈ l ∨ k ∉ l.map Prod.fst ∧ t.get? k = some a := by
  by_cases present : k ∈ l.map Prod.fst
  · obtain ⟨b, member, found⟩ := get?_insertEach_of_present (t := t) present
    rw [found]
    constructor
    · intro same
      cases same
      exact .inl member
    · rintro (again | ⟨absent, _⟩)
      · cases List.inj_on_of_nodup_map distinct member again rfl
        rfl
      · exact absurd present absent
  · rw [get?_insertEach_of_absent present]
    constructor
    · exact fun found => .inr ⟨present, found⟩
    · rintro (member | ⟨_, found⟩)
      · exact absurd (List.mem_map_of_mem (f := Prod.fst) member) present
      · exact found

/-- Entries under keys that were free are added to those there are. -/
theorem get?_insertEach_of_free (distinct : (l.map Prod.fst).Nodup)
    (free : ∀ k ∈ l.map Prod.fst, t.get? k = none) :
    (t.insertEach l).get? k = some a ↔ t.get? k = some a ∨ (k, a) ∈ l := by
  rw [get?_insertEach_iff distinct]
  constructor
  · rintro (member | ⟨_, found⟩)
    · exact .inr member
    · exact .inl found
  · rintro (found | member)
    · refine .inr ⟨fun key => ?_, found⟩
      rw [free k key] at found
      contradiction
    · exact .inl member

/-- Entries under different keys may be put in in any order. -/
theorem get?_insertEach_perm (same : l.Perm l') (distinct : (l.map Prod.fst).Nodup) :
    (t.insertEach l).get? k = (t.insertEach l').get? k := by
  have keys : (l.map Prod.fst).Perm (l'.map Prod.fst) := same.map _
  refine Option.ext fun a => ?_
  rw [get?_insertEach_iff distinct, get?_insertEach_iff (keys.nodup_iff.mp distinct),
    same.mem_iff, keys.mem_iff]

theorem get?_insertEach_congr (same : ∀ k, t.get? k = u.get? k) (k : κ) :
    (t.insertEach l).get? k = (u.insertEach l).get? k := by
  induction l generalizing t u with
  | nil => exact same k
  | cons entry rest ih =>
    apply ih
    intro j
    rw [get?_insert, get?_insert, same]

/-- An entry under a key nothing is put in under may be taken out first. -/
theorem get?_insertEach_erase (absent : k ∉ l.map Prod.fst) (j : κ) :
    ((t.insertEach l).erase k).get? j = ((t.erase k).insertEach l).get? j := by
  by_cases same : k = j
  · subst same
    rw [get?_insertEach_of_absent absent, get?_erase, get?_erase, if_pos rfl, if_pos rfl]
  · rw [get?_erase, if_neg same]
    induction l generalizing t with
    | nil => exact ((get?_erase _ _ _).trans (if_neg same)).symm
    | cons entry rest ih =>
      obtain ⟨apart, absent⟩ := not_or.mp (mt List.mem_cons.mpr absent)
      refine (ih absent).trans (get?_insertEach_congr ?_ j)
      intro i
      simp only [get?_erase, get?_insert]
      by_cases hit : k = i
      · have other : entry.1 ≠ i := fun eq => apart (hit.trans eq.symm)
        rw [if_pos hit, if_neg other, if_pos hit]
      · rw [if_neg hit, if_neg hit]

/-- The same entries, in whatever order. -/
theorem entries_perm (same : ∀ k, t.get? k = u.get? k) : t.entries.Perm u.entries := by
  rw [List.perm_ext_iff_of_nodup (.of_map _ t.keys_nodup) (.of_map _ u.keys_nodup)]
  rintro ⟨k, a⟩
  rw [← get?_eq_some_iff, ← get?_eq_some_iff, same]

theorem get?_of_perm (same : t.entries.Perm u.entries) (k : κ) : t.get? k = u.get? k := by
  refine Option.ext fun a => ?_
  rw [get?_eq_some_iff, get?_eq_some_iff, same.mem_iff]

theorem contents_congr (same : ∀ k, t.get? k = u.get? k) : t.contents = u.contents :=
  Multiset.coe_eq_coe.mpr ((entries_perm same).map _)

theorem size_congr (same : ∀ k, t.get? k = u.get? k) : t.size = u.size :=
  (entries_perm same).length_eq

end Courier.Table
