import Courier.Table
import Mathlib.Data.Multiset.Filter
import Mathlib.Data.Multiset.UnionInter

/-! The values of a table counted with multiplicity. Every change of a table
trades one value for another; the two sides of each law are the same collection. -/
namespace Courier.Table

variable {κ α : Type}

def contents (t : Table κ α) : Multiset α := t.values

theorem card_contents (t : Table κ α) : t.contents.card = t.size := by
  simp only [contents, values, Multiset.coe_card, List.length_map, size]

theorem contents_retain (t : Table κ α) (p : α → Bool) :
    (t.retain fun _ a => p a).contents = t.contents.filter (p · = true) := by
  simp only [contents, values, retain, Multiset.filter_coe, List.filter_map, Bool.decide_eq_true]
  rfl

theorem retain_of_all {t : Table κ α} {p : κ → α → Bool}
    (all : ∀ entry ∈ t.entries, p entry.1 entry.2 = true) : t.retain p = t := by
  simp only [retain, List.filter_eq_self.mpr all]

theorem size_retain_le (t : Table κ α) (keep : κ → α → Bool) : (t.retain keep).size ≤ t.size :=
  List.length_filter_le _ _

variable [DecidableEq κ]

theorem put_contents (k : κ) (a : α) (l : List (κ × α)) :
    (((put k a l).map Prod.snd : List α) : Multiset α) + (find k l).toList =
      a ::ₘ (l.map Prod.snd : List α) := by
  induction l with
  | nil => rfl
  | cons entry rest ih =>
    obtain ⟨j, b⟩ := entry
    by_cases same : j = k
    · simp only [put, find, if_pos same, List.map_cons, ← Multiset.cons_coe, Option.toList_some,
        Multiset.coe_nil, Multiset.cons_zero, Multiset.cons_add]
      rw [Multiset.add_comm, Multiset.singleton_add]
    · simp only [put, find, if_neg same, List.map_cons, ← Multiset.cons_coe, Multiset.cons_add, ih]
      exact Multiset.cons_swap _ _ _

theorem contents_insert (t : Table κ α) (k : κ) (a : α) :
    (t.insert k a).contents + (t.get? k).toList = a ::ₘ t.contents :=
  put_contents k a t.entries

theorem contents_insert_of_none {t : Table κ α} {k : κ} (absent : t.get? k = none) (a : α) :
    (t.insert k a).contents = a ::ₘ t.contents := by
  simpa only [absent, Option.toList_none, Multiset.coe_nil, Multiset.add_zero] using
    t.contents_insert k a

theorem filter_contents (k : κ) {l : List (κ × α)} (distinct : (l.map Prod.fst).Nodup) :
    ((((l.filter fun e => e.1 ≠ k).map Prod.snd : List α) : Multiset α)) + (find k l).toList =
      (l.map Prod.snd : List α) := by
  induction l with
  | nil => rfl
  | cons entry rest ih =>
    obtain ⟨j, b⟩ := entry
    rw [List.map_cons, List.nodup_cons] at distinct
    by_cases same : j = k
    · subst same
      have others : (rest.filter fun e => e.1 ≠ j) = rest := by
        rw [List.filter_eq_self]
        intro e member
        exact decide_eq_true fun eq => distinct.1 (List.mem_map.mpr ⟨e, member, eq⟩)
      have dropped : (((j, b) :: rest).filter fun e => e.1 ≠ j) = rest := by
        rw [List.filter_cons_of_neg (by simp), others]
      rw [dropped]
      simp only [find, if_pos, Option.toList_some, List.map_cons, ← Multiset.cons_coe,
        Multiset.coe_nil, Multiset.cons_zero]
      rw [Multiset.add_comm, Multiset.singleton_add]
    · rw [List.filter_cons_of_pos (by simpa using same)]
      simp only [find, if_neg same, List.map_cons, ← Multiset.cons_coe, Multiset.cons_add,
        ih distinct.2]

theorem contents_erase (t : Table κ α) (k : κ) :
    (t.erase k).contents + (t.get? k).toList = t.contents :=
  filter_contents k t.keys_nodup

theorem contents_erase_of_some {t : Table κ α} {k : κ} {a : α} (found : t.get? k = some a) :
    t.contents = a ::ₘ (t.erase k).contents := by
  have split := t.contents_erase k
  rw [found] at split
  rw [← split, Multiset.add_comm]
  rfl

theorem size_insert_le (t : Table κ α) (k : κ) (a : α) : (t.insert k a).size ≤ t.size + 1 := by
  have traded := congrArg Multiset.card (t.contents_insert k a)
  rw [Multiset.card_add, Multiset.card_cons, card_contents, card_contents] at traded
  omega

theorem size_erase_of_some {t : Table κ α} {k : κ} {a : α} (found : t.get? k = some a) :
    t.size = (t.erase k).size + 1 := by
  have split := congrArg Multiset.card (contents_erase_of_some found)
  rwa [Multiset.card_cons, card_contents, card_contents] at split

theorem mem_contents {t : Table κ α} {a : α} : a ∈ t.contents ↔ ∃ k, t.get? k = some a := by
  simp only [contents, values, Multiset.mem_coe, List.mem_map, get?_eq_some_iff, Prod.exists,
    exists_eq_right]

theorem get?_of_erase {t : Table κ α} {k j : κ} {a : α} (kept : (t.erase k).get? j = some a) :
    t.get? j = some a := by
  rw [get?_erase] at kept
  split at kept
  · contradiction
  · exact kept

/-- Every value but the one that is taken out keeps its key. -/
theorem get?_erase_of_ne {t : Table κ α} {k : κ} {a b : α} (found : t.get? k = some a)
    (other : b ≠ a) (j : κ) : (t.erase k).get? j = some b ↔ t.get? j = some b := by
  refine ⟨get?_of_erase, fun kept => ?_⟩
  have apart : k ≠ j := by
    rintro rfl
    exact other (Option.some.inj (kept.symm.trans found))
  rw [get?_erase, if_neg apart, kept]

/-- Where all values differ in some respect, those under different keys do. -/
theorem apart_of_distinct {β : Type} {t : Table κ α} {f : α → β}
    (distinct : (t.contents.map f).Nodup) {k j : κ} (apart : k ≠ j) {a b : α}
    (first : t.get? k = some a) (second : t.get? j = some b) : f a ≠ f b := by
  rw [contents_erase_of_some first, Multiset.map_cons, Multiset.nodup_cons] at distinct
  intro same
  refine distinct.1 (same ▸ Multiset.mem_map_of_mem f ?_)
  exact mem_contents.mpr ⟨j, by rw [get?_erase, if_neg apart, second]⟩

theorem get?_retain {t : Table κ α} {p : κ → α → Bool} {k : κ} {a : α} :
    (t.retain p).get? k = some a ↔ t.get? k = some a ∧ p k a = true := by
  simp only [get?_eq_some_iff, retain, List.mem_filter]

theorem mem_keys {t : Table κ α} {k : κ} : k ∈ t.keys ↔ ∃ a, t.get? k = some a := by
  simp only [keys, List.mem_map, get?_eq_some_iff, Prod.exists, exists_and_right, exists_eq_right]

theorem get?_eq_none_iff {t : Table κ α} {k : κ} : t.get? k = none ↔ k ∉ t.keys := by
  rw [mem_keys, Option.eq_none_iff_forall_ne_some, not_exists]

theorem keys_insert (t : Table κ α) (k : κ) (a : α) :
    (t.insert k a).keys = if k ∈ t.keys then t.keys else t.keys ++ [k] :=
  map_fst_put k a t.entries

theorem keys_erase (t : Table κ α) (k : κ) : (t.erase k).keys = t.keys.erase k := by
  have distinct : t.keys.Nodup := t.keys_nodup
  rw [distinct.erase_eq_filter]
  simp only [erase, retain, keys, List.filter_map]
  refine congrArg (List.map Prod.fst) (List.filter_congr ?_)
  intro entry _
  simp only [Function.comp_apply, bne, ne_eq, decide_not, beq_eq_decide]

theorem filter_put {k : κ} (a : α) {l : List (κ × α)} (absent : find k l = none) :
    (put k a l).filter (fun e => e.1 ≠ k) = l := by
  induction l with
  | nil => simp [put]
  | cons entry rest ih =>
    obtain ⟨j, b⟩ := entry
    by_cases same : j = k
    · simp [find, same] at absent
    · rw [find, if_neg same] at absent
      rw [put, if_neg same, List.filter_cons_of_pos (by simpa using same), ih absent]

/-- A new entry that is taken out again leaves the table as it was. -/
theorem erase_insert {t : Table κ α} {k : κ} (absent : t.get? k = none) (a : α) :
    (t.insert k a).erase k = t := by
  simp only [erase, retain, insert, filter_put a absent]

end Courier.Table
