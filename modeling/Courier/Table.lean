/-! Finite maps kept as a list of entries with distinct keys. The list order is
the order in which the map is enumerated: a new key goes last, a key that is
already there keeps its place. Every law below is stated of `get?`, so nothing
that follows depends on that order unless it enumerates. -/
namespace Courier

structure Table (κ α : Type) where
  entries : List (κ × α)
  keys_nodup : (entries.map Prod.fst).Nodup

namespace Table

variable {κ α : Type} [DecidableEq κ]

/-- The value under a key in a list of entries; the first entry wins. -/
def find (k : κ) : List (κ × α) → Option α
  | [] => none
  | (k', a) :: rest => if k' = k then some a else find k rest

/-- Replaces the value under a key in place, or appends a new entry. -/
def put (k : κ) (a : α) : List (κ × α) → List (κ × α)
  | [] => [(k, a)]
  | (k', b) :: rest => if k' = k then (k, a) :: rest else (k', b) :: put k a rest

theorem map_fst_put (k : κ) (a : α) (l : List (κ × α)) :
    (put k a l).map Prod.fst =
      if k ∈ l.map Prod.fst then l.map Prod.fst else l.map Prod.fst ++ [k] := by
  induction l with
  | nil => rfl
  | cons e rest ih =>
    obtain ⟨k', b⟩ := e
    by_cases h : k' = k
    · subst h
      simp [put]
    · by_cases hm : k ∈ rest.map Prod.fst
      · simp only [put, if_neg h, List.map_cons, ih, List.mem_cons, hm, or_true,
          ite_true]
      · have hk : ¬(k = k' ∨ k ∈ rest.map Prod.fst) := by
          rintro (rfl | hk)
          · exact h rfl
          · exact hm hk
        simp only [put, if_neg h, List.map_cons, ih, if_neg hm, List.mem_cons, if_neg hk,
          List.cons_append]

theorem put_nodup (k : κ) (a : α) {l : List (κ × α)} (h : (l.map Prod.fst).Nodup) :
    ((put k a l).map Prod.fst).Nodup := by
  rw [map_fst_put]
  split
  · exact h
  · rw [List.nodup_append]
    refine ⟨h, by simp, ?_⟩
    intro x hx y hy
    rw [List.mem_singleton] at hy
    subst hy
    intro hxy
    subst hxy
    contradiction

def empty : Table κ α := ⟨[], List.nodup_nil⟩

instance : EmptyCollection (Table κ α) := ⟨empty⟩

def get? (t : Table κ α) (k : κ) : Option α := find k t.entries

def contains (t : Table κ α) (k : κ) : Bool := (t.get? k).isSome

def size (t : Table κ α) : Nat := t.entries.length

def isEmpty (t : Table κ α) : Bool := t.entries.isEmpty

def keys (t : Table κ α) : List κ := t.entries.map Prod.fst

def values (t : Table κ α) : List α := t.entries.map Prod.snd

def insert (t : Table κ α) (k : κ) (a : α) : Table κ α :=
  ⟨put k a t.entries, put_nodup k a t.keys_nodup⟩

/-- The entries that satisfy a test, in the same order. -/
def retain (t : Table κ α) (p : κ → α → Bool) : Table κ α :=
  ⟨t.entries.filter fun e => p e.1 e.2, t.keys_nodup.sublist (List.filter_sublist.map _)⟩

def erase (t : Table κ α) (k : κ) : Table κ α := t.retain fun k' _ => k' ≠ k

/-- Puts back what was under a key before: a value, or nothing. -/
def restore (t : Table κ α) (k : κ) : Option α → Table κ α
  | some a => t.insert k a
  | none => t.erase k

theorem find_put (k j : κ) (a : α) (l : List (κ × α)) :
    find j (put k a l) = if k = j then some a else find j l := by
  induction l with
  | nil => simp [put, find]
  | cons e rest ih =>
    obtain ⟨k', b⟩ := e
    by_cases h : k' = k
    · subst h
      by_cases hj : k' = j <;> simp [put, find, hj]
    · by_cases hj : k' = j
      · subst hj
        have hk : ¬k = k' := fun e => h e.symm
        simp [put, find, h, hk]
      · simp only [put, if_neg h, find, if_neg hj, ih]

@[simp]
theorem get?_insert (t : Table κ α) (k j : κ) (a : α) :
    (t.insert k a).get? j = if k = j then some a else t.get? j :=
  find_put k j a t.entries

theorem find_filter_ne (k j : κ) (l : List (κ × α)) :
    find j (l.filter fun e => e.1 ≠ k) = if k = j then none else find j l := by
  induction l with
  | nil => simp [find]
  | cons e rest ih =>
    obtain ⟨k', b⟩ := e
    by_cases h : k' = k
    · subst h
      by_cases hj : k' = j <;> simp_all [find]
    · by_cases hj : k' = j
      · subst hj
        have hk : ¬k = k' := fun e => h e.symm
        simp [find, h, hk]
      · simp_all [find]

@[simp]
theorem get?_erase (t : Table κ α) (k j : κ) :
    (t.erase k).get? j = if k = j then none else t.get? j :=
  find_filter_ne k j t.entries

@[simp]
theorem get?_empty (k : κ) : (∅ : Table κ α).get? k = none := rfl

theorem find_eq_some_iff {l : List (κ × α)} (h : (l.map Prod.fst).Nodup) (k : κ) (a : α) :
    find k l = some a ↔ (k, a) ∈ l := by
  induction l with
  | nil => simp [find]
  | cons e rest ih =>
    obtain ⟨k', b⟩ := e
    rw [List.map_cons, List.nodup_cons] at h
    by_cases hk : k' = k
    · subst hk
      simp only [find, ite_true, Option.some.injEq, List.mem_cons, Prod.mk.injEq, true_and]
      constructor
      · intro e
        exact .inl e.symm
      · rintro (e | hm)
        · exact e.symm
        · exact absurd (List.mem_map_of_mem hm) h.1
    · have hk' : ¬k = k' := fun e => hk e.symm
      simp only [find, if_neg hk, ih h.2, List.mem_cons, Prod.mk.injEq, hk', false_and, false_or]

theorem get?_eq_some_iff {t : Table κ α} {k : κ} {a : α} :
    t.get? k = some a ↔ (k, a) ∈ t.entries :=
  find_eq_some_iff t.keys_nodup k a

end Table

end Courier
