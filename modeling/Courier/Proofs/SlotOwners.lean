import Courier.Proofs.Contents
import Courier.Slots
import Mathlib.Data.Multiset.Count
import Mathlib.Data.Multiset.Dedup
import Mathlib.Data.Multiset.Range

/-! Shared ownership of slots. `Counts` compares a pool with the references to
its slots that are around outside: every operation trades in one reference, and
a slot goes back to the free ones exactly with its last one. -/
namespace Courier.Slots

variable {α : Type} {s t : Slots α} {refs : Multiset Nat} {slot other : Nat}

/-- The pool knows of these references, and free and taken slots are together
all slots there are. -/
structure Counts (s : Slots α) (refs : Multiset Nat) : Prop where
  partition : (s.free : Multiset Nat) + s.taken.keys = Multiset.range s.capacity
  owners : ∀ slot, s.owners slot = refs.count slot
  positive : ∀ slot h, s.taken.get? slot = some h → 0 < h.owners

theorem owners_insert (s : Slots α) (slot other : Nat) (h : Holding α) :
    ({ s with taken := s.taken.insert slot h } : Slots α).owners other =
      if slot = other then h.owners else s.owners other := by
  simp only [Slots.owners, Table.get?_insert]
  split <;> rfl

theorem value?_insert (s : Slots α) (slot other : Nat) (h : Holding α) :
    ({ s with taken := s.taken.insert slot h } : Slots α).value? other =
      if slot = other then some h.value else s.value? other := by
  simp only [value?, Table.get?_insert]
  split <;> rfl

theorem free_of_take {value : α} (took : s.take? value = some (slot, t)) :
    s.free = slot :: t.free := by
  unfold take? at took
  split at took
  · contradiction
  · rename_i free
    cases took
    exact free

theorem take?_eq_none_iff {value : α} : s.take? value = none ↔ s.free = [] := by
  unfold take?
  split
  · rename_i none
    exact iff_of_true rfl none
  · rename_i free
    rw [free]
    exact iff_of_false nofun nofun

theorem free_share (s : Slots α) (slot : Nat) : (s.share slot).free = s.free := by
  unfold share
  split <;> rfl

theorem owners_of_some {h : Holding α} (found : s.taken.get? slot = some h) :
    s.owners slot = h.owners := by
  simp only [Slots.owners, found, Option.map_some, Option.getD_some]

namespace Counts

theorem mem_iff (counts : s.Counts refs) : slot ∈ refs ↔ ∃ h, s.taken.get? slot = some h := by
  rw [← Multiset.count_pos, ← counts.owners]
  cases found : s.taken.get? slot with
  | none => simp [Slots.owners, found]
  | some h => simp [owners_of_some found, counts.positive slot h found]

theorem mem_keys_iff (counts : s.Counts refs) : slot ∈ s.taken.keys ↔ slot ∈ refs := by
  rw [Table.mem_keys, counts.mem_iff]

theorem distinct (counts : s.Counts refs) :
    ((s.free : Multiset Nat) + s.taken.keys).Nodup := by
  rw [counts.partition]
  exact Multiset.nodup_range _

theorem free_nodup (counts : s.Counts refs) : s.free.Nodup :=
  Multiset.coe_nodup.mp (Multiset.nodup_add.mp counts.distinct).1

theorem free_not_mem (counts : s.Counts refs) (free : slot ∈ s.free) : slot ∉ refs := by
  have apart := (Multiset.nodup_add.mp counts.distinct).2.2
  rw [← counts.mem_keys_iff]
  intro taken
  exact Multiset.disjoint_left.mp apart (Multiset.mem_coe.mpr free) (Multiset.mem_coe.mpr taken)

/-- A slot nothing refers to is free. -/
theorem mem_free_iff (counts : s.Counts refs) :
    slot ∈ s.free ↔ slot < s.capacity ∧ slot ∉ refs := by
  have all : slot ∈ s.free ∨ slot ∈ refs ↔ slot < s.capacity := by
    rw [← Multiset.mem_range, ← counts.partition, Multiset.mem_add, Multiset.mem_coe,
      Multiset.mem_coe, counts.mem_keys_iff]
  constructor
  · intro free
    exact ⟨all.mp (.inl free), counts.free_not_mem free⟩
  · rintro ⟨within, absent⟩
    exact (all.mpr within).resolve_right absent

theorem lt_capacity (counts : s.Counts refs) (held : slot ∈ refs) : slot < s.capacity := by
  rw [← Multiset.mem_range, ← counts.partition, Multiset.mem_add, Multiset.mem_coe,
    Multiset.mem_coe, counts.mem_keys_iff]
  exact .inr held

/-- Another number of owners, or another value, for a slot that stays taken. -/
theorem replace {h k : Holding α} {refs' : Multiset Nat} (counts : s.Counts refs)
    (found : s.taken.get? slot = some h) (positive : 0 < k.owners)
    (counted : ∀ other, refs'.count other = if slot = other then k.owners else refs.count other) :
    Counts { s with taken := s.taken.insert slot k } refs' := by
  refine ⟨?_, ?_, ?_⟩
  · have taken : slot ∈ s.taken.keys := Table.mem_keys.mpr ⟨h, found⟩
    simp only [Table.keys_insert, if_pos taken]
    exact counts.partition
  · intro other
    rw [owners_insert, counted, counts.owners]
  · intro other l held
    rw [Table.get?_insert] at held
    split at held
    · cases held
      exact positive
    · exact counts.positive other l held

theorem take {value : α} (counts : s.Counts refs) (took : s.take? value = some (slot, t)) :
    t.Counts (slot ::ₘ refs) ∧ slot ∈ s.free ∧ ∀ other, t.value? other =
      if slot = other then some value else s.value? other := by
  unfold take? at took
  split at took
  · contradiction
  · rename_i top rest free
    cases took
    have member : slot ∈ s.free := free ▸ List.mem_cons_self
    have absent : slot ∉ refs := counts.free_not_mem member
    have unkeyed : slot ∉ s.taken.keys := fun taken => absent (counts.mem_keys_iff.mp taken)
    refine ⟨⟨?_, ?_, ?_⟩, member, fun other => value?_insert s slot other _⟩
    · rw [← counts.partition, free]
      simp only [Table.keys_insert, if_neg unkeyed, Multiset.coe_add, ← List.append_assoc]
      exact Multiset.coe_eq_coe.mpr (List.perm_append_singleton slot (rest ++ s.taken.keys))
    · intro other
      change ({ s with taken := s.taken.insert slot ⟨1, value⟩ } : Slots α).owners other = _
      rw [owners_insert, Multiset.count_cons, ← counts.owners]
      by_cases same : slot = other
      · subst same
        have none : s.owners slot = 0 := by
          rw [counts.owners, Multiset.count_eq_zero]
          exact absent
        simp only [ite_true, none]
      · simp only [if_neg same, if_neg (Ne.symm same), Nat.add_zero]
    · intro other h held
      rw [Table.get?_insert] at held
      split at held
      · cases held
        exact Nat.one_pos
      · exact counts.positive other h held

theorem share (counts : s.Counts refs) (held : slot ∈ refs) :
    (s.share slot).Counts (slot ::ₘ refs) := by
  obtain ⟨h, found⟩ := counts.mem_iff.mp held
  simp only [Slots.share, found]
  refine counts.replace found (Nat.succ_pos _) ?_
  intro other
  rw [Multiset.count_cons, ← counts.owners]
  by_cases same : slot = other
  · subst same
    simp only [ite_true, owners_of_some found]
  · simp only [if_neg same, if_neg (Ne.symm same), Nat.add_zero]

theorem release (counts : s.Counts (slot ::ₘ refs)) : (s.release slot).Counts refs := by
  obtain ⟨h, found⟩ := counts.mem_iff.mp (Multiset.mem_cons_self slot refs)
  have owned : h.owners = refs.count slot + 1 := by
    rw [← owners_of_some found, counts.owners, Multiset.count_cons_self]
  have others : ∀ other, slot ≠ other → s.owners other = refs.count other := by
    intro other apart
    rw [counts.owners, Multiset.count_cons_of_ne (Ne.symm apart)]
  simp only [Slots.release, found]
  split
  · have gone : refs.count slot = 0 := by omega
    refine ⟨?_, ?_, ?_⟩
    · have taken : slot ∈ s.taken.keys := Table.mem_keys.mpr ⟨h, found⟩
      rw [← counts.partition]
      simp only [Table.keys_erase, ← Multiset.cons_coe, Multiset.cons_add]
      rw [← Multiset.add_cons, Multiset.cons_coe,
        Multiset.coe_eq_coe.mpr (List.perm_cons_erase taken).symm]
    · intro other
      simp only [Slots.owners, Table.get?_erase]
      by_cases same : slot = other
      · subst same
        simp only [ite_true, gone, Option.map_none, Option.getD_none]
      · simp only [if_neg same]
        exact others other same
    · intro other k held
      rw [Table.get?_erase] at held
      split at held
      · contradiction
      · exact counts.positive other k held
  · refine counts.replace found (by simp only; omega) ?_
    intro other
    by_cases same : slot = other
    · subst same
      simp only [ite_true]
      omega
    · simp only [if_neg same, Multiset.count_cons_of_ne (Ne.symm same)]

/-- A slot goes free with the last reference to it. -/
theorem free_release (counts : s.Counts (slot ::ₘ refs)) :
    (s.release slot).free = if slot ∈ refs then s.free else slot :: s.free := by
  obtain ⟨h, found⟩ := counts.mem_iff.mp (Multiset.mem_cons_self slot refs)
  have owned : h.owners = refs.count slot + 1 := by
    rw [← owners_of_some found, counts.owners, Multiset.count_cons_self]
  simp only [Slots.release, found]
  by_cases held : slot ∈ refs
  · have more : ¬h.owners ≤ 1 := by
      have := Multiset.count_pos.mpr held
      omega
    rw [if_neg more, if_pos held]
  · have last : h.owners ≤ 1 := by
      rw [owned, Multiset.count_eq_zero.mpr held]
    rw [if_pos last, if_neg held]

theorem releaseEach {slots : List Nat} (counts : s.Counts slots) :
    (slots.foldl Slots.release s).Counts 0 := by
  induction slots generalizing s with
  | nil => exact counts
  | cons slot rest ih => exact ih (release counts)

/-- A slot that is given back at once leaves the pool as it was, the order of the free ones
included. -/
theorem release_take {value : α} (counts : s.Counts refs)
    (took : s.take? value = some (slot, t)) : t.release slot = s := by
  unfold take? at took
  split at took
  · contradiction
  · rename_i top rest free
    cases took
    have absent : s.taken.get? slot = none := by
      rw [Option.eq_none_iff_forall_ne_some]
      intro h found
      have member : slot ∈ s.free := free ▸ List.mem_cons_self
      exact counts.free_not_mem member (counts.mem_iff.mpr ⟨h, found⟩)
    simp only [Slots.release, Table.get?_insert, if_true, Nat.le_refl,
      Table.erase_insert absent, ← free]

theorem update (counts : s.Counts refs) (f : α → α) : (s.update slot f).Counts refs := by
  unfold Slots.update
  split
  · exact counts
  · rename_i h found
    refine counts.replace found (counts.positive slot h found) ?_
    intro other
    split
    · rename_i same
      rw [← same, ← counts.owners, owners_of_some found]
    · rfl

/-- A slot that is still referred to after a release keeps its value. -/
theorem value?_release (counts : s.Counts (slot ::ₘ refs)) (held : other ∈ refs) :
    (s.release slot).value? other = s.value? other := by
  obtain ⟨h, found⟩ := counts.mem_iff.mp (Multiset.mem_cons_self slot refs)
  have owned : h.owners = refs.count slot + 1 := by
    rw [← owners_of_some found, counts.owners, Multiset.count_cons_self]
  simp only [Slots.release, found]
  split
  · have apart : slot ≠ other := by
      rintro rfl
      have := Multiset.count_pos.mpr held
      omega
    simp only [value?, Table.get?_erase, if_neg apart]
  · rw [value?_insert]
    split
    · rename_i same
      rw [← same, value?, found, Option.map_some]
    · rfl

/-- The slots that are referred to are those that are taken. -/
theorem keys_eq (counts : s.Counts refs) : (s.taken.keys : Multiset Nat) = refs.dedup := by
  have distinct : (s.taken.keys : Multiset Nat).Nodup :=
    Multiset.coe_nodup.mpr s.taken.keys_nodup
  rw [distinct.ext (Multiset.nodup_dedup refs)]
  intro slot
  rw [Multiset.mem_dedup, Multiset.mem_coe, counts.mem_keys_iff]

/-- As many slots are in use as are referred to. -/
theorem inUse_eq (counts : s.Counts refs) : s.inUse = refs.dedup.card := by
  have size := congrArg Multiset.card counts.partition
  rw [Multiset.card_add, counts.keys_eq, Multiset.coe_card, Multiset.card_range] at size
  unfold inUse
  omega

theorem free_add_inUse (counts : s.Counts refs) : s.free.length + s.inUse = s.capacity := by
  have size := congrArg Multiset.card counts.partition
  rw [Multiset.card_add, Multiset.coe_card, Multiset.coe_card, Multiset.card_range] at size
  unfold inUse
  omega

end Counts

/-- References need to be counted only slot by slot of the pool. -/
theorem counts_iff : s.Counts refs ↔
    (s.free : Multiset Nat) + s.taken.keys = Multiset.range s.capacity ∧
      (∀ slot ∈ refs, slot < s.capacity) ∧
      (∀ slot < s.capacity, s.owners slot = refs.count slot) ∧
      ∀ entry ∈ s.taken.entries, 0 < entry.2.owners := by
  constructor
  · intro counts
    refine ⟨counts.partition, fun _ => counts.lt_capacity, fun slot _ => counts.owners slot, ?_⟩
    intro entry member
    exact counts.positive entry.1 entry.2 (Table.get?_eq_some_iff.mpr member)
  · rintro ⟨partition, bounded, owners, positive⟩
    refine ⟨partition, ?_, fun slot h held =>
      positive (slot, h) (Table.get?_eq_some_iff.mp held)⟩
    intro slot
    by_cases within : slot < s.capacity
    · exact owners slot within
    · have absent : slot ∉ refs := fun member => within (bounded slot member)
      have untaken : slot ∉ s.taken.keys := by
        intro taken
        apply within
        rw [← Multiset.mem_range, ← partition, Multiset.mem_add]
        exact .inr (Multiset.mem_coe.mpr taken)
      rw [Multiset.count_eq_zero.mpr absent, Slots.owners, Table.get?_eq_none_iff.mpr untaken]
      rfl

instance : Decidable (s.Counts refs) := decidable_of_iff' _ counts_iff

theorem value?_share (s : Slots α) (slot other : Nat) :
    (s.share slot).value? other = s.value? other := by
  unfold share
  split
  · rfl
  · rename_i h found
    rw [value?_insert]
    split
    · rename_i same
      rw [← same, value?, found, Option.map_some]
    · rfl

theorem value?_update (s : Slots α) (slot other : Nat) (f : α → α) :
    (s.update slot f).value? other =
      if slot = other then (s.value? other).map f else s.value? other := by
  unfold update
  split
  · rename_i absent
    split
    · rename_i same
      simp only [value?, ← same, absent, Option.map_none]
    · rfl
  · rename_i h found
    rw [value?_insert]
    split
    · rename_i same
      simp only [value?, ← same, found, Option.map_some]
    · rfl

@[simp]
theorem capacity_share (s : Slots α) (slot : Nat) : (s.share slot).capacity = s.capacity := by
  unfold share
  split <;> rfl

@[simp]
theorem capacity_release (s : Slots α) (slot : Nat) : (s.release slot).capacity = s.capacity := by
  unfold release
  split
  · rfl
  · split <;> rfl

@[simp]
theorem capacity_update (s : Slots α) (slot : Nat) (f : α → α) :
    (s.update slot f).capacity = s.capacity := by
  unfold update
  split <;> rfl

theorem capacity_take {value : α} (took : s.take? value = some (slot, t)) :
    t.capacity = s.capacity := by
  unfold take? at took
  split at took
  · contradiction
  · cases took
    rfl

theorem capacity_ofCapacity {capacity : Nat} (created : ofCapacity? capacity = some s) :
    s.capacity = capacity := by
  unfold ofCapacity? at created
  split at created
  · contradiction
  · cases created
    rfl

theorem counts_ofCapacity {capacity : Nat} (created : ofCapacity? capacity = some s) :
    s.Counts 0 := by
  unfold ofCapacity? at created
  split at created
  · contradiction
  · cases created
    refine ⟨Multiset.add_zero _, fun _ => rfl, ?_⟩
    intro slot h held
    contradiction

end Courier.Slots
