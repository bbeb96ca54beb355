import Courier.Proofs.SlotOwners
import Courier.Proofs.SlotRecord

/-! The history of a pool of slots: a desk that hands them out agrees at every moment with the
record of what it was asked and what it answered. -/
namespace Courier

namespace Rehearsal

namespace SlotDesk

variable {d : SlotDesk} {r : SlotRecord} {o : Owner} {capacity handle slot : Nat}

structure Kept (capacity : Nat) (d : SlotDesk) (r : SlotRecord) : Prop where
  size : d.slots.capacity = capacity
  sound : r.Sound d.nextHandle
  handles : ∀ handle slot, d.handles.get? handle = some slot ↔
    ∃ o ∈ r.owners, o.handle = handle ∧ o.slot = slot
  counts : d.slots.Counts (r.owners.map Owner.slot)
  order : d.slots.free = SlotEvent.free capacity r.events

namespace Kept

theorem found (kept : d.Kept capacity r) (member : o ∈ r.owners) :
    d.handles.get? o.handle = some o.slot :=
  (kept.handles o.handle o.slot).mpr ⟨o, member, rfl, rfl⟩

theorem perform_share (kept : d.Kept capacity r) (member : o ∈ r.owners) :
    d.perform (.share o.handle) =
      (.shared d.nextHandle, d.giveHandle (d.slots.share o.slot) o.slot) := by
  simp only [perform, kept.found member]

theorem perform_drop (kept : d.Kept capacity r) (member : o ∈ r.owners) :
    d.perform (.drop o.handle) = (.dropped,
      { d with slots := d.slots.release o.slot, handles := d.handles.erase o.handle }) := by
  simp only [perform, kept.found member]

theorem refers (kept : d.Kept capacity r) (member : o ∈ r.owners) :
    d.slots.Counts (o.slot ::ₘ ((r.owners.erase o).map Owner.slot : List Nat)) := by
  have counts := kept.counts
  rw [Multiset.coe_eq_coe.mpr ((List.perm_cons_erase member).map Owner.slot)] at counts
  exact counts

/-- A slot is set free with its last owner. -/
theorem free_drop (kept : d.Kept capacity r) (member : o ∈ r.owners) :
    (d.perform (.drop o.handle)).2.slots.free =
      if SlotRecord.Owned (r.owners.erase o) o.taking then d.slots.free
      else o.slot :: d.slots.free := by
  rw [kept.perform_drop member]
  refine (kept.refers member).free_release.trans ?_
  exact if_congr (kept.sound.owned_erase_iff member).symm rfl rfl

theorem free_share (kept : d.Kept capacity r) (member : o ∈ r.owners) :
    (d.perform (.share o.handle)).2.slots.free = d.slots.free := by
  rw [kept.perform_share member]
  exact d.slots.free_share o.slot

/-- A handle that is given stands for the slot of its owner. -/
theorem handles_next (kept : d.Kept capacity r) (slots : Slots Unit) (new : o.handle = d.nextHandle)
    (handle slot : Nat) : (d.giveHandle slots o.slot).handles.get? handle = some slot ↔
      ∃ p ∈ o :: r.owners, p.handle = handle ∧ p.slot = slot := by
  rw [giveHandle, Table.get?_insert, List.exists_mem_cons_iff, ← new]
  by_cases same : o.handle = handle
  · have before : ¬∃ p ∈ r.owners, p.handle = handle ∧ p.slot = slot := by
      rintro ⟨p, owner, again, _⟩
      exact absurd (again.trans (same.symm.trans new)) (Nat.ne_of_lt (kept.sound.drawn p owner))
    simp only [same, if_true, Option.some.injEq, true_and, before, or_false]
  · rw [if_neg same, kept.handles]
    simp only [same, false_and, false_or]

theorem take {slots : Slots Unit} (kept : d.Kept capacity r)
    (took : d.slots.take? () = some (slot, slots)) :
    (d.giveHandle slots slot).Kept capacity (r.take d.nextHandle slot) := by
  obtain ⟨counts, free, _⟩ := kept.counts.take took
  have absent : ∀ o ∈ r.owners, o.slot ≠ slot := by
    rintro o member rfl
    exact kept.counts.free_not_mem free (List.mem_map_of_mem member)
  refine ⟨?_, kept.sound.take absent, ?_, counts, ?_⟩
  · exact (Slots.capacity_take took).trans kept.size
  · exact kept.handles_next slots (o := ⟨d.nextHandle, d.nextHandle, slot⟩) rfl
  · have top := Slots.free_of_take took
    have distinct : (slot :: slots.free).Nodup := top ▸ kept.counts.free_nodup
    rw [List.nodup_cons] at distinct
    rw [SlotRecord.take, SlotEvent.free_taken, ← kept.order, top,
      List.filter_cons_of_neg (by simp), List.filter_eq_self.mpr]
    · rfl
    · intro other member
      apply decide_eq_true
      rintro rfl
      exact distinct.1 member

theorem share (kept : d.Kept capacity r) (member : o ∈ r.owners) :
    (d.perform (.share o.handle)).2.Kept capacity (r.share o d.nextHandle) := by
  rw [kept.perform_share member]
  refine ⟨?_, kept.sound.share member, ?_, ?_, ?_⟩
  · exact (d.slots.capacity_share o.slot).trans kept.size
  · exact kept.handles_next (d.slots.share o.slot) (o := { o with handle := d.nextHandle }) rfl
  · exact kept.counts.share (Multiset.mem_coe.mpr (List.mem_map_of_mem member))
  · exact (d.slots.free_share o.slot).trans kept.order

theorem drop (kept : d.Kept capacity r) (member : o ∈ r.owners) :
    (d.perform (.drop o.handle)).2.Kept capacity (r.drop o) := by
  have free := kept.free_drop member
  rw [kept.perform_drop member] at free ⊢
  refine ⟨?_, kept.sound.drop member, ?_, (kept.refers member).release, free.trans ?_⟩
  · exact (d.slots.capacity_release o.slot).trans kept.size
  · intro handle slot
    simp only [Table.get?_erase, SlotRecord.drop]
    by_cases gone : o.handle = handle
    · rw [if_pos gone]
      refine iff_of_false (Option.some_ne_none slot).symm ?_
      rintro ⟨p, other, same, _⟩
      obtain ⟨apart, owner⟩ := kept.sound.mem_erase_iff.mp other
      exact apart (kept.sound.eq_of_handle owner member (same.trans gone.symm))
    · rw [if_neg gone, kept.handles]
      constructor
      · rintro ⟨p, owner, same, place⟩
        refine ⟨p, kept.sound.mem_erase_iff.mpr ⟨?_, owner⟩, same, place⟩
        rintro rfl
        exact gone same
      · rintro ⟨p, other, same, place⟩
        exact ⟨p, List.mem_of_mem_erase other, same, place⟩
  · rw [SlotRecord.drop, kept.order]
    split
    · rfl
    · rw [SlotEvent.free_freed]

/-- Every command keeps the desk and what is told of it in agreement. -/
theorem perform (kept : d.Kept capacity r) (command : SlotCommand) :
    (d.perform command).2.Kept capacity (r.note command (d.perform command).1) := by
  cases command with
  | take =>
    cases took : d.slots.take? () with
    | none =>
      simp only [SlotDesk.perform, took]
      exact kept
    | some taken =>
      simp only [SlotDesk.perform, took]
      exact kept.take took
  | share handle =>
    cases found : d.handles.get? handle with
    | none =>
      simp only [SlotDesk.perform, found]
      exact kept
    | some slot =>
      obtain ⟨o, member, rfl, rfl⟩ := (kept.handles handle slot).mp found
      have shared := kept.share member
      rw [kept.perform_share member] at shared ⊢
      simp only [SlotRecord.note, kept.sound.owner?_eq member]
      exact shared
  | drop handle =>
    cases found : d.handles.get? handle with
    | none =>
      simp only [SlotDesk.perform, found]
      exact kept
    | some slot =>
      obtain ⟨o, member, rfl, rfl⟩ := (kept.handles handle slot).mp found
      have dropped := kept.drop member
      rw [kept.perform_drop member] at dropped ⊢
      simp only [SlotRecord.note, kept.sound.owner?_eq member]
      exact dropped

end Kept

def tell (d : SlotDesk) (r : SlotRecord) : List SlotCommand → SlotRecord
  | [] => r
  | command :: rest =>
    tell (d.perform command).2 (r.note command (d.perform command).1) rest

theorem Kept.run (kept : d.Kept capacity r) (commands : List SlotCommand) :
    (SlotDesk.run commands d).2.Kept capacity (d.tell r commands) := by
  induction commands generalizing d r with
  | nil => exact kept
  | cons command rest ih => exact ih (kept.perform command)

theorem kept_of_capacity {slots : Slots Unit} (created : Slots.ofCapacity? capacity = some slots) :
    Kept capacity { slots } {} := by
  refine ⟨Slots.capacity_ofCapacity created, ?_, ?_, Slots.counts_ofCapacity created, ?_⟩
  · exact ⟨List.nodup_nil, nofun, nofun, nofun, nofun, nofun, nofun⟩
  · exact fun handle slot => iff_of_false nofun nofun
  · unfold Slots.ofCapacity? at created
    split at created
    · contradiction
    · cases created
      simp [SlotEvent.free, SlotEvent.waiting, SlotEvent.unused]

/-- What holds at a desk of which so much is known: the owned slots and the free ones are all
slots, each of them once, and a slot goes free once, with its last owner. -/
structure Accounted (capacity : Nat) (d : SlotDesk) (r : SlotRecord) : Prop where
  partition : (d.slots.free ++ r.taken.map Prod.snd).Perm (List.range capacity)
  inUse : d.slots.inUse = r.taken.length
  full : (d.perform .take).1 = .nothing ↔ d.slots.inUse = capacity
  next : d.slots.inUse ≠ capacity → ∃ slot, (d.perform .take).1 = .taken d.nextHandle slot ∧
    slot ∉ r.taken.map Prod.snd ∧
    (SlotEvent.waiting r.events).head?.or (SlotEvent.unused capacity r.events).head? = some slot
  answered : ∀ handle,
    ((d.perform (.share handle)).1 ≠ .nothing ↔ ∃ o ∈ r.owners, o.handle = handle) ∧
    ((d.perform (.drop handle)).1 = .dropped ↔ ∃ o ∈ r.owners, o.handle = handle)
  shared : ∀ o ∈ r.owners, (d.perform (.share o.handle)).2.slots.free = d.slots.free
  dropped : ∀ o ∈ r.owners, (d.perform (.drop o.handle)).2.slots.free =
    if SlotRecord.Owned (r.owners.erase o) o.taking then d.slots.free
    else o.slot :: d.slots.free
  once : ∀ taking slot, .taken taking slot ∈ r.events →
    r.timesFreed taking = if SlotRecord.Owned r.owners taking then 0 else 1
  emptied : r.owners = [] → d.slots.inUse = 0
  closed : d.dropAll.slots.inUse = 0

namespace Kept

theorem partition (kept : d.Kept capacity r) :
    (d.slots.free ++ r.taken.map Prod.snd).Perm (List.range capacity) := by
  have all := kept.counts.partition
  rw [kept.counts.keys_eq, ← kept.sound.coe_taken_slots, kept.size] at all
  exact Multiset.coe_eq_coe.mp all

theorem inUse_eq (kept : d.Kept capacity r) : d.slots.inUse = r.taken.length := by
  rw [kept.counts.inUse_eq, ← kept.sound.coe_taken_slots, Multiset.coe_card, List.length_map]

theorem free_eq_nil_iff (kept : d.Kept capacity r) :
    d.slots.free = [] ↔ d.slots.inUse = capacity := by
  have all := kept.counts.free_add_inUse
  rw [kept.size] at all
  rw [← List.length_eq_zero_iff]
  omega

theorem full (kept : d.Kept capacity r) :
    (d.perform .take).1 = .nothing ↔ d.slots.inUse = capacity := by
  have refused : d.slots.take? () = none ↔ d.slots.inUse = capacity :=
    Slots.take?_eq_none_iff.trans kept.free_eq_nil_iff
  rw [← refused]
  cases took : d.slots.take? () with
  | none => simp only [SlotDesk.perform, took]
  | some taken => simp [SlotDesk.perform, took]

theorem next (kept : d.Kept capacity r) (room : d.slots.inUse ≠ capacity) :
    ∃ slot, (d.perform .take).1 = .taken d.nextHandle slot ∧ slot ∉ r.taken.map Prod.snd ∧
      (SlotEvent.waiting r.events).head?.or (SlotEvent.unused capacity r.events).head? =
        some slot := by
  cases took : d.slots.take? () with
  | none => exact absurd (kept.free_eq_nil_iff.mp (Slots.take?_eq_none_iff.mp took)) room
  | some taken =>
    obtain ⟨slot, slots⟩ := taken
    refine ⟨slot, ?_, ?_, ?_⟩
    · simp only [SlotDesk.perform, took]
    · rw [SlotRecord.mem_taken_slots]
      exact kept.counts.free_not_mem (kept.counts.take took).2.1
    · have order := kept.order
      rw [Slots.free_of_take took] at order
      rw [← List.head?_append]
      exact (congrArg List.head? order).symm

theorem answered (kept : d.Kept capacity r) (handle : Nat) :
    ((d.perform (.share handle)).1 ≠ .nothing ↔ ∃ o ∈ r.owners, o.handle = handle) ∧
    ((d.perform (.drop handle)).1 = .dropped ↔ ∃ o ∈ r.owners, o.handle = handle) := by
  have known : (d.handles.get? handle).isSome ↔ ∃ o ∈ r.owners, o.handle = handle := by
    rw [Option.isSome_iff_exists]
    constructor
    · rintro ⟨slot, found⟩
      obtain ⟨o, member, same, _⟩ := (kept.handles handle slot).mp found
      exact ⟨o, member, same⟩
    · rintro ⟨o, member, rfl⟩
      exact ⟨o.slot, kept.found member⟩
  rw [← known]
  cases found : d.handles.get? handle <;> simp [SlotDesk.perform, found]

theorem handles_perm (kept : d.Kept capacity r) :
    d.handles.entries.Perm (r.owners.map fun o => (o.handle, o.slot)) := by
  have distinct : (r.owners.map fun o => (o.handle, o.slot)).Nodup := by
    refine List.Nodup.of_map Prod.fst ?_
    rw [List.map_map]
    exact kept.sound.distinct
  rw [List.perm_ext_iff_of_nodup (d.handles.keys_nodup.of_map _) distinct]
  rintro ⟨handle, slot⟩
  rw [← Table.get?_eq_some_iff, kept.handles]
  simp

theorem closed (kept : d.Kept capacity r) : d.dropAll.slots.inUse = 0 := by
  have owned : d.handles.values.Perm (r.owners.map Owner.slot) := by
    have entries := kept.handles_perm.map Prod.snd
    rw [List.map_map] at entries
    exact entries
  have counts := kept.counts
  rw [← Multiset.coe_eq_coe.mpr owned] at counts
  exact counts.releaseEach.inUse_eq

theorem accounted (kept : d.Kept capacity r) : Accounted capacity d r where
  partition := kept.partition
  inUse := kept.inUse_eq
  full := kept.full
  next := kept.next
  answered := kept.answered
  shared _ := kept.free_share
  dropped _ := kept.free_drop
  once := kept.sound.once
  emptied none := by
    rw [kept.inUse_eq, SlotRecord.taken, none]
    rfl
  closed := kept.closed

end Kept

/-- Whoever takes, shares and drops slots in whatever order: at every moment the slots with an
owner and the free ones are all slots, each once; a slot that is taken is the latest one set
free, or the lowest one never taken, and it goes free again once, with its last owner. -/
theorem slots_accounted {capacity : Nat} (positive : 1 ≤ capacity) :
    ∃ slots : Slots Unit, Slots.ofCapacity? capacity = some slots ∧ ∀ commands : List SlotCommand,
      Accounted capacity (SlotDesk.run commands { slots }).2
        (SlotDesk.tell { slots } {} commands) := by
  have some : ¬capacity = 0 := by omega
  refine ⟨⟨capacity, List.range capacity, ∅⟩, if_neg some, ?_⟩
  intro commands
  exact ((kept_of_capacity (if_neg some)).run commands).accounted

/-- Of three slots the middle one has two owners: it goes free with the second of them, and so
last. -/
theorem slots_accounted_shared :
    ∃ (slots : Slots Unit) (commands : List SlotCommand), 1 ≤ 3 ∧
      Slots.ofCapacity? 3 = some slots ∧
      Accounted 3 (SlotDesk.run commands { slots }).2 (SlotDesk.tell { slots } {} commands) ∧
      (SlotDesk.tell { slots } {} commands).owners = [⟨4, 4, 2⟩] ∧
      (SlotDesk.run commands { slots }).2.slots.free = [1, 0] := by
  obtain ⟨slots, created, accounted⟩ := slots_accounted (show 1 ≤ 3 by decide)
  cases created
  exact ⟨_, [.take, .take, .take, .share 1, .drop 0, .drop 1, .drop 2, .take, .drop 3, .drop 0],
    by decide, rfl, accounted _, by decide, by decide⟩

end SlotDesk

end Rehearsal

end Courier
