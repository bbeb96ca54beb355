import Courier.Rehearsal.SlotScript
import Mathlib.Data.Multiset.Dedup

/-! A record of slots, told from commands and their answers alone: who owns which slot, and when
slots were taken and set free. Free slots are those set free and not taken since, the latest one
first, and behind them those never taken, the lowest one first. -/
namespace Courier

namespace Rehearsal

structure Owner where
  handle : Nat
  /-- The handle its slot was taken under, which tells two slots at one place apart. -/
  taking : Nat
  slot : Nat
  deriving DecidableEq

inductive SlotEvent where
  | taken (taking slot : Nat)
  | freed (taking slot : Nat)
  deriving DecidableEq

namespace SlotEvent

def takes (slot : Nat) : SlotEvent → Bool
  | taken _ other => other = slot
  | freed _ _ => false

def frees (taking : Nat) : SlotEvent → Bool
  | taken _ _ => false
  | freed other _ => other = taking

/-- The slots set free and not taken since, the latest one first. -/
def waiting : List SlotEvent → List Nat
  | [] => []
  | freed _ slot :: earlier => slot :: waiting earlier
  | taken _ slot :: earlier => (waiting earlier).filter (· ≠ slot)

/-- The slots never taken, the lowest one first. -/
def unused (capacity : Nat) (events : List SlotEvent) : List Nat :=
  (List.range capacity).filter fun slot => !events.any (takes slot)

/-- The slots there are to take, the one to be taken next first. -/
def free (capacity : Nat) (events : List SlotEvent) : List Nat :=
  waiting events ++ unused capacity events

theorem free_taken (capacity taking slot : Nat) (events : List SlotEvent) :
    free capacity (taken taking slot :: events) =
      (free capacity events).filter (· ≠ slot) := by
  simp only [free, waiting, unused, List.filter_append, List.filter_filter]
  congr 1
  apply List.filter_congr
  intro other _
  simp [takes, eq_comm]

theorem free_freed (capacity taking slot : Nat) (events : List SlotEvent) :
    free capacity (freed taking slot :: events) = slot :: free capacity events := by
  simp [free, waiting, unused, takes]

end SlotEvent

structure SlotRecord where
  owners : List Owner := []
  /-- The newest one first. -/
  events : List SlotEvent := []

namespace SlotRecord

variable {r : SlotRecord} {o p : Owner} {handle other slot next : Nat}

def take (r : SlotRecord) (handle slot : Nat) : SlotRecord where
  owners := ⟨handle, handle, slot⟩ :: r.owners
  events := .taken handle slot :: r.events

def share (r : SlotRecord) (o : Owner) (handle : Nat) : SlotRecord :=
  { r with owners := { o with handle } :: r.owners }

def Owned (owners : List Owner) (taking : Nat) : Prop := ∃ o ∈ owners, o.taking = taking

instance (owners : List Owner) (taking : Nat) : Decidable (Owned owners taking) :=
  inferInstanceAs (Decidable (∃ o ∈ owners, o.taking = taking))

theorem owned_cons {owners : List Owner} {taking : Nat} :
    Owned (o :: owners) taking ↔ o.taking = taking ∨ Owned owners taking :=
  List.exists_mem_cons_iff _ _ _

def drop (r : SlotRecord) (o : Owner) : SlotRecord where
  owners := r.owners.erase o
  events :=
    if Owned (r.owners.erase o) o.taking then r.events else .freed o.taking o.slot :: r.events

def owner? (r : SlotRecord) (handle : Nat) : Option Owner :=
  r.owners.find? (·.handle = handle)

def note (r : SlotRecord) : SlotCommand → SlotAnswer → SlotRecord
  | .take, .taken handle slot => r.take handle slot
  | .share handle, .shared other => (r.owner? handle).elim r fun o => r.share o other
  | .drop handle, .dropped => (r.owner? handle).elim r r.drop
  | _, _ => r

/-- The slots with an owner: the handle each was taken under, and where it is. -/
def taken (r : SlotRecord) : List (Nat × Nat) := (r.owners.map fun o => (o.taking, o.slot)).dedup

def timesFreed (r : SlotRecord) (taking : Nat) : Nat := r.events.countP (SlotEvent.frees taking)

theorem timesFreed_drop (taking : Nat) : (r.drop o).timesFreed taking =
    if taking = o.taking ∧ ¬Owned (r.drop o).owners o.taking then r.timesFreed taking + 1
    else r.timesFreed taking := by
  have events : (r.drop o).events = if Owned (r.drop o).owners o.taking then r.events
      else .freed o.taking o.slot :: r.events := rfl
  rw [timesFreed, events]
  by_cases shared : Owned (r.drop o).owners o.taking
  · rw [if_pos shared, if_neg fun last => last.2 shared]
    rfl
  · rw [if_neg shared, List.countP_cons]
    by_cases same : taking = o.taking
    · have frees : SlotEvent.frees taking (.freed o.taking o.slot) = true :=
        decide_eq_true same.symm
      rw [if_pos frees, if_pos ⟨same, shared⟩]
      rfl
    · have other : ¬SlotEvent.frees taking (.freed o.taking o.slot) = true :=
        fun frees => same (of_decide_eq_true frees).symm
      rw [if_neg other, if_neg fun last => same last.1]
      rfl

/-- The owners are those a desk has given handles to, up to the next one; who owns the slot of
one taking owns it in one place, and it is set free once when nobody does. -/
structure Sound (r : SlotRecord) (next : Nat) : Prop where
  distinct : (r.owners.map Owner.handle).Nodup
  drawn : ∀ o ∈ r.owners, o.handle < next
  apart : ∀ o ∈ r.owners, ∀ p ∈ r.owners, o.slot = p.slot ↔ o.taking = p.taking
  known : ∀ o ∈ r.owners, .taken o.taking o.slot ∈ r.events
  past : ∀ taking slot, .taken taking slot ∈ r.events → taking < next
  early : ∀ taking slot, .freed taking slot ∈ r.events → .taken taking slot ∈ r.events
  once : ∀ taking slot, .taken taking slot ∈ r.events →
    r.timesFreed taking = if Owned r.owners taking then 0 else 1

namespace Sound

theorem nodup (sound : r.Sound next) : r.owners.Nodup := sound.distinct.of_map _

theorem mem_erase_iff (sound : r.Sound next) : p ∈ r.owners.erase o ↔ p ≠ o ∧ p ∈ r.owners :=
  sound.nodup.mem_erase_iff

theorem eq_of_handle (sound : r.Sound next) (left : o ∈ r.owners) (right : p ∈ r.owners)
    (same : o.handle = p.handle) : o = p :=
  List.inj_on_of_nodup_map sound.distinct left right same

theorem owner?_eq (sound : r.Sound next) (member : o ∈ r.owners) : r.owner? o.handle = some o := by
  cases found : r.owner? o.handle with
  | none => simpa using List.find?_eq_none.mp found o member
  | some p =>
    unfold owner? at found
    have same : p.handle = o.handle := by simpa using List.find?_some found
    rw [sound.eq_of_handle (List.mem_of_find?_eq_some found) member same]

theorem timesFreed_eq_zero (sound : r.Sound next) : r.timesFreed next = 0 := by
  rw [timesFreed, List.countP_eq_zero]
  rintro (_ | ⟨taking, slot⟩) member frees
  · exact Bool.false_ne_true frees
  · have before := sound.past taking slot (sound.early taking slot member)
    have same : taking = next := of_decide_eq_true frees
    omega

/-- The next handle is new. -/
theorem nodup_next (sound : r.Sound next) : (next :: r.owners.map Owner.handle).Nodup := by
  refine List.nodup_cons.mpr ⟨?_, sound.distinct⟩
  intro member
  obtain ⟨o, owner, same⟩ := List.mem_map.mp member
  exact absurd same (Nat.ne_of_lt (sound.drawn o owner))

theorem drawn_next (sound : r.Sound next) (new : o.handle = next) :
    ∀ p ∈ o :: r.owners, p.handle < next + 1 := by
  refine List.forall_mem_cons.mpr ⟨?_, ?_⟩
  · omega
  · intro p owner
    exact Nat.lt_succ_of_lt (sound.drawn p owner)

theorem take (sound : r.Sound next) (absent : ∀ o ∈ r.owners, o.slot ≠ slot) :
    (r.take next slot).Sound (next + 1) := by
  have older : ∀ o ∈ r.owners, o.taking < next := fun o member =>
    sound.past o.taking o.slot (sound.known o member)
  refine ⟨sound.nodup_next, sound.drawn_next rfl, ?_, ?_, ?_, ?_, ?_⟩
  · refine List.forall_mem_cons.mpr ⟨?_, ?_⟩
    · refine List.forall_mem_cons.mpr ⟨iff_of_true rfl rfl, ?_⟩
      intro p member
      exact iff_of_false (Ne.symm (absent p member)) (Nat.ne_of_gt (older p member))
    · intro o owner
      refine List.forall_mem_cons.mpr ⟨?_, sound.apart o owner⟩
      exact iff_of_false (absent o owner) (Nat.ne_of_lt (older o owner))
  · refine List.forall_mem_cons.mpr ⟨List.mem_cons_self, ?_⟩
    intro o member
    exact List.mem_cons_of_mem _ (sound.known o member)
  · intro taking place member
    rcases List.mem_cons.mp member with new | old
    · cases new
      exact Nat.lt_succ_self next
    · exact Nat.lt_succ_of_lt (sound.past taking place old)
  · intro taking place member
    rcases List.mem_cons.mp member with new | old
    · contradiction
    · exact List.mem_cons_of_mem _ (sound.early taking place old)
  · intro taking place member
    have same : (r.take next slot).timesFreed taking = r.timesFreed taking := rfl
    rw [same]
    rcases List.mem_cons.mp member with new | old
    · cases new
      rw [if_pos ⟨_, List.mem_cons_self, rfl⟩, sound.timesFreed_eq_zero]
    · have before := sound.past taking place old
      rw [sound.once taking place old]
      refine if_congr ?_ rfl rfl
      exact (owned_cons.trans (or_iff_right (Nat.ne_of_gt before))).symm

theorem share (sound : r.Sound next) (member : o ∈ r.owners) :
    (r.share o next).Sound (next + 1) := by
  refine ⟨sound.nodup_next, sound.drawn_next rfl, ?_, ?_, ?_, sound.early, ?_⟩
  · refine List.forall_mem_cons.mpr ⟨?_, ?_⟩
    · exact List.forall_mem_cons.mpr ⟨iff_of_true rfl rfl, sound.apart o member⟩
    · intro p owner
      exact List.forall_mem_cons.mpr ⟨sound.apart p owner o member, sound.apart p owner⟩
  · exact List.forall_mem_cons.mpr ⟨sound.known o member, sound.known⟩
  · intro taking place taken
    exact Nat.lt_succ_of_lt (sound.past taking place taken)
  · intro taking place taken
    refine (sound.once taking place taken).trans (if_congr ?_ rfl rfl)
    have owned : o.taking = taking → Owned r.owners taking := fun same => ⟨o, member, same⟩
    exact (owned_cons (o := { o with handle := next })).trans (or_iff_right_of_imp owned) |>.symm

theorem drop (sound : r.Sound next) (member : o ∈ r.owners) : (r.drop o).Sound next := by
  have kept : ∀ p ∈ (r.drop o).owners, p ∈ r.owners := fun p => List.mem_of_mem_erase
  have taken : ∀ taking slot, .taken taking slot ∈ (r.drop o).events ↔
      .taken taking slot ∈ r.events := by
    intro taking slot
    simp only [SlotRecord.drop]
    split <;> simp
  have held : ∀ taking, taking ≠ o.taking →
      (Owned (r.drop o).owners taking ↔ Owned r.owners taking) := by
    intro taking other
    constructor
    · rintro ⟨p, owner, same⟩
      exact ⟨p, kept p owner, same⟩
    · rintro ⟨p, owner, rfl⟩
      refine ⟨p, sound.mem_erase_iff.mpr ⟨?_, owner⟩, rfl⟩
      rintro rfl
      exact other rfl
  refine ⟨?_, ?_, ?_, ?_, ?_, ?_, ?_⟩
  · exact sound.distinct.sublist (List.erase_sublist.map _)
  · exact fun p owner => sound.drawn p (kept p owner)
  · exact fun p owner q other => sound.apart p (kept p owner) q (kept q other)
  · exact fun p owner => (taken _ _).mpr (sound.known p (kept p owner))
  · exact fun taking slot event => sound.past taking slot ((taken _ _).mp event)
  · intro taking slot event
    rw [taken]
    simp only [SlotRecord.drop] at event
    split at event
    · exact sound.early taking slot event
    · rcases List.mem_cons.mp event with new | old
      · cases new
        exact sound.known o member
      · exact sound.early taking slot old
  · intro taking slot event
    have counted := sound.once taking slot ((taken _ _).mp event)
    by_cases other : taking = o.taking
    · subst other
      rw [if_pos ⟨o, member, rfl⟩] at counted
      rw [timesFreed_drop, counted]
      by_cases shared : Owned (r.drop o).owners o.taking
      · rw [if_pos shared, if_neg fun last => last.2 shared]
      · rw [if_neg shared, if_pos ⟨rfl, shared⟩]
    · rw [timesFreed_drop, if_neg fun last => other last.1, counted]
      exact if_congr (held taking other).symm rfl rfl

end Sound

/-- Owned slots are apart from each other. -/
theorem Sound.taken_nodup (sound : r.Sound next) : (r.taken.map Prod.snd).Nodup := by
  refine (List.nodup_dedup _).map_on ?_
  intro left member right member' same
  obtain ⟨o, owner, rfl⟩ := List.mem_map.mp (List.mem_dedup.mp member)
  obtain ⟨p, owner', rfl⟩ := List.mem_map.mp (List.mem_dedup.mp member')
  exact Prod.ext ((sound.apart o owner p owner').mp same) same

theorem mem_taken_slots : slot ∈ r.taken.map Prod.snd ↔ slot ∈ r.owners.map Owner.slot := by
  simp [taken]

theorem Sound.coe_taken_slots (sound : r.Sound next) :
    (r.taken.map Prod.snd : Multiset Nat) =
      (r.owners.map Owner.slot : Multiset Nat).dedup := by
  have distinct : (r.taken.map Prod.snd : Multiset Nat).Nodup :=
    Multiset.coe_nodup.mpr sound.taken_nodup
  rw [distinct.ext (Multiset.nodup_dedup _)]
  intro slot
  rw [Multiset.mem_dedup, Multiset.mem_coe, Multiset.mem_coe, mem_taken_slots]

/-- Somebody else owns the slot of one taking exactly if he owns what is at its place. -/
theorem Sound.owned_erase_iff (sound : r.Sound next) (member : o ∈ r.owners) :
    Owned (r.owners.erase o) o.taking ↔ o.slot ∈ (r.owners.erase o).map Owner.slot := by
  rw [List.mem_map]
  constructor
  · rintro ⟨p, other, same⟩
    exact ⟨p, other, (sound.apart p (List.mem_of_mem_erase other) o member).mpr same⟩
  · rintro ⟨p, other, same⟩
    exact ⟨p, other, (sound.apart p (List.mem_of_mem_erase other) o member).mp same⟩

end SlotRecord

end Rehearsal

end Courier
